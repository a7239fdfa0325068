import Emitter.Proofs.Path.Below
import Emitter.Proofs.Path.Parent
import Emitter.Session.FileName

/-! Names that were fitted. A fitted name is a name, so that fitting changes the last name of a path
and nothing else (`fit_ofNames`), and two numbers set names apart (`fitName_inj`). -/

namespace Emitter.FileName

open Emitter.Path (IsName)
open Text.Utf8 (size size_append size_cons)

/-! ## Cutting -/

theorem cut_of_size_le {budget : Nat} {text : List Char} (h : size text ≤ budget) :
    cut budget text = text := by
  induction text generalizing budget with
  | nil => rfl
  | cons c rest ih =>
    rw [size_cons] at h
    rw [cut, if_pos (by omega), ih (by omega)]

/-- A cut is at most three bytes short of what it may have. -/
theorem lt_size_cut {budget : Nat} {text : List Char} (h : budget < size text) :
    budget < size (cut budget text) + 4 := by
  induction text generalizing budget with
  | nil => simp [size] at h
  | cons c rest ih =>
    rw [size_cons] at h
    have most := c.utf8Size_le_four
    by_cases fits : c.utf8Size ≤ budget
    · have more := @ih (budget - c.utf8Size) (by omega)
      rw [cut, if_pos fits, size_cons]
      omega
    · omega

/-! ## The stem and the extension -/

/-- A name, its stem and its extension. The last dot begins the extension, unless the name begins
with that dot or what it begins is long: then all of the name is its stem. -/
inductive IsSplit : List Char → List Char → List Char → Prop where
  | extended {stem letters : List Char} (begun : stem ≠ []) (last : '.' ∉ letters)
    (short : size ('.' :: letters) ≤ maxExtensionBytes) :
    IsSplit (stem ++ '.' :: letters) stem ('.' :: letters)
  | whole {name : List Char}
    (long : ∀ stem letters, name = stem ++ '.' :: letters → stem ≠ [] → '.' ∉ letters →
      maxExtensionBytes < size ('.' :: letters)) :
    IsSplit name name []

/-- A name has one last dot at most. -/
theorem last_dot_inj {a b r s : List Char} (ha : '.' ∉ a) (hb : '.' ∉ b)
    (h : r ++ '.' :: a = s ++ '.' :: b) : r = s ∧ a = b := by
  have back := congrArg List.reverse h
  simp only [List.reverse_append, List.reverse_cons, List.append_assoc,
    List.singleton_append] at back
  obtain ⟨same, front⟩ := Text.append_inj_of_not_mem (by simpa using ha) (by simpa using hb) back
  exact ⟨List.reverse_injective front, List.reverse_injective same⟩

theorem exists_last_dot {name : List Char} (h : '.' ∈ name) :
    ∃ stem letters, name = stem ++ '.' :: letters ∧ '.' ∉ letters := by
  obtain ⟨letters, stem, back, last⟩ := List.eq_append_cons_of_mem (List.mem_reverse.2 h)
  refine ⟨stem.reverse, letters.reverse, ?_, by simpa using last⟩
  have name' := congrArg List.reverse back
  simpa using name'

theorem bne_of_mem_reverse {mark : Char} {text : List Char} (h : mark ∉ text) :
    ∀ c ∈ text.reverse, (c != mark) = true := by
  intro c mem
  rw [bne_iff_ne]
  rintro rfl
  exact h (List.mem_reverse.1 mem)

theorem splitName_of_not_mem {name : List Char} (h : '.' ∉ name) : splitName name = (name, []) := by
  have letters := List.takeWhile_eq_self_iff.2 (bne_of_mem_reverse h)
  simp [splitName, letters]

theorem splitName_of_last_dot {stem letters : List Char} (last : '.' ∉ letters) :
    splitName (stem ++ '.' :: letters) =
      if stem = [] ∨ maxExtensionBytes < size ('.' :: letters) then (stem ++ '.' :: letters, [])
      else (stem, '.' :: letters) := by
  have back : ((stem ++ '.' :: letters).reverse.takeWhile (· != '.')).reverse = letters := by
    rw [List.reverse_append, List.reverse_cons, List.append_assoc,
      List.takeWhile_append_of_pos (bne_of_mem_reverse last)]
    simp
  have front : ((stem ++ '.' :: letters).take
      ((stem ++ '.' :: letters).length - letters.length)).dropLast = stem := by
    rw [List.append_cons, List.length_append, Nat.add_sub_cancel,
      List.take_left, List.dropLast_concat]
  have dot : size ('.' :: letters) = size letters + 1 := by
    rw [size_cons, Nat.add_comm]
    rfl
  unfold splitName
  dsimp only
  rw [back, front, dot]
  simp

theorem isSplit_splitName (name : List Char) :
    IsSplit name (splitName name).1 (splitName name).2 := by
  by_cases dot : '.' ∈ name
  · obtain ⟨stem, letters, rfl, last⟩ := exists_last_dot dot
    rw [splitName_of_last_dot last]
    split
    · next kept =>
      refine .whole fun stem' letters' cut begun last' => ?_
      obtain ⟨rfl, rfl⟩ := last_dot_inj last last' cut
      exact kept.resolve_left begun
    · next cut =>
      rw [not_or, Nat.not_lt] at cut
      exact .extended cut.1 last cut.2
  · rw [splitName_of_not_mem dot]
    refine .whole fun stem letters cut => ?_
    rw [cut] at dot
    simp at dot

namespace IsSplit

variable {name stem extension : List Char} (h : IsSplit name stem extension)
include h

theorem append_eq : stem ++ extension = name := by
  cases h with
  | extended => rfl
  | whole => exact List.append_nil name

theorem size_extension : size extension ≤ maxExtensionBytes := by
  cases h with
  | extended _ _ short => exact short
  | whole => exact Nat.zero_le _

/-- A name is split in one way. -/
theorem splitName_eq : splitName name = (stem, extension) := by
  cases h with
  | extended begun last short =>
    rw [splitName_of_last_dot last, if_neg (by simp [begun, short])]
  | whole long =>
    by_cases dot : '.' ∈ name
    · obtain ⟨stem, letters, rfl, last⟩ := exists_last_dot dot
      rw [splitName_of_last_dot last, if_pos]
      by_cases begun : stem = []
      · exact .inl begun
      · exact .inr (long stem letters rfl begun last)
    · exact splitName_of_not_mem dot

theorem unique {stem' extension' : List Char} (h' : IsSplit name stem' extension') :
    stem = stem' ∧ extension = extension' :=
  Prod.mk.inj (h.splitName_eq.symm.trans h'.splitName_eq)

theorem fitName_eq (number : Option Nat) : fitName name number =
    cut (budget stem extension (suffix number)) stem ++ suffix number ++ extension := by
  rw [fitName, h.splitName_eq]

end IsSplit

theorem splitName_append (name : List Char) : (splitName name).1 ++ (splitName name).2 = name :=
  (isSplit_splitName name).append_eq

theorem size_extension (name : List Char) : size (splitName name).2 ≤ maxExtensionBytes :=
  (isSplit_splitName name).size_extension

/-! ## Fitted names -/

theorem fitName_eq (name : List Char) (number : Option Nat) :
    fitName name number =
      cut (budget (splitName name).1 (splitName name).2 (suffix number)) (splitName name).1 ++
        suffix number ++ (splitName name).2 := rfl

/-- Without a number only a long name is changed, and what is left of it is long. -/
theorem fitName_none (name : List Char) :
    fitName name none = name ∨ 2 < size (fitName name none) := by
  have extension := size_extension name
  by_cases long : maxBytes - size (splitName name).2 < size (splitName name).1
  · right
    have stem : maxBytes - size (splitName name).2 - reserve < size (splitName name).1 := by omega
    have most := lt_size_cut stem
    rw [fitName_eq, budget, if_pos long, size_append, size_append]
    simp only [maxBytes, reserve, maxExtensionBytes] at *
    omega
  · left
    have whole : cut (budget (splitName name).1 (splitName name).2 (suffix none))
        (splitName name).1 = (splitName name).1 := by
      refine cut_of_size_le ?_
      rw [budget, if_neg long]
      exact Nat.le_of_not_lt long
    rw [fitName_eq, whole, suffix, List.append_nil, splitName_append]

theorem mem_suffix {c : Char} {number : Option Nat} (h : c ∈ suffix number) :
    c = '_' ∨ c.isDigit = true := by
  rcases number with _ | n
  · cases h
  · rcases List.mem_cons.1 h with rfl | digit
    · exact .inl rfl
    · exact .inr (Nat.isDigit_of_mem_toDigits (by decide) (by decide) digit)

/-- Fitting brings in marks and digits only. -/
theorem mem_fitName {c : Char} {name : List Char} {number : Option Nat}
    (h : c ∈ fitName name number) : c ∈ name ∨ c = '_' ∨ c.isDigit = true := by
  have whole := splitName_append name
  rw [fitName_eq, List.mem_append, List.mem_append] at h
  rcases h with (stem | number) | extension
  · left
    rw [← whole]
    exact List.mem_append_left _ (List.IsPrefix.subset ( cut_prefix ..) stem)
  · exact .inr (mem_suffix number)
  · left
    rw [← whole]
    exact List.mem_append_right _ extension

theorem isName_fitName {name : String} (h : IsName name) (number : Option Nat) :
    IsName (String.ofList (fitName name.toList number)) := by
  have noSlash : '/' ∉ fitName name.toList number := by
    intro slash
    rcases mem_fitName slash with old | same | digit
    · exact h.noSlash old
    · cases same
    · cases digit
  rcases number with _ | n
  · rcases fitName_none name.toList with same | long
    · rw [same, String.ofList_toList]
      exact h
    · refine ⟨?_, ?_, ?_, by simpa using noSlash⟩ <;>
      · rw [String.toList_ofList]
        intro short
        rw [short] at long
        exact absurd long (by decide)
  · have mark : '_' ∈ fitName name.toList (some n) := by
      rw [fitName_eq]
      simp [suffix]
    refine ⟨?_, ?_, ?_, by simpa using noSlash⟩ <;>
    · rw [String.toList_ofList]
      intro short
      rw [short] at mark
      exact absurd mark (by decide)

/-- The digits are what stands after the last mark before the extension. -/
theorem fitName_inj {name : List Char} {m n : Nat}
    (h : fitName name (some m) = fitName name (some n)) : m = n := by
  have digits : ∀ k : Nat, '_' ∉ Nat.toDigits 10 k := fun k mark => by
    have := Nat.isDigit_of_mem_toDigits (by decide) (by decide) mark
    cases this
  have last : ∀ (stem : List Char) (k : Nat),
      (stem ++ suffix (some k)).rtakeWhile (· != '_') = Nat.toDigits 10 k := by
    intro stem k
    rw [List.rtakeWhile, suffix, List.reverse_append, List.reverse_cons, List.append_assoc,
      List.takeWhile_append_of_pos (bne_of_mem_reverse (digits k))]
    simp
  rw [fitName_eq, fitName_eq] at h
  have front := congrArg (List.rtakeWhile (· != '_')) (List.append_cancel_right h)
  rw [last, last] at front
  have number := congrArg (Nat.ofDigitChars 10 · 0) front
  simpa [Nat.ofDigitChars_toDigits] using number

/-! ## Fitted paths -/

theorem fit_ofNames {names : List String} {name : String} (h : ∀ n ∈ names, IsName n)
    (here : IsName name) (number : Option Nat) :
    fit (Path.ofNames (names ++ [name])) number =
      Path.ofNames (names ++ [String.ofList (fitName name.toList number)]) := by
  rw [fit, Path.fileName?_ofNames (Path.isName_concat h here)]
  exact Path.withFileName_ofNames h here _

/-- A normal path is the root or has a last name. -/
theorem cases_of_normal {p : Path} (h : p.Normal) :
    p = Path.ofNames [] ∨ ∃ names name, (∀ n ∈ names, IsName n) ∧ IsName name ∧
      p = Path.ofNames (names ++ [name]) := by
  obtain ⟨all, valid, rfl⟩ := h
  rcases List.eq_nil_or_concat' all with rfl | ⟨names, name, rfl⟩
  · exact .inl rfl
  · exact .inr ⟨names, name, fun n hn => valid n (by simp [hn]), valid name (by simp), rfl⟩

theorem normal_fit {p : Path} (h : p.Normal) (number : Option Nat) : (fit p number).Normal := by
  rcases cases_of_normal h with rfl | ⟨names, name, all, here, rfl⟩
  · exact Path.normal_root
  · exact ⟨_, Path.isName_concat all (isName_fitName here number), fit_ofNames all here number⟩

theorem portableBelow_fit {p : Path} (h : p.Normal) {depth : Nat} (portable : p.PortableBelow depth)
    (number : Option Nat) : (fit p number).PortableBelow depth := by
  rcases cases_of_normal h with rfl | ⟨names, name, all, here, rfl⟩
  · exact portable
  have valid := Path.isName_concat all here
  have valid' := Path.isName_concat all (isName_fitName here number)
  intro others valid'' same
  rw [fit_ofNames all here] at same
  obtain rfl := (Path.ofNames_inj valid' valid'').1 (by rw [same, Path.same_iff])
  have before := portable _ valid rfl
  rw [List.drop_append] at before ⊢
  intro n mem backslash
  rcases List.mem_append.1 mem with old | last
  · exact before n (List.mem_append_left _ old) backslash
  by_cases deep : depth - names.length = 0
  · rw [deep, List.drop_zero] at last
    have old := before name (List.mem_append_right _ (by simp [deep]))
    rw [List.mem_singleton.1 last, String.toList_ofList] at backslash
    rcases mem_fitName backslash with char | mark | digit
    · exact old char
    · cases mark
    · cases digit
  · rw [List.drop_eq_nil_of_le (by simp; omega)] at last
    cases last

/-- A path other than the root gets as many names as there are numbers. -/
theorem fit_inj {p : Path} (h : p.Normal) (below : p ≠ Path.ofNames []) {m n : Nat}
    (same : fit p (some m) = fit p (some n)) : m = n := by
  rcases cases_of_normal h with rfl | ⟨names, name, all, here, rfl⟩
  · exact absurd rfl below
  · rw [fit_ofNames all here, fit_ofNames all here] at same
    have valid (k : Nat) := Path.isName_concat all (isName_fitName here (some k))
    have names' := (Path.ofNames_inj (valid m) (valid n)).1 (by rw [same, Path.same_iff])
    have last := List.singleton_inj.1 (List.append_cancel_left names')
    exact fitName_inj (String.ofList_injective last)

end Emitter.FileName
