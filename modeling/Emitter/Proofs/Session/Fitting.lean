import Emitter.Proofs.Path.LastName
import Emitter.Proofs.Session.FileName
import Emitter.Proofs.Text.Boundary
import Emitter.Proofs.Text.Utf8

/-! Fitted names keep to the limit. A number of 64 bits fits what is kept free for it
(`size_suffix_le`), so that a fitted name has at most as many bytes as a name may have, and only a
name that would have more of them is cut (`cut_eq_self_iff`). It is cut at the last boundary of a
character before the budget, which a search back from there finds (`lastBoundary?_encode`). -/

namespace Emitter.FileName

open Text.Utf8 (size size_append size_cons encode isBoundary isBoundary_encode lastBoundary?
  lastBoundary?_eq_some encode_eq_take)

/-! ## The longest beginning -/

theorem size_le_of_beginning {a b : List Char} (h : a <+: b) : size a ≤ size b := by
  obtain ⟨rest, rfl⟩ := h
  rw [size_append]
  exact Nat.le_add_right ..

/-- Whatever fits the budget is a beginning of the cut. -/
theorem prefix_cut {before text : List Char} {budget : Nat} (begins : before <+: text)
    (fits : size before ≤ budget) : before <+: cut budget text := by
  induction text generalizing before budget with
  | nil => exact begins
  | cons c rest ih =>
    rcases before with _ | ⟨d, more⟩
    · exact List.nil_prefix
    · obtain ⟨rfl, later⟩ := List.cons_prefix_cons.1 begins
      rw [size_cons] at fits
      rw [cut, if_pos (by omega)]
      exact List.cons_prefix_cons.2 ⟨rfl, ih later (by omega)⟩

/-- A search back from the budget ends where the text is cut. -/
theorem lastBoundary?_encode (budget : Nat) (text : List Char) :
    lastBoundary? (encode text) budget = some (size (cut budget text)) := by
  refine lastBoundary?_eq_some (size_cut ..) (isBoundary_encode.2 ⟨_, cut_prefix .., rfl⟩) ?_
  intro place after upTo
  by_contra boundary
  rw [Bool.not_eq_false] at boundary
  obtain ⟨before, begins, rfl⟩ := isBoundary_encode.1 boundary
  exact Nat.not_lt.2 (size_le_of_beginning (prefix_cut begins upTo)) after

/-! ## Room for the number -/

theorem size_eq_length {text : List Char} (h : ∀ c ∈ text, c.utf8Size = 1) :
    size text = text.length := by
  induction text with
  | nil => rfl
  | cons c rest ih =>
    rw [size_cons, h c List.mem_cons_self, ih fun d mem => h d (.tail _ mem), List.length_cons,
      Nat.add_comm]

/-- Every number of 64 bits has room in what is kept free. -/
theorem size_suffix_le {number : Option Nat} (word : ∀ n ∈ number, n < UInt64.size) :
    size (suffix number) ≤ reserve := by
  have single : ∀ c ∈ suffix number, c.utf8Size = 1 := by
    intro c mem
    rcases mem_suffix mem with rfl | digit
    · rfl
    · rw [Char.isDigit, Bool.and_eq_true, decide_eq_true_eq, decide_eq_true_eq] at digit
      exact Char.utf8Size_eq_one_iff.2 (UInt32.le_trans digit.2 (by decide))
  rw [size_eq_length single]
  rcases number with _ | n
  · exact Nat.zero_le _
  · have digits : (Nat.toDigits 10 n).length ≤ 20 :=
      (Nat.length_toDigits_le_iff (by decide) (by decide)).2
        (Nat.lt_of_lt_of_le (word n rfl) (by decide))
    exact Nat.succ_le_succ digits

section

variable {stem extension suffix : List Char} (short : size extension ≤ maxExtensionBytes)
include short

/-- A long name is cut to leave room for any number. -/
theorem budget_of_long (long : maxBytes < size (stem ++ extension)) :
    budget stem extension suffix + reserve + size extension = maxBytes := by
  have room : maxExtensionBytes + reserve ≤ maxBytes := by decide
  rw [size_append] at long
  rw [budget, if_pos (by omega)]
  omega

/-- Any other name leaves room for its own. -/
theorem budget_of_short (fits : size (stem ++ extension) ≤ maxBytes)
    (room : size suffix ≤ reserve) :
    budget stem extension suffix + size suffix + size extension = maxBytes := by
  have room' : maxExtensionBytes + reserve ≤ maxBytes := by decide
  rw [size_append] at fits
  rw [budget, if_neg (by omega)]
  omega

variable (room : size suffix ≤ reserve)
include room

theorem size_fitted_le :
    size (cut (budget stem extension suffix) stem ++ suffix ++ extension) ≤ maxBytes := by
  have kept := size_cut (budget stem extension suffix) stem
  rw [size_append, size_append]
  rcases Nat.lt_or_ge maxBytes (size (stem ++ extension)) with long | fits
  · have budget := @budget_of_long stem extension suffix short long
    omega
  · have budget := budget_of_short short fits room
    omega

/-- A stem is cut exactly if there are too many bytes with it. -/
theorem cut_eq_self_iff : cut (budget stem extension suffix) stem = stem ↔
    size (stem ++ suffix ++ extension) ≤ maxBytes := by
  have total : size (stem ++ suffix ++ extension) = size stem + size suffix + size extension := by
    rw [size_append, size_append]
  constructor
  · intro whole
    have fitted := @size_fitted_le stem extension suffix short room
    rwa [whole] at fitted
  · intro fits
    have fits' : size (stem ++ extension) ≤ maxBytes := by
      rw [size_append]
      omega
    have budget := budget_of_short short fits' room
    exact cut_of_size_le (by omega)

end

/-! ## Fitted names -/

theorem size_fitName_le (name : List Char) {number : Option Nat}
    (word : ∀ n ∈ number, n < UInt64.size) : size (fitName name number) ≤ maxBytes :=
  size_fitted_le (size_extension name) (size_suffix_le word)

theorem fitName_of_size_le {name : List Char} (h : size name ≤ maxBytes) :
    fitName name none = name := by
  have whole : cut (budget (splitName name).1 (splitName name).2 (suffix none))
      (splitName name).1 = (splitName name).1 := by
    refine (cut_eq_self_iff (size_extension name) (Nat.zero_le _)).2 ?_
    rwa [suffix, List.append_nil, splitName_append]
  rw [fitName_eq, whole, suffix, List.append_nil, splitName_append]

/-! ## Fitted paths -/

section

variable {p : Path} {name : String} (named : p.fileName? = some name)
include named

theorem fit_eq (number : Option Nat) :
    fit p number = p.withFileName (String.ofList (fitName name.toList number)) := by
  rw [fit, named]

theorem fileName?_fit (number : Option Nat) :
    (fit p number).fileName? = some (String.ofList (fitName name.toList number)) := by
  rw [fit_eq named]
  exact Path.fileName?_withFileName named (isName_fitName (Path.isName_of_fileName? named) number)

/-- The folder stays, in whatever form the path is. -/
theorem folder_fit (number : Option Nat) : (fit p number).parent? = p.parent? := by
  rw [fit_eq named]
  exact Path.parent?_withFileName named (isName_fitName (Path.isName_of_fileName? named) number)

/-- Fitting again fits the name again. -/
theorem fit_fit (first second : Option Nat) : fit (fit p first) second =
    p.withFileName (String.ofList (fitName (fitName name.toList first) second)) := by
  have fitted := isName_fitName (Path.isName_of_fileName? named) first
  rw [fit_eq (fileName?_fit named first), String.toList_ofList, fit_eq named,
    Path.withFileName_withFileName named fitted]

end

/-- A fitted path keeps the folder of the path, and its name is a beginning of the stem, the number
and the extension, of 254 bytes at most. An extension of at most 64 bytes is whole, and nothing is
cut if there is room for all of the stem. If not, the beginning ends where a search back from the
budget meets the boundary of a character, which it always does; and the budget is what is left of
the limit, never less than nothing. A fitted path stays as it is, and for one path each number makes
another name. -/
theorem fit_within_limit {p : Path} {name : String} (named : p.fileName? = some name)
    {number : Option Nat} (word : ∀ n ∈ number, n < UInt64.size) :
    (∃ stem extension kept, IsSplit name.toList stem extension ∧
      (∀ before letters, name.toList = before ++ '.' :: letters → before ≠ [] → '.' ∉ letters →
        size ('.' :: letters) ≤ 64 → extension = '.' :: letters) ∧
      (fit p number).parent? = p.parent? ∧
      (fit p number).fileName? = some (String.ofList (kept ++ suffix number ++ extension)) ∧
      size (kept ++ suffix number ++ extension) ≤ 254 ∧
      kept <+: stem ∧ encode kept = (encode stem).take (size kept) ∧
      (kept = stem ↔ size (stem ++ suffix number ++ extension) ≤ 254) ∧
      lastBoundary? (encode stem) (budget stem extension (suffix number)) = some (size kept) ∧
      budget stem extension (suffix number) +
        (if 254 < size (stem ++ extension) then 21 else size (suffix number)) +
        size extension = 254) ∧
    fit (fit p none) none = fit p none ∧
    ∀ m n, (fit p (some m)).fileName? = (fit p (some n)).fileName? → m = n := by
  obtain ⟨stem, extension, split⟩ : ∃ stem extension, IsSplit name.toList stem extension :=
    ⟨_, _, isSplit_splitName name.toList⟩
  have short := split.size_extension
  have room := size_suffix_le word
  have begins := cut_prefix (budget stem extension (suffix number)) stem
  refine ⟨⟨stem, extension, _, split, ?_, folder_fit named number, ?_, size_fitted_le short room,
    begins, encode_eq_take begins, cut_eq_self_iff short room, lastBoundary?_encode .., ?_⟩, ?_,
    fun m n same => ?_⟩
  · intro before letters cut begun last kept
    rw [cut] at split
    exact (split.unique (.extended begun last kept)).2
  · rw [fileName?_fit named, split.fitName_eq]
  · split_ifs with long
    · exact budget_of_long short long
    · exact budget_of_short short (Nat.not_lt.1 long) room
  · rw [fit_fit named, fitName_of_size_le (size_fitName_le _ (by simp)), fit_eq named]
  · rw [fileName?_fit named, fileName?_fit named] at same
    exact fitName_inj (String.ofList_injective (Option.some.inj same))

/-- Two bytes make a character here, so that a budget of 169 bytes cuts at 168. -/
theorem fit_within_limit_inside :
    let stem := List.replicate 100 'é'
    let extension := '.' :: List.replicate 63 'x'
    let p := (⟨"a//."⟩ : Path).join ⟨String.ofList (stem ++ extension)⟩
    (p.fileName? = some (String.ofList (stem ++ extension)) ∧
        ∀ n ∈ some (UInt64.size - 1), n < UInt64.size) ∧
      (fit p (some (UInt64.size - 1))).parent? = some ⟨"a"⟩ ∧
      (fit p (some (UInt64.size - 1))).fileName? = some (String.ofList
        (List.replicate 84 'é' ++ "_18446744073709551615".toList ++ extension)) := by
  intro stem extension p
  have isName : Path.IsName (String.ofList (stem ++ extension)) := by
    constructor <;> rw [String.toList_ofList] <;> decide
  have named : p.fileName? = some (String.ofList (stem ++ extension)) :=
    Path.fileName?_join ⟨"a//."⟩ isName
  have word : ∀ n ∈ some (UInt64.size - 1), n < UInt64.size := by decide
  obtain ⟨⟨stem', extension', kept, split, -, parent, last, -, -, bytes, -, found, -⟩, -⟩ :=
    fit_within_limit named word
  have parts : IsSplit (stem ++ extension) stem extension :=
    .extended (by decide) (by decide) (by decide)
  rw [String.toList_ofList] at split
  obtain ⟨rfl, rfl⟩ := split.unique parts
  have place : lastBoundary? (encode stem) (budget stem extension
      (suffix (some (UInt64.size - 1)))) = some 168 := by decide +kernel
  have same : encode kept = encode (List.replicate 84 'é') := by
    rw [bytes, Option.some.inj (found.symm.trans place)]
    decide +kernel
  have kept' : kept = List.replicate 84 'é' := by
    rw [← Text.Utf8.decode_encode kept, same, Text.Utf8.decode_encode]
  have folder : p.parent? = some ⟨"a"⟩ := by
    rw [Path.parent?_join _ isName]
    decide
  exact ⟨⟨named, word⟩, parent.trans folder, by rw [last, kept']; rfl⟩

end Emitter.FileName
