import Emitter.Proofs.Session.Fitting
import Emitter.Proofs.Session.Renaming

/-! Names fitted twice. A session fits the name of a request, and if that is taken it fits the
fitted name once more, with a number. A long name was cut to leave room for any number, so that the
second time nothing is cut (`fitName_of_room`); but the name is split anew. If a long extension made
all of the name its stem, the cut may leave a short one, and the number comes before it, not at the
end. That is the only difference between fitting twice and fitting once
(`fit_fit_iff_extension`). -/

namespace Emitter.FileName

open Text.Utf8 (size size_append)

section

variable {name stem extension : List Char} (split : IsSplit name stem extension)
include split

/-- Where a long name is cut does not depend on the number. -/
theorem fitName_of_long (long : maxBytes < size name) (number : Option Nat) :
    fitName name number =
      cut (maxBytes - size extension - reserve) stem ++ suffix number ++ extension := by
  have budget := @budget_of_long stem extension (suffix number) split.size_extension
    (by rwa [split.append_eq])
  rw [split.fitName_eq]
  congr 3
  omega

/-- Nothing is cut of a name with room for any number. -/
theorem fitName_of_room (room : size name + reserve ≤ maxBytes) {number : Option Nat}
    (word : ∀ n ∈ number, n < UInt64.size) :
    fitName name number = stem ++ suffix number ++ extension := by
  have most := size_suffix_le word
  have fits : size (stem ++ suffix number ++ extension) ≤ maxBytes := by
    rw [← split.append_eq, size_append] at room
    rw [size_append, size_append]
    omega
  rw [split.fitName_eq, (cut_eq_self_iff split.size_extension most).2 fits]

variable (long : maxBytes < size name)
include long

theorem size_fitName_of_long : size (fitName name none) + reserve ≤ maxBytes := by
  have kept := size_cut (maxBytes - size extension - reserve) stem
  have short := split.size_extension
  have room : maxExtensionBytes + reserve ≤ maxBytes := by decide
  rw [fitName_of_long split long, suffix, List.append_nil, size_append]
  omega

/-- An extension that is kept is the extension of the fitted name. -/
theorem isSplit_fitName (kept : extension ≠ []) :
    IsSplit (fitName name none) (cut (maxBytes - size extension - reserve) stem) extension := by
  have short := split.size_extension
  have room : maxExtensionBytes + reserve + 4 ≤ maxBytes := by decide
  have total : size name = size stem + size extension := by rw [← split.append_eq, size_append]
  have most : maxBytes - size extension - reserve <
      size (cut (maxBytes - size extension - reserve) stem) + 4 := lt_size_cut (by omega)
  rw [fitName_of_long split long, suffix, List.append_nil]
  cases split with
  | whole => exact absurd rfl kept
  | extended begun last =>
    refine .extended (fun nothing => ?_) last short
    have empty : size [] = 0 := rfl
    rw [nothing, empty] at most
    omega

end

/-- A number before an extension is not a number behind it. -/
theorem suffix_append_ne {name stem extension : List Char} (split : IsSplit name stem extension)
    (kept : extension ≠ []) (i : Nat) :
    stem ++ suffix (some i) ++ extension ≠ stem ++ extension ++ suffix (some i) := by
  rw [List.append_assoc, List.append_assoc]
  intro same
  have first := congrArg List.head? (List.append_cancel_left same)
  cases split with
  | whole => exact kept rfl
  | extended => simp [suffix] at first

section

variable {name whole old stem extension : List Char} (split : IsSplit name whole old)
  (long : maxBytes < size name) (again : IsSplit (fitName name none) stem extension)
include split long again

/-- Where fitting leaves the extension as it is, the number comes before it. -/
theorem fitName_of_same_extension (same : extension = old) (number : Option Nat) :
    fitName name number = stem ++ suffix number ++ extension := by
  have fitted := fitName_of_long split long none
  rw [← again.append_eq, suffix, List.append_nil, same] at fitted
  rw [fitName_of_long split long, List.append_cancel_right fitted, same]

/-- Where it does not, the name had none, and the number is at the end. -/
theorem fitName_of_new_extension (new : extension ≠ old) :
    old = [] ∧ ∀ number, fitName name number = stem ++ extension ++ suffix number := by
  have none : old = [] := by
    by_contra kept
    exact new (again.unique (isSplit_fitName split long kept)).2
  refine ⟨none, fun number => ?_⟩
  have fitted := fitName_of_long split long Option.none
  rw [← again.append_eq, none, suffix, List.append_nil, List.append_nil] at fitted
  rw [fitName_of_long split long, none, List.append_nil, fitted]

theorem fitName_fitName_eq_iff {i : Nat} (word : i < UInt64.size) :
    fitName (fitName name none) (some i) = fitName name (some i) ↔ extension = old := by
  have second : fitName (fitName name none) (some i) = stem ++ suffix (some i) ++ extension :=
    fitName_of_room again (size_fitName_of_long split long) (by simpa using word)
  rw [second]
  constructor
  · intro equal
    by_contra new
    obtain ⟨rfl, once⟩ := fitName_of_new_extension split long again new
    rw [once] at equal
    exact suffix_append_ne again new i equal
  · intro same
    rw [fitName_of_same_extension split long again same]

end

/-- A session that renames fits the fitted path once more, with a number. Of a long name that makes
the fitted name with the number between its stem and its extension, in the same folder and without
cutting anything more. It is what fitting once with the number makes exactly if the fitted name has
the extension that the name had. If not, the name had none, as all of it was stem, and fitting once
puts the number at the end. -/
theorem fit_fit_iff_extension {p : Path} {name : String} (named : p.fileName? = some name)
    (long : 254 < size name.toList) :
    ∃ whole old stem extension, IsSplit name.toList whole old ∧
      IsSplit (fitName name.toList none) stem extension ∧
      (fit p none).fileName? = some (String.ofList (stem ++ extension)) ∧
      (∀ i < UInt64.size,
        (fit (fit p none) (some i)).parent? = p.parent? ∧
        (fit (fit p none) (some i)).fileName? =
          some (String.ofList (stem ++ suffix (some i) ++ extension)) ∧
        (fit (fit p none) (some i) = fit p (some i) ↔ extension = old)) ∧
      (extension ≠ old → old = [] ∧ ∀ i, (fit p (some i)).fileName? =
        some (String.ofList (stem ++ extension ++ suffix (some i)))) ∧
      ∀ (s : Session) (request : String), Path.absolutize s.base (.ofPortable request) = p →
        ∀ q claimed, s.claim request = .ok (q, claimed) →
          q = fit p none ∨ ∃ i ≤ s.written.length, q = fit (fit p none) (some i) := by
  obtain ⟨whole, old, split⟩ : ∃ whole old, IsSplit name.toList whole old :=
    ⟨_, _, isSplit_splitName name.toList⟩
  obtain ⟨stem, extension, again⟩ : ∃ stem extension,
      IsSplit (fitName name.toList none) stem extension := ⟨_, _, isSplit_splitName _⟩
  have fitted := fileName?_fit named none
  refine ⟨whole, old, stem, extension, split, again, ?_, fun i word => ⟨?_, ?_, ?_⟩,
    fun new => ?_, ?_⟩
  · rw [fitted, again.append_eq]
  · rw [folder_fit fitted, folder_fit named]
  · rw [fileName?_fit fitted, String.toList_ofList,
      fitName_of_room again (size_fitName_of_long split long) (by simpa using word)]
  · rw [← fitName_fitName_eq_iff split long again word]
    constructor
    · intro same
      have names := congrArg Path.fileName? same
      rw [fileName?_fit fitted, fileName?_fit named, String.toList_ofList] at names
      exact String.ofList_injective (Option.some.inj names)
    · intro same
      rw [fit_fit named, fit_eq named, same]
  · obtain ⟨none, once⟩ := fitName_of_new_extension split long again new
    refine ⟨none, fun i => ?_⟩
    rw [fileName?_fit named, once]
  · rintro s request rfl q _ claimed
    exact Session.pick_cases (Session.claim_eq_ok.1 claimed).1

/-- Of 101 bytes from the dot on 33 are left, which are an extension then. -/
theorem fit_fit_iff_extension_left :
    let stem := List.replicate 200 'a'
    let name := String.ofList (stem ++ '.' :: List.replicate 100 'x')
    let p := (⟨"/"⟩ : Path).join ⟨name⟩
    (p.fileName? = some name ∧ 254 < size name.toList) ∧
      (fit (fit p none) (some 0)).fileName? =
        some (String.ofList (stem ++ ['_', '0'] ++ '.' :: List.replicate 32 'x')) ∧
      (fit p (some 0)).fileName? =
        some (String.ofList (stem ++ '.' :: List.replicate 32 'x' ++ ['_', '0'])) ∧
      fit (fit p none) (some 0) ≠ fit p (some 0) := by
  intro stem name p
  have isName : Path.IsName name := by
    constructor <;> rw [String.toList_ofList] <;> decide
  have named : p.fileName? = some name := Path.fileName?_join ⟨"/"⟩ isName
  have long : 254 < size name.toList := by
    rw [String.toList_ofList]
    decide +kernel
  obtain ⟨whole, old, stem', extension, split, again, -, fitted, new, -⟩ :=
    fit_fit_iff_extension named long
  obtain ⟨-, twice, same⟩ := fitted 0 (by decide)
  have none : old = [] := by
    have parts : (splitName name.toList).2 = [] := by
      rw [String.toList_ofList]
      decide +kernel
    rwa [split.splitName_eq] at parts
  obtain ⟨rfl, rfl⟩ : stem' = stem ∧ extension = '.' :: List.replicate 32 'x' := by
    have parts : splitName (fitName name.toList Option.none) =
        (stem, '.' :: List.replicate 32 'x') := by
      rw [String.toList_ofList]
      decide +kernel
    rw [again.splitName_eq] at parts
    exact Prod.mk.inj parts
  rw [none] at new same
  refine ⟨⟨named, long⟩, twice, (new (by decide)).2 0, fun equal => ?_⟩
  exact absurd (same.1 equal) (by decide)

end Emitter.FileName
