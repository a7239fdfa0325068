import Emitter.Proofs.Session.FileName
import Emitter.Proofs.Session.Run
import Mathlib.Data.List.Perm.Subperm
import Mathlib.Order.Nat

/-! The path that a session claims for a request. Where the name is taken, the numbers are tried one
after the other. As different numbers give different names, one of the first is free, of one more
than paths are written (`exists_firstFree`); so the search ends, and it ends there however much
longer it might go on (`freeNumber_eq`). -/

namespace Emitter

open Emitter.Path (ofNames)

/-! ## Names with numbers -/

namespace FileName

/-- A fitted name stands in the folder of the name that it is made from. -/
theorem parent?_fit {p : Path} (h : p.Normal) (number : Option Nat) :
    (fit p number).parent? = p.parent? := by
  rcases cases_of_normal h with rfl | ⟨names, name, all, here, rfl⟩
  · rfl
  · rw [fit_ofNames all here, Path.parent?_ofNames all (isName_fitName here number),
      Path.parent?_ofNames all here]

theorem fit_ne_root {p : Path} (h : p.Normal) (named : p.fileName? ≠ none) (number : Option Nat) :
    fit p number ≠ ofNames [] := by
  rcases cases_of_normal h with rfl | ⟨names, name, all, here, rfl⟩
  · exact absurd rfl named
  · intro root
    have valid := Path.isName_concat all (isName_fitName here number)
    rw [fit_ofNames all here] at root
    have nothing := (Path.ofNames_inj valid (List.forall_mem_nil _)).1 (by rw [root, Path.same_iff])
    exact List.append_ne_nil_of_right_ne_nil _ (List.cons_ne_nil _ _) nothing

end FileName

namespace Session

/-! ## The search for a number -/

/-- The number whose name is free, where those of all smaller ones are taken. -/
structure IsFirstFree (s : Session) (p : Path) (i : Nat) : Prop where
  free : s.isTaken (FileName.fit p (some i)) = false
  taken : ∀ k < i, s.isTaken (FileName.fit p (some k)) = true

variable {s : Session} {p : Path}

/-- A search that goes on far enough stops at the first free number. -/
theorem freeNumber_eq {i : Nat} (first : s.IsFirstFree p i) {fuel n : Nat} (start : n ≤ i)
    (enough : i ≤ n + fuel) : s.freeNumber p fuel n = i := by
  induction fuel generalizing n with
  | zero => exact Nat.le_antisymm start enough
  | succ fuel ih =>
    rw [freeNumber]
    rcases Nat.eq_or_lt_of_le start with rfl | later
    · rw [first.free, if_neg Bool.false_ne_true]
    · rw [first.taken n later, if_pos rfl]
      exact ih later (by omega)

theorem freeNumber_le (s : Session) (p : Path) (fuel n : Nat) :
    s.freeNumber p fuel n ≤ n + fuel := by
  induction fuel generalizing n with
  | zero => exact Nat.le_refl n
  | succ fuel ih =>
    rw [freeNumber]
    split
    · exact Nat.le_trans (ih (n + 1)) (by omega)
    · exact Nat.le_add_right ..

theorem isTaken_iff (written : ∀ q ∈ s.written, q.Normal) (h : p.Normal) :
    s.isTaken p = true ↔ p ∈ s.written := by
  rw [isTaken, List.any_eq_true]
  constructor
  · rintro ⟨q, mem, same⟩
    rwa [(h.same_iff (written q mem)).1 same]
  · intro mem
    exact ⟨p, mem, by rw [Path.same_iff]⟩

section

variable (written : ∀ q ∈ s.written, q.Normal) (h : p.Normal) (below : p ≠ ofNames [])
include written h below

/-- Of one more names than there are written paths, one is free. -/
theorem exists_free : ∃ i, i ≤ s.written.length ∧ s.isTaken (FileName.fit p (some i)) = false := by
  by_contra none
  push Not at none
  let names := (List.range (s.written.length + 1)).map fun k => FileName.fit p (some k)
  have differ : names.Nodup :=
    List.Pairwise.map _ (fun m n differ same => differ (FileName.fit_inj h below same))
      List.nodup_range
  have inside : names ⊆ s.written := by
    intro q mem
    obtain ⟨k, range, rfl⟩ := List.mem_map.1 mem
    have taken := none k (Nat.le_of_lt_succ (List.mem_range.1 range))
    exact (isTaken_iff written (FileName.normal_fit h _)).1 (by simpa using taken)
  have many := (differ.subperm inside).length_le
  rw [List.length_map, List.length_range] at many
  omega

theorem exists_firstFree : ∃ i ≤ s.written.length, s.IsFirstFree p i := by
  have free := exists_free written h below
  obtain ⟨bound, here⟩ := Nat.find_spec free
  refine ⟨Nat.find free, bound, here, fun k earlier => ?_⟩
  have taken := Nat.find_min free earlier
  rw [not_and, Bool.not_eq_false] at taken
  exact taken (by omega)

end

/-! ## Claims -/

theorem pick_cases {request : String} (h : s.pick request = .ok p) :
    p = s.requested request ∨
      ∃ n ≤ s.written.length, p = FileName.fit (s.requested request) (some n) := by
  unfold pick at h
  dsimp only at h
  split at h
  · exact .inl (Except.ok.inj h).symm
  split at h
  · have bound := s.freeNumber_le (s.requested request) s.written.length 0
    rw [Nat.zero_add] at bound
    exact .inr ⟨_, bound, (Except.ok.inj h).symm⟩
  · cases h

theorem pick_free {request : String} (free : s.isTaken (s.requested request) = false) :
    s.pick request = .ok (s.requested request) := by
  rw [pick]
  simp [free]

/-- A taken name gets the first free number. -/
theorem pick_taken (renames : s.options.autoRenameConflictingFiles = true) {request : String}
    (taken : s.isTaken (s.requested request) = true) {i : Nat}
    (first : s.IsFirstFree (s.requested request) i) (bound : i ≤ s.written.length) :
    s.pick request = .ok (FileName.fit (s.requested request) (some i)) := by
  rw [pick]
  simp only [taken, renames]
  rw [freeNumber_eq first (Nat.zero_le i) (by omega)]
  rfl

theorem normal_requested (base : s.base.Normal) (request : String) :
    (s.requested request).Normal :=
  FileName.normal_fit (Path.normal_absolutize base.isAbsolute _) none

theorem normal_pick (base : s.base.Normal) {request : String} (h : s.pick request = .ok p) :
    p.Normal := by
  rcases pick_cases h with same | ⟨n, -, same⟩
  · rw [same]
    exact normal_requested base request
  · rw [same]
    exact FileName.normal_fit (normal_requested base request) (some n)

end Session

namespace Site

/-- What is written after a step was written before, or has been picked for a request. -/
theorem Step.session_cases {others : Site → Disk → Prop} {s t : Site} (h : Step others s t) :
    t.session.options = s.session.options ∧ t.session.base = s.session.base ∧
      ∀ q ∈ t.session.written,
        q ∈ s.session.written ∨ ∃ request, s.session.pick request = .ok q := by
  have kept {session : Session} (same : session = s.session) :
      session.options = s.session.options ∧ session.base = s.session.base ∧
        ∀ q ∈ session.written,
          q ∈ s.session.written ∨ ∃ request, s.session.pick request = .ok q := by
    rw [same]
    exact ⟨rfl, rfl, fun q mem => .inl mem⟩
  have recorded {request : String} {p : Path} (picked : s.session.pick request = .ok p) :
      ∀ q ∈ (s.session.record p).written,
        q ∈ s.session.written ∨ ∃ request, s.session.pick request = .ok q :=
    fun q mem => (Session.mem_written_record mem).imp_right fun same => ⟨request, by rwa [same]⟩
  cases h with
  | served h =>
    obtain ⟨_, _, -, picked, -, rfl⟩ := Session.serve_ok h
    exact ⟨Session.options_record .., Session.base_record .., recorded picked⟩
  | refused h =>
    obtain ⟨same, -⟩ | ⟨_, _, -, picked, -, rfl⟩ := Session.serve_error h
    · exact kept same
    · exact ⟨Session.options_record .., Session.base_record ..,
        fun q mem => recorded picked q (Session.mem_written_release mem)⟩
  | used => exact kept rfl
  | dropped => exact kept rfl
  | waited => exact kept rfl

/-- Whatever the factories do, the paths of a session are normal. -/
theorem normal_of_run {others : Site → Disk → Prop} {options : SessionOptions}
    {registry : Registry} {d₀ : Disk} {s : Site} (working : d₀.working.isAbsolute = true)
    (run : Run others (start options registry d₀) s) :
    s.session.options = options ∧ s.session.base.Normal ∧ ∀ p ∈ s.session.written, p.Normal := by
  induction run with
  | refl => exact ⟨rfl, Path.normal_absolutize working options.baseOutputDirectory, nofun⟩
  | tail _ step ih =>
    obtain ⟨same, base, normal⟩ := ih
    obtain ⟨options, base', written⟩ := step.session_cases
    refine ⟨options.trans same, base' ▸ base, fun q mem => ?_⟩
    rcases written q mem with old | ⟨request, picked⟩
    · exact normal q old
    · exact Session.normal_pick base picked

end Site

namespace Session

/-- A session that renames finds a path for each request that names a file, in the folder that the
request asks for and other than all that are written, and records it behind them. If the fitted path
is free, that is the one. If not, it gets the first number whose name is free, which is at most the
number of written paths, and at which the search ends however far it is let go on. -/
theorem claim_renamed {others : Site → Disk → Prop} {options : SessionOptions}
    {registry : Registry} {d₀ : Disk} {s : Site} (working : d₀.working.isAbsolute = true)
    (renames : options.autoRenameConflictingFiles = true)
    (run : Site.Run others (.start options registry d₀) s) {request : String}
    (named : (Path.absolutize s.session.base (.ofPortable request)).fileName? ≠ none) :
    let written := s.session.written
    let p := s.session.requested request
    ∃ q, s.session.claim request = .ok (q, { s.session with written := written ++ [q] }) ∧
      q.parent? = (Path.absolutize s.session.base (.ofPortable request)).parent? ∧
      (∀ w ∈ written, q.same w = false) ∧
      (p ∉ written → q = p) ∧
      (p ∈ written → ∃ i ≤ written.length, q = FileName.fit p (some i) ∧
        (∀ k < i, FileName.fit p (some k) ∈ written) ∧
        ∀ fuel, i ≤ fuel → s.session.freeNumber p fuel 0 = i) := by
  intro written p
  obtain ⟨rfl, base, normal⟩ := Site.normal_of_run working run
  have resolved := Path.normal_absolutize base.isAbsolute (.ofPortable request)
  have requested : p.Normal := normal_requested base request
  have folder (number : Option Nat) : (FileName.fit p number).parent? =
      (Path.absolutize s.session.base (.ofPortable request)).parent? := by
    rw [FileName.parent?_fit requested]
    exact FileName.parent?_fit resolved none
  have other {q : Path} (free : s.session.isTaken q = false) : ∀ w ∈ written, q.same w = false :=
    fun w mem => by simpa using List.any_eq_false.1 free w mem
  have taken_iff {q : Path} (hq : q.Normal) := isTaken_iff (s := s.session) normal hq
  rcases taken : s.session.isTaken p with _ | _
  · have free : p ∉ written := fun mem => by
      rw [(taken_iff requested).2 mem] at taken
      cases taken
    exact ⟨p, claim_eq_ok.2 ⟨pick_free taken, (record_free taken).symm⟩,
      FileName.parent?_fit resolved none, other taken, fun _ => rfl, fun mem => absurd mem free⟩
  · have below : p ≠ ofNames [] := FileName.fit_ne_root resolved named none
    obtain ⟨i, bound, first⟩ := exists_firstFree normal requested below
    have picked := pick_taken renames taken first bound
    refine ⟨_, claim_eq_ok.2 ⟨picked, (record_free first.free).symm⟩, folder (some i),
      other first.free, fun free => absurd ((taken_iff requested).1 taken) free,
      fun _ => ⟨i, bound, rfl, ?_, ?_⟩⟩
    · intro k earlier
      exact (taken_iff (FileName.normal_fit requested _)).1 (first.taken k earlier)
    · intro fuel enough
      exact freeNumber_eq first (Nat.zero_le i) (by omega)

/-- The name with the first number was asked for by itself before. -/
theorem claim_renamed_explicit :
    let options : SessionOptions := { autoRenameConflictingFiles := true }
    let first : Writer := {
      dialect := .text "" none, output := ⟨⟨"/a"⟩, some 0⟩, directory := ⟨"/"⟩, settings := {}
      draft := { unit := .spaces 4 }, finished := false }
    let second : Writer := {
      dialect := .text "" none, output := ⟨⟨"/a_0"⟩, some 1⟩, directory := ⟨"/"⟩, settings := {}
      draft := { unit := .spaces 4 }, finished := false }
    let s₀ : Site := .start options .builtins (.empty ⟨"/"⟩)
    let s : Site := ⟨{ s₀.session with written := [⟨"/a"⟩, ⟨"/a_0"⟩] },
      [{ writer := first }, { writer := second }],
      ⟨⟨"/"⟩, [(["a"], .file 0), (["a_0"], .file 1)], [[], []], [1, 0]⟩⟩
    ((Disk.empty ⟨"/"⟩).working.isAbsolute = true ∧ options.autoRenameConflictingFiles = true ∧
        Site.Run (fun _ _ => False) s₀ s ∧
        (Path.absolutize s.session.base (.ofPortable "b\\../a")).fileName? ≠ none) ∧
      s.session.requested "b\\../a" = ⟨"/a"⟩ ∧
      s.session.claim "b\\../a" =
        .ok (⟨"/a_1"⟩, { s.session with written := [⟨"/a"⟩, ⟨"/a_0"⟩, ⟨"/a_1"⟩] }) := by
  intro options first second s₀ s
  let s₁ : Site := ⟨{ s₀.session with written := [⟨"/a"⟩] }, [{ writer := first }],
    ⟨⟨"/"⟩, [(["a"], .file 0)], [[]], [0]⟩⟩
  have made : Writer.create ⟨"/a"⟩ {} (.text "" none) (.empty ⟨"/"⟩) = (.ok first, s₁.disk) := rfl
  have made' : Writer.create ⟨"/a_0"⟩ {} (.text "" none)
      ⟨⟨"/"⟩, [(["a"], .file 0)], [[]], [0]⟩ = (.ok second, s.disk) := rfl
  have picked : s₀.session.pick "a" = .ok ⟨"/a"⟩ := by
    have path : s₀.session.requested "a" = ⟨"/a"⟩ := by decide
    rw [pick_free (by decide), path]
  have picked' : s₁.session.pick "a_0" = .ok ⟨"/a_0"⟩ := by
    have path : s₁.session.requested "a_0" = ⟨"/a_0"⟩ := by decide
    rw [pick_free (by decide), path]
  have served : s₀.session.serve s₀.disk (.ofDialect "a" (.text "" none)) =
      (.ok first, s₁.session, s₁.disk) := serve_picked rfl picked (by decide) made
  have served' : s₁.session.serve s₁.disk (.ofDialect "a_0" (.text "" none)) =
      (.ok second, s.session, s.disk) := serve_picked rfl picked' (by decide) made'
  have run : Site.Run (fun _ _ => False) s₀ s :=
    .tail (.single (.served served)) (.served served')
  have named : (Path.absolutize s.session.base (.ofPortable "b\\../a")).fileName? ≠ none := by
    decide
  have requested : s.session.requested "b\\../a" = ⟨"/a"⟩ := by decide
  have mem : s.session.requested "b\\../a" ∈ s.session.written := by decide
  obtain ⟨q, claimed, -, differs, -, renamed⟩ := claim_renamed rfl rfl run named
  obtain ⟨i, -, same, taken, -⟩ := renamed mem
  have number : i = 1 := by
    have next : FileName.fit (s.session.requested "b\\../a") (some 1) ∉ s.session.written := by
      decide
    have low : i ≠ 0 := by
      intro zero
      rw [zero] at same
      have explicit : q.same ⟨"/a_0"⟩ = true := by rw [same]; decide
      exact absurd (differs ⟨"/a_0"⟩ (by decide)) (by simp [explicit])
    by_contra other
    exact next (taken 1 (by omega))
  have path : FileName.fit (s.session.requested "b\\../a") (some 1) = ⟨"/a_1"⟩ := by decide
  rw [number, path] at same
  rw [same] at claimed
  exact ⟨⟨rfl, rfl, run, named⟩, requested, claimed⟩

end Session

end Emitter
