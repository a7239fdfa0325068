import Emitter.Proofs.Scope.Invariant
import Mathlib.Data.List.TakeWhile

/-! A body that fails leaves no trace in the scopes. The frame of the scope around the body stays
where it is until the scope is left, as the body never holds its token; leaving then drops what the
body left open and goes back to the state that the frame has recorded. -/

namespace Emitter

namespace Writer.Operation

/-- What a body inside the scope of a token can do. The token is not handed to the body, nor to a hook
that runs in it, and the closure forms in it end scopes that are opened later. -/
def Spares (token : Token) : Operation → Prop
  | .close other => other.id ≠ token.id
  | .leave inner _ => token.id < inner.id
  | _ => True

end Writer.Operation

namespace Nesting

variable {scopes outer : List Frame} {frame : Frame}

/-- Closing another number takes off nothing but what stands inside a scope. -/
theorem suffix_closed (inside : frame :: outer <:+ scopes) {id : Nat}
    (other : id ≠ frame.token.id) : frame :: outer <:+ closed id scopes := by
  obtain ⟨inner, rfl⟩ := inside
  cases inner with
  | nil =>
    have kept : closed id (frame :: outer) = frame :: outer := if_neg other.symm
    exact kept.symm ▸ List.suffix_refl (frame :: outer)
  | cons first inner =>
    rw [List.cons_append, closed]
    split
    · exact List.suffix_append _ _
    · exact List.suffix_append (first :: inner) _

section Ordered

variable (ordered : (scopes.map (·.token.id)).Pairwise (· > ·))
include ordered

theorem lt_of_inside {inner : List Frame} (split : scopes = inner ++ frame :: outer) :
    ∀ f ∈ inner, frame.token.id < f.token.id := by
  intro f mem
  rw [split, List.map_append, List.pairwise_append] at ordered
  exact ordered.2.2 _ (List.mem_map_of_mem mem) _ (List.mem_map_of_mem List.mem_cons_self)

theorem le_of_outside (inside : frame :: outer <:+ scopes) :
    ∀ f ∈ frame :: outer, f.token.id ≤ frame.token.id := by
  intro f mem
  have ordered' := ordered.sublist (inside.sublist.map _)
  rw [List.map_cons, List.pairwise_cons] at ordered'
  rcases List.mem_cons.1 mem with rfl | mem
  · exact Nat.le_refl _
  · exact Nat.le_of_lt (ordered'.1 _ (List.mem_map_of_mem mem))

/-- A later number is found inside a scope, if at all, and the dropping stops there. -/
theorem suffix_unwound (inside : frame :: outer <:+ scopes) {id : Nat}
    (later : frame.token.id < id) : frame :: outer <:+ unwound id scopes := by
  have outside := le_of_outside ordered inside
  obtain ⟨inner, rfl⟩ := inside
  unfold unwound
  split
  · next found =>
    rw [List.dropWhile_append]
    split
    · next missing =>
      obtain ⟨f, mem, same⟩ := List.any_eq_true.1 found
      have same : f.token.id = id := by simpa using same
      rcases List.mem_append.1 mem with mem | mem
      · have dropped := List.dropWhile_eq_nil_iff.1 (List.isEmpty_iff.1 missing) f mem
        simp [same] at dropped
      · have := outside f mem
        omega
    · exact List.suffix_append _ _
  · exact List.suffix_append _ _

/-- Dropping what stands inside a scope brings it back to the innermost place. -/
theorem unwound_eq (inside : frame :: outer <:+ scopes) :
    unwound frame.token.id scopes = frame :: outer := by
  obtain ⟨inner, rfl⟩ := inside
  have later := lt_of_inside ordered rfl
  have found : (inner ++ frame :: outer).any (·.token.id == frame.token.id) = true := by
    simp
  rw [unwound, if_pos found, List.dropWhile_append_of_pos, List.dropWhile_cons_of_neg]
  · simp
  · intro f mem
    have := later f mem
    simp only [bne_iff_ne]
    omega

end Ordered

end Nesting

namespace Writer

open Nesting

/-- What a body can do keeps the scope around it, and all outside it. -/
theorem suffix_remaining {scopes outer : List Frame} {frame : Frame}
    (ordered : (scopes.map (·.token.id)).Pairwise (· > ·)) (inside : frame :: outer <:+ scopes)
    {call : Call} (spares : (Operation.call call).Spares frame.token) :
    frame :: outer <:+ remaining call scopes := by
  cases call with
  | close token => exact suffix_closed inside spares
  | leave token result =>
    have later : frame.token.id < token.id := spares
    cases result with
    | ok => exact suffix_closed inside (by omega)
    | error e => exact suffix_closed (suffix_unwound ordered inside later) (by omega)
  | _ => exact inside

theorem suffix_call {w : Writer} {frame : Frame} {outer : List Frame}
    (sound : w.draft.nesting.Sound) (inside : frame :: outer <:+ w.draft.scopes) {call : Call}
    (spares : (Operation.call call).Spares frame.token) :
    frame :: outer <:+ (w.call call).2.draft.scopes := by
  rcases nesting_call sound call with ⟨entered, enters⟩ | kept
  · have scopes : (w.call call).2.draft.scopes = entered :: w.draft.scopes := enters.scopes
    rw [scopes]
    exact inside.trans (List.suffix_cons _ _)
  · have scopes : (w.call call).2.draft.scopes = remaining call w.draft.scopes :=
      congrArg Nesting.scopes kept
    rw [scopes]
    exact suffix_remaining sound.ordered inside spares

/-- Through a whole body, with failing steps in it, the scope around it stays open. -/
theorem suffix_of_run {others : Disk → Disk → Prop} {frame : Frame} {outer : List Frame}
    {s t : Writer × Disk} (run : Run (Operation.Spares frame.token) others s t)
    (sound : s.1.draft.nesting.Sound) (inside : frame :: outer <:+ s.1.draft.scopes) :
    t.1.draft.nesting.Sound ∧ frame :: outer <:+ t.1.draft.scopes := by
  let Inside (draft : Draft) : Prop := draft.nesting.Sound ∧ frame :: outer <:+ draft.scopes
  refine run.keeps (fun w _ => Inside w.draft) ?_ (fun _ _ _ _ kept => kept) ⟨sound, inside⟩
  intro w d operation spares kept
  exact draft_perform (Operation.Spares frame.token) Inside (fun _ _ kept => kept)
    (fun w call spares kept => ⟨sound_call kept.1 call, suffix_call kept.1 kept.2 spares⟩) spares d
    kept

/-- Leaving a scope after a failed body goes back to what was open around it. -/
theorem nesting_leave_error {w : Writer} {frame : Frame} {outer : List Frame}
    (sound : w.draft.nesting.Sound) (inside : frame :: outer <:+ w.draft.scopes) (e : Error) :
    (w.leave frame.token (.error e)).2.draft.nesting = ofScopes outer w.draft.nextId := by
  have dropped : unwound frame.token.id w.draft.scopes = frame :: outer :=
    unwound_eq sound.ordered inside
  rw [nesting_leave sound, left, dropped, closed, if_pos rfl]

/-- The scopes of a sound nesting say the level and the prefix. -/
theorem restored_of_nesting {w w' : Writer} (sound : w.draft.nesting.Sound) {nextId : Nat}
    (h : w'.draft.nesting = ofScopes w.draft.scopes nextId) :
    w'.draft.scopes = w.draft.scopes ∧ w'.draft.level = w.draft.level ∧
      w'.draft.linePrefix = w.draft.linePrefix := by
  have before : w.draft.nesting = ofScopes w.draft.scopes w.draft.nextId := sound.eq_ofScopes
  refine ⟨congrArg Nesting.scopes h, ?_, ?_⟩
  · exact (congrArg Nesting.level h).trans (congrArg Nesting.level before).symm
  · exact (congrArg Nesting.linePrefix h).trans (congrArg Nesting.linePrefix before).symm

/-- The level and the prefix come back with the scopes. -/
theorem restored_after_failure {w w₁ : Writer} {d : Disk} {s : Writer × Disk} {opening : Opening}
    {token : Token} {others : Disk → Disk → Prop} (sound : w.draft.nesting.Sound)
    (opened : w.opened opening = .ok (token, w₁))
    (body : Run (Operation.Spares token) others (w₁, d) s) (e : Error) :
    (s.1.leave token (.error e)).2.draft.scopes = w.draft.scopes ∧
      (s.1.leave token (.error e)).2.draft.level = w.draft.level ∧
      (s.1.leave token (.error e)).2.draft.linePrefix = w.draft.linePrefix := by
  obtain ⟨-, frame, draft, rfl, rfl, enters⟩ := opened_eq_ok opened
  have scopes : draft.scopes = frame :: w.draft.scopes := enters.scopes
  have inside : frame :: w.draft.scopes <:+ draft.scopes := scopes ▸ List.suffix_refl _
  obtain ⟨sound', inside'⟩ := suffix_of_run body (sound.enters enters) inside
  exact restored_of_nesting sound (nesting_leave_error sound' inside' e)

/-- A closure form whose body fails gives the error of the body, and the scopes, the level and the
prefix are those from before it. -/
theorem leave_failed {w w₁ : Writer} {d : Disk} {s : Writer × Disk} {opening : Opening}
    {token : Token} {others : Disk → Disk → Prop} (reachable : w.Reachable)
    (opened : w.opened opening = .ok (token, w₁))
    (body : Run (Operation.Spares token) others (w₁, d) s) (e : Error) :
    (s.1.leave token (.error e)).1 = .error e ∧
      (s.1.leave token (.error e)).2.draft.scopes = w.draft.scopes ∧
      (s.1.leave token (.error e)).2.draft.level = w.draft.level ∧
      (s.1.leave token (.error e)).2.draft.linePrefix = w.draft.linePrefix :=
  ⟨rfl, restored_after_failure (sound_of_reachable reachable) opened body e⟩

/-- The body stops in the middle of a line, leaks two scopes, ends one of its own late, and tries to
close the scopes around it and to finish. -/
theorem leave_failed_leaks :
    let start : Writer := {
      dialect := .cpp {}, output := ⟨⟨"a"⟩, some 0⟩, directory := ⟨"/"⟩, settings := {}
      draft := { unit := .spaces 4 }, finished := false }
    let d : Disk := ⟨⟨"/"⟩, [(["a"], .file 0)], [[]], [0]⟩
    let w := (performAll (start, d) [.open_ .block, .open_ (.linePrefix "> ")]).1
    let w₁ := (performAll (w, d) [.open_ (.disabled none)]).1
    let first := performAll (w₁, d) [
      .edit (.write "x"), .open_ .block, .close ⟨1, .linePrefix⟩, .open_ (.linePrefix "* "),
      .leave ⟨3, .indent⟩ (.error .writeAfterFinish), .open_ (.indent none none)]
    let s := performAll (first.1.perform first.2 .finish).2 [
      .open_ (.linePrefix ""), .close ⟨0, .indent⟩, .edit (.write "y")]
    (w.Reachable ∧ w.opened (.disabled none) = .ok (⟨2, .leftAdjusted⟩, w₁) ∧
      Run (Operation.Spares ⟨2, .leftAdjusted⟩) (fun _ _ => False) (w₁, d) s) ∧
      s.1.draft.scopes.length = 5 ∧ s.1.draft.level = 2 ∧
      (s.1.leave ⟨2, .leftAdjusted⟩ (.error .writeAfterFinish)).1 = .error .writeAfterFinish ∧
      (s.1.leave ⟨2, .leftAdjusted⟩ (.error .writeAfterFinish)).2.draft.scopes =
        [.linePrefix 1 "> " none, .indent 0 1 (some "\x7d")] := by
  intro start d w w₁ first s
  have created : create ⟨"a"⟩ {} (.cpp {}) (.empty ⟨"/"⟩) = (.ok start, d) := rfl
  have reachable : w.Reachable :=
    ⟨_, _, _, _, start, _, d, created, run_performAll (fun _ _ _ _ _ => trivial) (.refl _)⟩
  have opened : w.opened (.disabled none) = .ok (⟨2, .leftAdjusted⟩, w₁) := rfl
  have run₁ : Run (Operation.Spares ⟨2, .leftAdjusted⟩) (fun _ _ => False) (w₁, d) first :=
    run_performAll (by simp [made, Operation.Spares]) (.refl (w₁, d))
  have idle : first.1.hookCalls = [] := List.isEmpty_iff.1 (by decide +kernel)
  have run₂ := run₁.next .finish (by simp [made, idle, Operation.Spares])
  have run : Run (Operation.Spares ⟨2, .leftAdjusted⟩) (fun _ _ => False) (w₁, d) s :=
    run_performAll (by simp [made, Operation.Spares]) run₂
  have failed := leave_failed reachable opened run .writeAfterFinish
  have outside : w.draft.scopes = [.linePrefix 1 "> " none, .indent 0 1 (some "\x7d")] := by decide
  have leaked : s.1.draft.scopes.length = 5 := by decide
  have level : s.1.draft.level = 2 := by decide
  have restored := failed.2.1.trans outside
  exact ⟨⟨reachable, opened, run⟩, leaked, level, failed.1, restored⟩

end Writer

end Emitter
