import Emitter.Proofs.Writer.Finishing

/-! The nesting of a writer is sound in every state that a run can reach, as each call keeps it sound
and nothing but calls changes it. -/

namespace Emitter.Writer

open Nesting

theorem sound_call {w : Writer} (sound : w.draft.nesting.Sound) (call : Call) :
    (w.call call).2.draft.nesting.Sound := by
  rcases nesting_call sound call with ⟨frame, enters⟩ | kept
  · exact sound.enters enters
  · rw [kept]
    exact sound.ofScopes_of_suffix (remaining_suffix _ _)

theorem sound_perform {w : Writer} (sound : w.draft.nesting.Sound) (d : Disk)
    (operation : Operation) : (w.perform d operation).2.1.draft.nesting.Sound :=
  draft_perform (fun _ => True) (fun draft => draft.nesting.Sound)
    (fun _ _ sound => sound) (fun _ call _ sound => sound_call sound call) (fun _ _ => trivial) d
    sound

theorem sound_prepared {w : Writer} (sound : w.draft.nesting.Sound) :
    w.prepared.draft.nesting.Sound :=
  prepared_keeps (fun _ => True) (fun w => w.draft.nesting.Sound)
    (fun _ call _ sound => sound_call sound call) (fun _ _ sound => sound) (fun _ _ => trivial) sound

theorem sound_create {path : Path} {settings : Settings} {dialect : Dialect} {d d' : Disk}
    {w : Writer} (h : create path settings dialect d = (.ok w, d')) : w.draft.nesting.Sound := by
  obtain ⟨-, draft, -⟩ := new_of_create (congrArg Prod.fst h)
  rw [draft]
  exact sound_start

theorem sound_of_reachable {w : Writer} (h : w.Reachable) : w.draft.nesting.Sound := by
  refine h.keeps (fun w => w.draft.nesting.Sound) ?_ ?_
  · intro path settings dialect d w d' created
    exact sound_create created
  · intro w d operation sound
    exact sound_perform sound d operation

/-- Where the scopes are sound, the level says nothing that they do not say. -/
theorem closed_iff {w : Writer} (sound : w.draft.nesting.Sound) :
    w.Closed ↔ w.draft.scopes = [] := by
  have level : w.draft.level = indents w.draft.scopes := sound.level
  refine ⟨And.right, fun none => ⟨?_, none⟩⟩
  rw [level, none]
  rfl

/-- The scopes are counted, the level is not, when a file cannot be finished because of them. -/
theorem depth_of_unclosed {w : Writer} (sound : w.draft.nesting.Sound) {d : Disk} {path : Path}
    {depth : Nat} (own : w.beforeFinish.1 ≠ .error (.unclosedScopes path depth))
    (h : (w.finish d).1 = .error (.unclosedScopes path depth)) :
    depth = (w.finish d).2.1.draft.scopes.length := by
  have level : w.prepared.draft.level = indents w.prepared.draft.scopes :=
    (sound_prepared sound).level
  have counted : indents w.prepared.draft.scopes ≤ w.prepared.draft.scopes.length :=
    List.countP_le_length
  have ends := w.finish_ends d none
  generalize w.finish d = result at ends h
  cases ends with
  | finished => cases h
  | refused _ refuses => exact absurd (refuses.trans h) own
  | unclosed =>
    cases h
    show max w.prepared.draft.scopes.length w.prepared.draft.level =
      w.prepared.draft.scopes.length
    omega
  | gone => cases h
  | written => cases h

/-- In every reachable state, and also between the dropping of inner scopes and the closing of the
scope around them, the level and the prefix are what the open scopes say. A file that cannot be
finished because of open scopes is reported with their number, unless its hook makes a report of that
kind itself. -/
theorem nesting_of_reachable {w : Writer} (h : w.Reachable) :
    w.draft.Consistent ∧ (∀ token, (w.draft.unwindTo token).Consistent) ∧
      (∀ frame outer token fault, w.draft.scopes = frame :: outer → frame.token.id = token.id →
        (w.close token).1 ≠ .error (.scopeMismatch fault)) ∧
      ∀ d path depth, w.beforeFinish.1 ≠ .error (.unclosedScopes path depth) →
        (w.finish d).1 = .error (.unclosedScopes path depth) →
        depth = (w.finish d).2.1.draft.scopes.length := by
  have sound := sound_of_reachable h
  refine ⟨Draft.consistent_of_sound sound, fun token => ?_, ?_,
    fun _ _ _ => depth_of_unclosed sound⟩
  · apply Draft.consistent_of_sound
    rw [Draft.nesting_unwindTo sound token]
    exact sound.ofScopes_of_suffix (unwound_suffix _ _)
  · intro frame outer token fault innermost same
    exact close_ne_mismatch (Draft.closable_innermost sound innermost same) fault

theorem nesting_of_reachable_leak :
    let w : Writer := {
      dialect := .hooked .leave, output := ⟨⟨"a"⟩, some 0⟩, directory := ⟨"/"⟩, settings := {}
      draft := { unit := .spaces 4 }, finished := false }
    let d : Disk := ⟨⟨"/"⟩, [(["a"], .file 0)], [[]], [0]⟩
    let s := performAll (w, d) [
      .open_ (.indent (some "x") none), .close ⟨4, .indent⟩, .open_ (.linePrefix "> "),
      .leave ⟨1, .linePrefix⟩ (.error .writeAfterFinish), .open_ (.left "a" "b")]
    s.1.Reachable ∧ s.1.draft.scopes = [.leftAdjusted 2 1 "b", .indent 0 1 none] ∧
      (s.1.finish s.2).1 = .error (.unclosedScopes ⟨"a"⟩ 3) ∧
      (s.1.finish s.2).2.1.draft.scopes.length = 3 := by
  intro w d s
  have created : create ⟨"a"⟩ {} (.hooked .leave) (.empty ⟨"/"⟩) = (.ok w, d) := rfl
  have reachable : s.1.Reachable :=
    ⟨_, _, _, _, w, _, s.2, created, run_performAll (fun _ _ _ _ _ => trivial) (.refl _)⟩
  have open_ : s.1.draft.scopes = [.leftAdjusted 2 1 "b", .indent 0 1 none] := by decide
  have accepts : s.1.beforeFinish.1 = .ok () := rfl
  have unclosed : (s.1.finish s.2).1 = .error (.unclosedScopes ⟨"a"⟩ 3) := by
    have depth : s.1.prepared.draft.depth = 3 := by decide
    have path : s.1.path = ⟨"a"⟩ := by decide
    have left : s.1.prepared.draft.scopes ≠ [] := by decide
    rw [finish_unclosed (by decide) accepts fun closed => left closed.2, depth, path]
  have counted := (nesting_of_reachable reachable).2.2.2 s.2 _ _ (by rw [accepts]; nofun) unclosed
  exact ⟨reachable, open_, unclosed, counted.symm⟩

end Emitter.Writer
