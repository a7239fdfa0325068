import Emitter.Proofs.Disk.Reservation
import Emitter.Proofs.Scope.Cleanup
import Emitter.Proofs.Scope.Tokens
import Emitter.Proofs.Writer.Lifecycle

/-! A body that succeeds, and has closed all that it opened, leaves no trace in the scopes either,
also where the last line of the scope cannot be written. One that leaves a scope open does: leaving
is refused with the token used up, and as nobody can close the scope any more the file is lost. -/

namespace Emitter

/-- The call touches no scope. -/
def Writer.Call.AddsText : Writer.Call → Prop
  | .edit _ => True
  | .noSeparation => True
  | _ => False

/-- The hook never refuses to finish, and touches no scope. -/
def Dialect.Finishes (dialect : Dialect) : Prop :=
  (∀ view, (dialect.hook.deeds view).result = .ok ()) ∧ dialect.CallsOnly Writer.Call.AddsText

/-- The hook closes no scope, also none that it opens itself. -/
def Dialect.TokenFree (dialect : Dialect) : Prop := dialect.CallsOnly (·.token? = none)

theorem Dialect.finishes_of_idle {dialect : Dialect} (idle : dialect.hook = .idle) :
    dialect.Finishes := by
  rw [Finishes, CallsOnly, idle]
  exact ⟨fun _ => rfl, fun _ => nofun⟩

theorem Dialect.Finishes.tokenFree {dialect : Dialect} (finishes : dialect.Finishes) :
    dialect.TokenFree := by
  intro view call mem
  have addsText := finishes.2 view call mem
  cases call with
  | edit | noSeparation => rfl
  | _ => exact addsText.elim

namespace Writer

open Nesting

/-! ## What can be finished -/

theorem unfinished_create {path : Path} {settings : Settings} {dialect : Dialect} {d d' : Disk}
    {w : Writer} (h : create path settings dialect d = (.ok w, d')) : w.finished = false :=
  (new_of_create (congrArg Prod.fst h)).2.2

/-- Opening needs an unfinished writer, so a finished one has the scopes that it had, or fewer. -/
theorem scopes_call_finished {w : Writer} (sound : w.draft.nesting.Sound)
    (finished : w.finished = true) (call : Call) :
    (w.call call).2.draft.scopes <:+ w.draft.scopes := by
  cases call with
  | edit edit =>
    have same : (w.call (.edit edit)).2 = w := by rw [Writer.call, edited_finished finished]
    exact same.symm ▸ List.suffix_refl w.draft.scopes
  | noSeparation => exact List.suffix_refl _
  | open_ opening =>
    have same : (w.call (.open_ opening)).2 = w := by rw [Writer.call, opened_finished finished]
    exact same.symm ▸ List.suffix_refl w.draft.scopes
  | close token =>
    have left : (w.close token).2.draft.scopes = closed token.id w.draft.scopes :=
      congrArg Nesting.scopes (nesting_close sound token)
    exact left ▸ closed_suffix _ _
  | leave token result =>
    have left : (w.leave token result).2.draft.scopes = left token.id result w.draft.scopes :=
      congrArg Nesting.scopes (nesting_leave sound token result)
    exact left ▸ left_suffix _ _ _

/-- Finishing is what ends the unfinished state, and it asks for closed scopes. -/
theorem finished_perform {w : Writer} (unfinished : w.finished = false) {d : Disk}
    {operation : Operation} (finished : (w.perform d operation).2.1.finished = true) :
    (w.perform d operation).2.1.draft.scopes = [] := by
  obtain ⟨draft, state, frame⟩ := prepared_frame w
  have still : ∀ w' : Writer, w'.finished = w.finished → w'.finished = true →
      w'.draft.scopes = [] :=
    fun w' same finished => absurd (unfinished.symm.trans (same.symm.trans finished)) nofun
  rcases perform_frame w d operation with ⟨broken, rfl⟩ | ⟨draft', dialect', performed⟩
  · rw [perform] at finished ⊢
    have ends := w.finish_ends d broken
    generalize w.finish d broken = result at ends finished
    cases ends with
    | finished => exact still _ rfl finished
    | refused | unclosed => exact still _ (by rw [frame]) finished
    | gone _ _ closed | written _ _ closed | brokenOff _ _ closed => exact closed.2
  · rw [performed] at finished ⊢
    exact still _ rfl finished

/-- A finished writer has no open scope. -/
theorem closed_of_finished {w : Writer} (h : w.Reachable) (finished : w.finished = true) :
    w.draft.scopes = [] := by
  have kept := h.keeps
    (fun w => w.draft.nesting.Sound ∧ (w.finished = true → w.draft.scopes = [])) ?_ ?_
  · exact kept.2 finished
  · intro path settings dialect d w d' created
    refine ⟨sound_create created, fun finished => ?_⟩
    exact absurd ((unfinished_create created).symm.trans finished) Bool.false_ne_true
  · intro w d operation ⟨sound, closed⟩
    refine ⟨sound_perform sound d operation, fun finished => ?_⟩
    cases before : w.finished with
    | false => exact finished_perform before finished
    | true =>
      cases operation with
      | call call =>
        have suffix := scopes_call_finished sound before call
        rw [closed before] at suffix
        exact List.eq_nil_of_suffix_nil suffix
      | finishing broken =>
        rw [perform, finish_finished before]
        exact closed before
      | setDialect dialect => exact closed before

/-- A file is written only when no scope is open. -/
theorem scopes_of_finish_ok {w : Writer} {d : Disk} (succeeds : (w.finish d).1 = .ok ()) :
    (w.finish d).2.1.draft.scopes = [] := by
  have ends := w.finish_ends d none
  generalize w.finish d = result at ends succeeds
  cases ends with
  | written _ _ closed => exact closed.2
  | _ => cases succeeds

/-- A writer holds its file until it is finished. -/
theorem held_of_reachable {w : Writer} (h : w.Reachable) (unfinished : w.finished = false) :
    ∃ id, w.output.held = some id := by
  refine h.keeps (fun w => w.finished = false → ∃ id, w.output.held = some id) ?_ ?_ unfinished
  · intro path settings dialect d w d' created _
    obtain ⟨id, output, -⟩ := Disk.within_reserve (reserve_of_create_ok created)
    exact ⟨id, congrArg Output.held output⟩
  · intro w d operation held unfinished
    obtain ⟨draft, state, frame⟩ := prepared_frame w
    rcases perform_frame w d operation with ⟨broken, rfl⟩ | ⟨draft', dialect', performed⟩
    · rw [perform] at unfinished ⊢
      have ends := w.finish_ends d broken
      generalize w.finish d broken = result at ends unfinished
      cases ends with
      | finished => exact held unfinished
      | refused before | unclosed before =>
        rw [frame]
        exact held before
      | gone | written | brokenOff => cases unfinished
    · rw [performed] at unfinished ⊢
      exact held unfinished

/-- An unfinished writer can be finished if its hook allows it and no scope is open after it. -/
theorem finish_ok_iff {w : Writer} (h : w.Reachable) (unfinished : w.finished = false) (d : Disk) :
    (w.finish d).1 = .ok () ↔ w.beforeFinish.1 = .ok () ∧ w.beforeFinish.2.draft.scopes = [] := by
  obtain ⟨id, held⟩ := held_of_reachable h unfinished
  rw [finish_ok_iff_prepared unfinished held, closed_iff (sound_prepared (sound_of_reachable h)),
    prepared]

theorem nesting_of_addsText {call : Call} (addsText : call.AddsText) (w : Writer) :
    (w.call call).2.draft.nesting = w.draft.nesting := by
  cases call with
  | edit edit =>
    rw [Writer.call]
    split
    · next edited =>
      obtain ⟨-, rfl⟩ := edited_eq_ok edited
      exact edit.nesting_apply _
    · rfl
  | noSeparation => rfl
  | _ => exact addsText.elim

/-- A hook that touches no scope leaves those that it finds. -/
theorem nesting_prepared {w : Writer} (finishes : w.dialect.Finishes) :
    w.prepared.draft.nesting = w.draft.nesting := by
  refine prepared_keeps_of_callsOnly (fun w' => w'.draft.nesting = w.draft.nesting) ?_ ?_ finishes.2
    rfl
  · intro w' call addsText kept
    rw [nesting_of_addsText addsText, kept]
  · exact fun _ _ kept => kept

/-- With such a hook it is the scopes of the writer that decide. -/
theorem finish_ok_iff_of_finishes {w : Writer} (h : w.Reachable) (unfinished : w.finished = false)
    (finishes : w.dialect.Finishes) (d : Disk) :
    (w.finish d).1 = .ok () ↔ w.draft.scopes = [] := by
  have accepts : w.beforeFinish.1 = .ok () := by
    rw [beforeFinish]
    split <;> exact finishes.1 w.view
  have scopes : w.beforeFinish.2.draft.scopes = w.draft.scopes :=
    congrArg Nesting.scopes (nesting_prepared finishes)
  rw [finish_ok_iff h unfinished, scopes]
  simp [accepts]

/-- A call without a token leaves the open scopes open. -/
theorem open_of_tokenFree {w : Writer} (sound : w.draft.nesting.Sound) {call : Call}
    (free : call.token? = none) (open_ : w.draft.scopes ≠ []) :
    (w.call call).2.draft.scopes ≠ [] := by
  rcases nesting_call sound call with ⟨frame, enters⟩ | kept
  · have scopes : (w.call call).2.draft.scopes = frame :: w.draft.scopes := enters.scopes
    rw [scopes]
    exact List.cons_ne_nil _ _
  · have scopes : (w.call call).2.draft.scopes = remaining call w.draft.scopes :=
      congrArg Nesting.scopes kept
    rw [scopes]
    cases call with
    | close | leave => cases free
    | _ => exact open_

/-- Where the hook closes nothing, open scopes are in the way of finishing. -/
theorem finish_open {w : Writer} (sound : w.draft.nesting.Sound) (free : w.dialect.TokenFree)
    (open_ : w.draft.scopes ≠ []) (d : Disk) : (w.finish d).1 ≠ .ok () := by
  obtain ⟨-, prepared⟩ : w.prepared.draft.nesting.Sound ∧ w.prepared.draft.scopes ≠ [] := by
    refine prepared_keeps_of_callsOnly
      (fun w => w.draft.nesting.Sound ∧ w.draft.scopes ≠ []) ?_ ?_ free ⟨sound, open_⟩
    · intro w' call free kept
      exact ⟨sound_call kept.1 call, open_of_tokenFree kept.1 free kept.2⟩
    · exact fun _ _ kept => kept
  intro succeeds
  have ends := w.finish_ends d none
  generalize w.finish d = result at ends succeeds
  cases ends with
  | written _ _ closed => exact prepared closed.2
  | _ => cases succeeds

/-! ## Leaving after a success -/

theorem reachable_opened {w w₁ : Writer} {opening : Opening} {token : Token} (h : w.Reachable)
    (opened : w.opened opening = .ok (token, w₁)) : w₁.Reachable := by
  have reached := h.perform (.empty ⟨"/"⟩) (.open_ opening)
  rw [perform, Writer.call, opened] at reached
  exact reached

/-- Where a scope stays open that nobody can close, no run ends with the file written, unless a hook
closes the scope. -/
theorem finish_of_leak {w : Writer} (sound : w.draft.nesting.Sound) {frame : Frame}
    {outer : List Frame} (inside : frame :: outer <:+ w.draft.scopes) {d : Disk} {t : Writer × Disk}
    (run : Run (Operation.Spares frame.token) (fun _ _ => True) (w, d) t) {d' : Disk}
    (spares : ∀ made ∈ t.1.made .finish, made.Spares frame.token) :
    (t.1.finish d').1 ≠ .ok () := by
  intro succeeds
  have later : Run (Operation.Spares frame.token) (fun _ _ => True) (w, d)
      (t.1.perform d' .finish).2 := .step (run.wait trivial) .finish spares
  obtain ⟨-, inside'⟩ := suffix_of_run later sound inside
  have none : (t.1.perform d' .finish).2.1.draft.scopes = [] := scopes_of_finish_ok succeeds
  rw [none] at inside'
  cases List.eq_nil_of_suffix_nil inside'

/-- A closure form whose body succeeds, for all that can be done in a body. Where the body has closed
what it opened the scopes, the level and the prefix are those from before the form, whether the last
line of the scope could be written or not, and the writer can be finished if no scope was open then.
Else leaving is refused and changes nothing. If the body did not close the scope itself, which takes
a token of another writer, the scope stays, and unless it is left from further out or a hook closes
it the writer is never finished. -/
theorem leave_succeeded {w w₁ : Writer} {d : Disk} {s : Writer × Disk} {opening : Opening}
    {token : Token} (reachable : w.Reachable) (opened : w.opened opening = .ok (token, w₁))
    (body : Run (fun _ => True) (fun _ _ => True) (w₁, d) s) :
    let result := s.1.leave token (.ok ())
    (s.1.draft.scopes = w₁.draft.scopes →
      (∀ fault, result.1 ≠ .error (.scopeMismatch fault)) ∧
      (result.2.draft.scopes = w.draft.scopes ∧ result.2.draft.level = w.draft.level ∧
        result.2.draft.linePrefix = w.draft.linePrefix) ∧
      result.2.finished = false ∧
      (∀ d', (result.2.finish d').1 = .ok () ↔
        result.2.beforeFinish.1 = .ok () ∧ result.2.beforeFinish.2.draft.scopes = []) ∧
      (result.2.dialect.Finishes →
        ∀ d', (result.2.finish d').1 = .ok () ↔ w.draft.scopes = [])) ∧
    (s.1.draft.scopes ≠ w₁.draft.scopes →
      (∃ fault, result = (.error (.scopeMismatch fault), s.1)) ∧
      (Run (Operation.Spares token) (fun _ _ => True) (w₁, d) s →
        w₁.draft.scopes <:+ s.1.draft.scopes ∧
        ∀ d' t, Run (Operation.Spares token) (fun _ _ => True) (result.2, d') t →
          (∀ made ∈ t.1.made .finish, made.Spares token) →
          ∀ d'', (t.1.finish d'').1 ≠ .ok ())) := by
  intro result
  have sound := sound_of_reachable reachable
  have entered := reachable_opened reachable opened
  have reached : s.1.Reachable := entered.run body
  obtain ⟨frame, rfl, scopes, -⟩ := owns_of_run sound opened body
  rcases close_issued sound opened body with ⟨same, closes, left⟩ | ⟨other, fault, refused⟩
  · refine ⟨fun _ => ?_, fun other => absurd same other⟩
    have unfinished : s.1.finished = false := by
      by_contra finished
      rw [Bool.not_eq_false] at finished
      have none := closed_of_finished reached finished
      rw [same, scopes] at none
      cases none
    have restored : result.2.draft.scopes = w.draft.scopes ∧ result.2.draft.level = w.draft.level ∧
        result.2.draft.linePrefix = w.draft.linePrefix := restored_of_nesting sound left
    have unfinished' : result.2.finished = false := by
      obtain ⟨draft, kept⟩ := leave_frame s.1 frame.token (.ok ())
      exact kept ▸ unfinished
    have reached' : result.2.Reachable := reached.perform d (.leave frame.token (.ok ()))
    refine ⟨closes, restored, unfinished', finish_ok_iff reached' unfinished', fun finishes d' => ?_⟩
    rw [finish_ok_iff_of_finishes reached' unfinished' finishes, restored.1]
  · refine ⟨fun same => absurd same other, fun _ => ⟨⟨fault, refused⟩, fun spares => ?_⟩⟩
    have unchanged : result.2 = s.1 := congrArg Prod.snd refused
    have inside : frame :: w.draft.scopes <:+ w₁.draft.scopes := scopes ▸ List.suffix_refl _
    obtain ⟨sound', inside'⟩ := suffix_of_run spares (sound_of_reachable entered) inside
    rw [unchanged, scopes]
    exact ⟨inside', fun d' t later spares d'' => finish_of_leak sound' inside' later spares⟩

/-- One body stops in the middle of a line, so that the last line of the scope cannot be written. The
other leaves a scope open, and closing that one later does not help. -/
theorem leave_succeeded_leak :
    let w : Writer := {
      dialect := .cpp {}, output := ⟨⟨"a"⟩, some 0⟩, directory := ⟨"/"⟩, settings := {}
      draft := { unit := .spaces 4 }, finished := false }
    let d : Disk := ⟨⟨"/"⟩, [(["a"], .file 0)], [[]], [0]⟩
    let token : Token := ⟨0, .leftAdjusted⟩
    let w₁ := (performAll (w, d) [.open_ (.disabled none)]).1
    let cut := (performAll (w₁, d) [.edit (.write "x")]).1
    let leak := (performAll (w₁, d) [.open_ (.linePrefix "> ")]).1
    (w.Reachable ∧ w.opened (.disabled none) = .ok (token, w₁) ∧
      Run (fun _ => True) (fun _ _ => True) (w₁, d) (cut, d) ∧
      Run (Operation.Spares token) (fun _ _ => True) (w₁, d) (leak, d)) ∧
      (cut.leave token (.ok ())).1 = .error (.lineNotEmpty .leftAdjusted) ∧
      (cut.leave token (.ok ())).2.draft.scopes = [] ∧
      (∀ d', ((cut.leave token (.ok ())).2.finish d').1 = .ok ()) ∧
      (∃ fault, leak.leave token (.ok ()) = (.error (.scopeMismatch fault), leak)) ∧
      (performAll ((leak.leave token (.ok ())).2, d) [.close ⟨1, .linePrefix⟩]).1.draft.scopes =
        [.leftAdjusted 0 0 "#endif"] ∧
      ∀ d', ((performAll ((leak.leave token (.ok ())).2, d)
        [.close ⟨1, .linePrefix⟩]).1.finish d').1 ≠ .ok () := by
  intro w d token w₁ cut leak
  have created : create ⟨"a"⟩ {} (.cpp {}) (.empty ⟨"/"⟩) = (.ok w, d) := rfl
  have reachable : w.Reachable := ⟨_, _, _, _, w, _, _, created, .refl _⟩
  have opened : w.opened (.disabled none) = .ok (token, w₁) := rfl
  have cuts : Run (fun _ => True) (fun _ _ => True) (w₁, d) (cut, d) :=
    .step (.refl _) (.edit (.write "x")) fun _ _ => trivial
  have leaks : Run (Operation.Spares token) (fun _ _ => True) (w₁, d) (leak, d) :=
    .step (.refl _) (.open_ (.linePrefix "> ")) (by simp [made, Operation.Spares])
  have closed : cut.draft.scopes = w₁.draft.scopes := by decide
  have open_ : leak.draft.scopes ≠ w₁.draft.scopes := by decide
  obtain ⟨-, ⟨restored, -⟩, -, -, finishes⟩ := (leave_succeeded reachable opened cuts).1 closed
  have any : Run (fun _ => True) (fun _ _ => True) (w₁, d) (leak, d) :=
    leaks.mono (fun _ _ => trivial) (fun _ _ _ => trivial)
  obtain ⟨refused, lost⟩ := (leave_succeeded reachable opened any).2 open_
  have later : Run (Operation.Spares token) (fun _ _ => True) ((leak.leave token (.ok ())).2, d)
      (performAll ((leak.leave token (.ok ())).2, d) [.close ⟨1, .linePrefix⟩]) :=
    .step (.refl _) (.close ⟨1, .linePrefix⟩) (by simp [made, Operation.Spares, token])
  have unwritten : (cut.leave token (.ok ())).1 = .error (.lineNotEmpty .leftAdjusted) := by decide
  have stays : (performAll ((leak.leave token (.ok ())).2, d)
      [.close ⟨1, .linePrefix⟩]).1.draft.scopes = [.leftAdjusted 0 0 "#endif"] := by decide
  have idle : (performAll ((leak.leave token (.ok ())).2, d)
      [.close ⟨1, .linePrefix⟩]).1.hookCalls = [] := List.isEmpty_iff.1 (by decide +kernel)
  refine ⟨⟨reachable, opened, cuts, leaks⟩, unwritten, restored, fun d' => ?_, refused, stays, ?_⟩
  · obtain ⟨draft, left⟩ := leave_frame cut token (.ok ())
    have cpp : (cut.leave token (.ok ())).2.dialect.hook = .idle := by
      rw [left]
      rfl
    exact (finishes (Dialect.finishes_of_idle cpp) d').2 rfl
  · exact (lost leaks).2 d _ later (by simp [made, idle, Operation.Spares])

end Writer

end Emitter
