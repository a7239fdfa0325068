import Emitter.Proofs.Scope.Nesting
import Emitter.Proofs.Writer.Run

/-! What a call does to a writer: it changes the draft alone, and of the scopes it enters one, or goes
back to some outer ones. This is said here once for each call, for sound nestings. -/

namespace Emitter.Writer

open Nesting

@[simp] theorem Edit.nesting_apply (edit : Edit) (d : Draft) :
    (edit.apply d).nesting = d.nesting := by
  cases edit <;> simp [Edit.apply, Draft.writeLeftAdjusted, Draft.writeIndented]

/-- The token and the writer of a scope that was opened. -/
def Entered (w : Writer) (token : Token) (w' : Writer) : Prop :=
  w.finished = false ∧ ∃ frame draft, token = frame.token ∧ w' = { w with draft } ∧
    w.draft.nesting.Enters frame draft.nesting

theorem map_issued_eq_ok {kind : ScopeKind} {x : Except Error Writer} {token : Token} {w : Writer}
    (h : x.map (issued kind) = .ok (token, w)) :
    x = .ok w ∧ token = ⟨w.draft.nextId - 1, kind⟩ := by
  cases x with
  | error e => exact nomatch h
  | ok w₁ =>
    obtain ⟨rfl, rfl⟩ := Prod.mk.inj (Except.ok.inj h)
    exact ⟨rfl, rfl⟩

/-- The number before the next one is that of the scope that was entered last. -/
theorem entered_of_enters {w : Writer} (unfinished : w.finished = false) {frame : Frame}
    {draft : Draft} (enters : w.draft.nesting.Enters frame draft.nesting) :
    w.Entered ⟨draft.nextId - 1, frame.token.kind⟩ { w with draft } := by
  have next : draft.nextId = w.draft.nextId + 1 := enters.nextId
  have id : frame.token.id = w.draft.nextId := enters.id
  refine ⟨unfinished, frame, draft, ?_, rfl, enters⟩
  rw [next, Nat.add_sub_cancel, ← id]

theorem openIndent_eq_ok {w w' : Writer} {token : Token} {start closing : Option String}
    (h : w.openIndent start closing = .ok (token, w')) : w.Entered token w' := by
  obtain ⟨edited, rfl⟩ := map_issued_eq_ok h
  obtain ⟨unfinished, rfl⟩ := edit_eq_ok edited
  exact entered_of_enters unfinished (w.draft.enters_openIndent start closing)

theorem openLeft_eq_ok {w w' : Writer} {token : Token} {start closing : String}
    (h : w.openLeft start closing = .ok (token, w')) : w.Entered token w' := by
  obtain ⟨edited, rfl⟩ := map_issued_eq_ok h
  obtain ⟨unfinished, rfl⟩ := editFresh_eq_ok edited
  exact entered_of_enters unfinished (w.draft.enters_openLeft start closing)

theorem openPrefix_eq_ok {w w' : Writer} {token : Token} {linePrefix : String}
    (h : w.openPrefix linePrefix = .ok (token, w')) : w.Entered token w' := by
  unfold openPrefix at h
  split at h
  · exact nomatch h
  split at h
  · exact nomatch h
  obtain ⟨edited, rfl⟩ := map_issued_eq_ok h
  obtain ⟨unfinished, rfl⟩ := edit_eq_ok edited
  exact entered_of_enters unfinished (w.draft.enters_openPrefix linePrefix)

/-- A successful opening enters one scope, and its token is that scope's. -/
theorem opened_eq_ok {w w' : Writer} {opening : Opening} {token : Token}
    (h : w.opened opening = .ok (token, w')) : w.Entered token w' := by
  cases opening with
  | indent start closing => exact openIndent_eq_ok h
  | left start closing => exact openLeft_eq_ok h
  | linePrefix text => exact openPrefix_eq_ok h
  | block =>
    simp only [opened, openBlock] at h
    cases opened : w.openIndent (some "\x7b") (some "\x7d") with
    | error e => rw [opened] at h; exact nomatch h
    | ok entered =>
      rw [opened] at h
      obtain ⟨token', w₁⟩ := entered
      obtain ⟨rfl, rfl⟩ := Prod.mk.inj (Except.ok.inj h)
      obtain ⟨unfinished, frame, draft, rfl, rfl, enters⟩ := openIndent_eq_ok opened
      exact ⟨unfinished, frame, draft.noSeparation, rfl, rfl, enters⟩
  | disabled message =>
    simp only [opened, openDisabled, bind, Except.bind] at h
    cases separated : w.separate with
    | error e => rw [separated] at h; exact nomatch h
    | ok w₁ =>
      rw [separated] at h
      obtain ⟨unfinished, rfl⟩ := edit_eq_ok separated
      dsimp only at h
      cases opened : ({ w with draft := w.draft.separate } : Writer).openLeft
          (disabledStart message) "#endif" with
      | error e => rw [opened] at h; exact nomatch h
      | ok entered =>
        rw [opened] at h
        obtain ⟨token', w₂⟩ := entered
        obtain ⟨rfl, rfl⟩ := Prod.mk.inj (Except.ok.inj h)
        obtain ⟨-, frame, draft, rfl, rfl, enters⟩ := openLeft_eq_ok opened
        rw [Draft.nesting_separate] at enters
        exact ⟨unfinished, frame, draft.noSeparation, rfl, rfl, enters⟩

theorem nesting_writeClosing {w w' : Writer} {frame : Frame} (h : w.writeClosing frame = .ok w') :
    w'.draft.nesting = w.draft.nesting := by
  rcases writeClosing_eq_ok h with rfl | ⟨edit, edited⟩
  · rfl
  · obtain ⟨-, rfl⟩ := edited_eq_ok edited
    exact edit.nesting_apply _

/-- Closing takes the innermost scope off if the token has its number, also where its last line
cannot be written, and does nothing else. -/
theorem nesting_close {w : Writer} (sound : w.draft.nesting.Sound) (token : Token) :
    (w.close token).2.draft.nesting =
      ofScopes (closed token.id w.draft.scopes) w.draft.nextId := by
  unfold close
  cases found : w.draft.closable token with
  | error fault =>
    have kept : closed token.id w.draft.scopes = w.draft.scopes := by
      cases scopes : w.draft.scopes with
      | nil => rfl
      | cons frame outer =>
        have other : frame.token.id ≠ token.id := fun same =>
          nomatch found.symm.trans (Draft.closable_innermost sound scopes same)
        rw [closed, if_neg other]
    rw [kept]
    exact sound.eq_ofScopes
  | ok frame =>
    obtain ⟨outer, innermost, same⟩ := Draft.closable_eq_ok found
    rw [innermost, closed, if_pos same, ← Draft.nesting_leave sound innermost]
    dsimp only
    cases closing : ({ w with draft := w.draft.leave frame } : Writer).writeClosing frame with
    | error e => rfl
    | ok w' => exact nesting_writeClosing closing

theorem writeClosing_ne_mismatch (w : Writer) (frame : Frame) (fault : ScopeFault) :
    w.writeClosing frame ≠ .error (.scopeMismatch fault) := by
  intro h
  cases frame with
  | indent id level closing =>
    cases closing with
    | none => cases h
    | some line =>
      rw [writeClosing, writeLine, edit] at h
      split at h <;> cases h
  | leftAdjusted id level line =>
    rw [writeClosing, writeLeftAdjusted, editFresh] at h
    split at h
    · cases h
    · split at h <;> cases h
  | linePrefix id installed previous => cases h

theorem close_ne_mismatch {w : Writer} {token : Token} {frame : Frame}
    (closable : w.draft.closable token = .ok frame) (fault : ScopeFault) :
    (w.close token).1 ≠ .error (.scopeMismatch fault) := by
  have other := writeClosing_ne_mismatch { w with draft := w.draft.leave frame } frame fault
  unfold close
  rw [closable]
  dsimp only
  split
  · exact nofun
  · next failed =>
    rw [failed] at other
    intro h
    cases h
    exact other rfl

/-- Leaving a scope after a failed body first drops the scopes inside it. -/
def left (id : Nat) (result : Except Error Unit) (scopes : List Frame) : List Frame :=
  match result with
  | .ok _ => closed id scopes
  | .error _ => closed id (unwound id scopes)

theorem left_suffix (id : Nat) (result : Except Error Unit) (scopes : List Frame) :
    left id result scopes <:+ scopes := by
  cases result with
  | ok => exact closed_suffix id scopes
  | error e => exact (closed_suffix id _).trans (unwound_suffix id scopes)

theorem nesting_leave {w : Writer} (sound : w.draft.nesting.Sound) (token : Token)
    (result : Except Error Unit) :
    (w.leave token result).2.draft.nesting =
      ofScopes (left token.id result w.draft.scopes) w.draft.nextId := by
  cases result with
  | ok => exact nesting_close sound token
  | error e =>
    have unwound := Draft.nesting_unwindTo sound token
    have sound' : ({ w with draft := w.draft.unwindTo token } : Writer).draft.nesting.Sound :=
      unwound ▸ sound.ofScopes_of_suffix (unwound_suffix _ _)
    have close := nesting_close sound' token
    have scopes : (w.draft.unwindTo token).scopes = Nesting.unwound token.id w.draft.scopes :=
      congrArg Nesting.scopes unwound
    have nextId : (w.draft.unwindTo token).nextId = w.draft.nextId :=
      congrArg Nesting.nextId unwound
    rw [scopes, nextId] at close
    exact close

/-- The scopes that a call leaves open if it opens none. -/
def remaining : Call → List Frame → List Frame
  | .close token => closed token.id
  | .leave token result => left token.id result
  | _ => fun scopes => scopes

theorem remaining_suffix (call : Call) (scopes : List Frame) : remaining call scopes <:+ scopes := by
  cases call with
  | close token => exact closed_suffix _ _
  | leave token result => exact left_suffix _ _ _
  | _ => exact List.suffix_refl _

/-- What a call can do to the scopes. -/
theorem nesting_call {w : Writer} (sound : w.draft.nesting.Sound) (call : Call) :
    (∃ frame, w.draft.nesting.Enters frame (w.call call).2.draft.nesting) ∨
      (w.call call).2.draft.nesting = ofScopes (remaining call w.draft.scopes) w.draft.nextId := by
  have same : w.draft.nesting = ofScopes w.draft.scopes w.draft.nextId := sound.eq_ofScopes
  cases call with
  | edit edit =>
    right
    rw [Writer.call]
    cases edited : w.edited edit with
    | error e => exact same
    | ok w₁ =>
      obtain ⟨-, rfl⟩ := edited_eq_ok edited
      exact (edit.nesting_apply _).trans same
  | noSeparation => exact .inr same
  | open_ opening =>
    rw [Writer.call]
    cases opened : w.opened opening with
    | error e => exact .inr same
    | ok entered =>
      obtain ⟨token, w₁⟩ := entered
      obtain ⟨-, frame, draft, -, rfl, enters⟩ := opened_eq_ok opened
      exact .inl ⟨frame, enters⟩
  | close token => exact .inr (nesting_close sound token)
  | leave token result => exact .inr (nesting_leave sound token result)

/-! ## What calls leave alone -/

theorem close_frame (w : Writer) (token : Token) :
    ∃ draft, (w.close token).2 = { w with draft } := by
  unfold close
  split
  · exact ⟨w.draft, rfl⟩
  · next frame _ =>
    dsimp only
    split
    · next closed =>
      rcases writeClosing_eq_ok closed with rfl | ⟨edit, edited⟩
      · exact ⟨_, rfl⟩
      · obtain ⟨-, rfl⟩ := edited_eq_ok edited
        exact ⟨_, rfl⟩
    · exact ⟨_, rfl⟩

theorem leave_frame (w : Writer) (token : Token) (result : Except Error Unit) :
    ∃ draft, (w.leave token result).2 = { w with draft } := by
  cases result with
  | ok => exact close_frame w token
  | error e =>
    obtain ⟨draft, closed⟩ := close_frame { w with draft := w.draft.unwindTo token } token
    exact ⟨draft, closed⟩

theorem call_frame (w : Writer) (call : Call) : ∃ draft, (w.call call).2 = { w with draft } := by
  cases call with
  | edit edit =>
    rw [Writer.call]
    split
    · next edited =>
      obtain ⟨-, rfl⟩ := edited_eq_ok edited
      exact ⟨_, rfl⟩
    · exact ⟨_, rfl⟩
  | noSeparation => exact ⟨_, rfl⟩
  | open_ opening =>
    rw [Writer.call]
    split
    · next opened =>
      obtain ⟨-, frame, draft, -, rfl, -⟩ := opened_eq_ok opened
      exact ⟨draft, rfl⟩
    · exact ⟨_, rfl⟩
  | close token => exact close_frame w token
  | leave token result => exact leave_frame w token result

end Emitter.Writer
