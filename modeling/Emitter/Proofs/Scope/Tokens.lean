import Emitter.Proofs.Scope.Invariant

/-! What a token can close. Within a writer the numbers only grow, so that one number stands for one
scope for good. They start afresh in each writer, and nothing else of a token is compared: where the
innermost scope of another writer has the number by chance, the token closes it. -/

namespace Emitter

namespace Nesting

/-- A scope was opened here, inside `outer`, and no other scope has its number. It may be closed by
now. -/
structure Owns (n : Nesting) (frame : Frame) (outer : List Frame) : Prop where
  sound : n.Sound
  used : frame.token.id < n.nextId
  only : ∀ f rest, f :: rest <:+ n.scopes → f.token.id = frame.token.id →
    f :: rest = frame :: outer

variable {n : Nesting} {frame : Frame}

theorem Sound.owns {inside : Nesting} (sound : n.Sound) (enters : n.Enters frame inside) :
    inside.Owns frame n.scopes where
  sound := sound.enters enters
  used := by
    rw [enters.id, enters.nextId]
    exact Nat.lt_succ_self _
  only f rest suffix same := by
    rw [enters.scopes, List.suffix_cons_iff] at suffix
    rcases suffix with here | suffix
    · exact here
    · have older := sound.bounded f (suffix.mem List.mem_cons_self)
      rw [same, enters.id] at older
      exact absurd older (Nat.lt_irrefl _)

/-- A scope that is opened later gets a number that was not used before. -/
theorem Owns.enters {outer : List Frame} {entered : Frame} {inside : Nesting}
    (owns : n.Owns frame outer) (enters : n.Enters entered inside) : inside.Owns frame outer where
  sound := owns.sound.enters enters
  used := by
    rw [enters.nextId]
    exact Nat.lt_succ_of_lt owns.used
  only f rest suffix same := by
    rw [enters.scopes, List.suffix_cons_iff, List.cons.injEq] at suffix
    rcases suffix with ⟨rfl, -⟩ | suffix
    · have used := owns.used
      rw [← same, enters.id] at used
      exact absurd used (Nat.lt_irrefl _)
    · exact owns.only f rest suffix same

theorem Owns.ofScopes_of_suffix {outer scopes : List Frame} (owns : n.Owns frame outer)
    (suffix : scopes <:+ n.scopes) : (ofScopes scopes n.nextId).Owns frame outer where
  sound := owns.sound.ofScopes_of_suffix suffix
  used := owns.used
  only f rest inner := owns.only f rest (inner.trans suffix)

end Nesting

namespace Writer

open Nesting

/-! ## Closing -/

theorem close_mismatch {w : Writer} {token : Token}
    (other : ∀ frame outer, w.draft.scopes = frame :: outer → frame.token.id ≠ token.id) :
    ∃ fault, w.close token = (.error (.scopeMismatch fault), w) := by
  unfold close
  cases found : w.draft.closable token with
  | error fault => exact ⟨fault, rfl⟩
  | ok frame =>
    obtain ⟨outer, innermost, same⟩ := Draft.closable_eq_ok found
    exact absurd same (other frame outer innermost)

/-- The number of the innermost scope is all it takes to close it. -/
theorem close_innermost {w : Writer} (sound : w.draft.nesting.Sound) {frame : Frame}
    {outer : List Frame} (innermost : w.draft.scopes = frame :: outer) {token : Token}
    (same : frame.token.id = token.id) :
    (∀ fault, (w.close token).1 ≠ .error (.scopeMismatch fault)) ∧
      (w.close token).2.draft.nesting = ofScopes outer w.draft.nextId := by
  refine ⟨close_ne_mismatch (Draft.closable_innermost sound innermost same), ?_⟩
  rw [nesting_close sound, innermost, closed, if_pos same]

/-! ## Runs -/

theorem owns_call {w : Writer} {frame : Frame} {outer : List Frame}
    (owns : w.draft.nesting.Owns frame outer) (call : Call) :
    (w.call call).2.draft.nesting.Owns frame outer := by
  rcases nesting_call owns.sound call with ⟨entered, enters⟩ | kept
  · exact owns.enters enters
  · rw [kept]
    exact owns.ofScopes_of_suffix (remaining_suffix _ _)

/-- Whatever is done to a writer, also with tokens that are not its own, a number stays with the
scope that it was issued for. -/
theorem owns_of_run {allowed : Operation → Prop} {others : Disk → Disk → Prop}
    {w w₁ : Writer} {d : Disk} {s : Writer × Disk} {opening : Opening} {token : Token}
    (sound : w.draft.nesting.Sound) (opened : w.opened opening = .ok (token, w₁))
    (run : Run allowed others (w₁, d) s) :
    ∃ frame, token = frame.token ∧ w₁.draft.scopes = frame :: w.draft.scopes ∧
      s.1.draft.nesting.Owns frame w.draft.scopes := by
  obtain ⟨-, frame, draft, rfl, rfl, enters⟩ := opened_eq_ok opened
  have scopes : draft.scopes = frame :: w.draft.scopes := enters.scopes
  let Owned (draft : Draft) : Prop := draft.nesting.Owns frame w.draft.scopes
  have owns : Owned s.1.draft := by
    refine run.keeps (fun w _ => Owned w.draft) ?_ (fun _ _ _ _ owns => owns) (sound.owns enters)
    intro w d operation may owns
    exact draft_perform allowed Owned (fun _ _ owns => owns)
      (fun _ call _ owns => owns_call owns call) may d owns
  exact ⟨frame, rfl, scopes, owns⟩

/-- A token closes its own scope, when that is the innermost again, or nothing. -/
theorem close_issued {allowed : Operation → Prop} {others : Disk → Disk → Prop}
    {w w₁ : Writer} {d : Disk} {s : Writer × Disk} {opening : Opening} {token : Token}
    (sound : w.draft.nesting.Sound) (opened : w.opened opening = .ok (token, w₁))
    (run : Run allowed others (w₁, d) s) :
    (s.1.draft.scopes = w₁.draft.scopes ∧
        (∀ fault, (s.1.close token).1 ≠ .error (.scopeMismatch fault)) ∧
        (s.1.close token).2.draft.nesting = ofScopes w.draft.scopes s.1.draft.nextId) ∨
      (s.1.draft.scopes ≠ w₁.draft.scopes ∧
        ∃ fault, s.1.close token = (.error (.scopeMismatch fault), s.1)) := by
  obtain ⟨frame, rfl, scopes, owns⟩ := owns_of_run sound opened run
  rw [scopes]
  by_cases innermost : s.1.draft.scopes = frame :: w.draft.scopes
  · exact .inl ⟨innermost, close_innermost owns.sound innermost rfl⟩
  · refine .inr ⟨innermost, close_mismatch fun f rest found same => ?_⟩
    have suffix : f :: rest <:+ s.1.draft.nesting.scopes := found ▸ List.suffix_refl _
    exact innermost (found.trans (owns.only f rest suffix same))

/-- At every later point a token closes the very scope that it was issued for, with the scopes
around it as they were, or it is refused and changes nothing; later tokens have other numbers.
Another writer refuses it in the same way, unless its innermost scope happens to have the number:
then that one is closed. -/
theorem close_issued_or_mismatch {w w₁ : Writer} {opening : Opening} {token : Token}
    (reachable : w.Reachable) (opened : w.opened opening = .ok (token, w₁)) :
    (∀ (d : Disk) (s : Writer × Disk), Run (fun _ => True) (fun _ _ => True) (w₁, d) s →
      ((s.1.draft.scopes = w₁.draft.scopes ∧
          (∀ fault, (s.1.close token).1 ≠ .error (.scopeMismatch fault)) ∧
          (s.1.close token).2.draft.scopes = w.draft.scopes) ∨
        ∃ fault, s.1.close token = (.error (.scopeMismatch fault), s.1)) ∧
      ∀ later next w₂, s.1.opened later = .ok (next, w₂) → token.id < next.id) ∧
    ∀ other : Writer, other.Reachable →
      ((∀ frame outer, other.draft.scopes = frame :: outer → frame.token.id ≠ token.id) →
        ∃ fault, other.close token = (.error (.scopeMismatch fault), other)) ∧
      ∀ frame outer, other.draft.scopes = frame :: outer → frame.token.id = token.id →
        (∀ fault, (other.close token).1 ≠ .error (.scopeMismatch fault)) ∧
        (other.close token).2.draft.scopes = outer := by
  have sound := sound_of_reachable reachable
  refine ⟨fun d s run => ⟨?_, fun later next w₂ entered => ?_⟩, fun other reached =>
    ⟨close_mismatch, fun frame outer innermost same => ?_⟩⟩
  · rcases close_issued sound opened run with ⟨same, closes, left⟩ | ⟨-, refused⟩
    · exact .inl ⟨same, closes, congrArg Nesting.scopes left⟩
    · exact .inr refused
  · obtain ⟨frame, rfl, -, owns⟩ := owns_of_run sound opened run
    obtain ⟨-, frame', draft, rfl, -, enters⟩ := opened_eq_ok entered
    rw [enters.id]
    exact owns.used
  · obtain ⟨closes, left⟩ := close_innermost (sound_of_reachable reached) innermost same
    exact ⟨closes, congrArg Nesting.scopes left⟩

/-- Two writers with one scope each. The token of the prefix closes the indented scope of the other
writer, and in its own writer nothing that is opened after the prefix is closed. -/
theorem close_issued_or_mismatch_pair :
    let a : Writer := {
      dialect := .cLike, output := ⟨⟨"a"⟩, some 0⟩, directory := ⟨"/"⟩, settings := {}
      draft := { unit := .spaces 4 }, finished := false }
    let b : Writer := { a with output := ⟨⟨"b"⟩, some 1⟩ }
    let d : Disk := ⟨⟨"/"⟩, [(["a"], .file 0), (["b"], .file 1)], [[], []], [1, 0]⟩
    let token : Token := ⟨0, .linePrefix⟩
    let a₁ := (performAll (a, d) [.open_ (.linePrefix "> ")]).1
    let s := performAll (a₁, d) [.close token, .open_ .block]
    let b₁ := (performAll (b, d) [.open_ (.indent none (some "end"))]).1
    (a.Reachable ∧ a.opened (.linePrefix "> ") = .ok (token, a₁) ∧
      Run (fun _ => True) (fun _ _ => True) (a₁, d) s ∧ b₁.Reachable) ∧
      s.1.draft.scopes = [.indent 1 1 (some "\x7d")] ∧
      (∃ fault, s.1.close token = (.error (.scopeMismatch fault), s.1)) ∧
      b₁.draft.scopes = [.indent 0 1 (some "end")] ∧
      (∀ fault, (b₁.close token).1 ≠ .error (.scopeMismatch fault)) ∧
      (b₁.close token).2.draft.scopes = [] := by
  intro a b d token a₁ s b₁
  have created : create ⟨"a"⟩ {} .cLike (.empty ⟨"/"⟩) =
      (.ok a, ⟨⟨"/"⟩, [(["a"], .file 0)], [[]], [0]⟩) := rfl
  have created' : create ⟨"b"⟩ {} .cLike ⟨⟨"/"⟩, [(["a"], .file 0)], [[]], [0]⟩ = (.ok b, d) := rfl
  have reachable : a.Reachable := ⟨_, _, _, _, a, _, _, created, .refl _⟩
  have reachable' : b₁.Reachable :=
    ⟨_, _, _, _, b, _, _, created', run_performAll (fun _ _ _ _ _ => trivial) (.refl _)⟩
  have opened : a.opened (.linePrefix "> ") = .ok (token, a₁) := rfl
  have run : Run (fun _ => True) (fun _ _ => True) (a₁, d) s :=
    run_performAll (fun _ _ _ _ _ => trivial) (.refl _)
  have block : s.1.draft.scopes = [.indent 1 1 (some "\x7d")] := by decide
  have indented : b₁.draft.scopes = [.indent 0 1 (some "end")] := by decide
  obtain ⟨own, foreign⟩ := close_issued_or_mismatch reachable opened
  have refused : ∃ fault, s.1.close token = (.error (.scopeMismatch fault), s.1) := by
    rcases (own d s run).1 with ⟨still, -⟩ | refused
    · have issued : a₁.draft.scopes = [.linePrefix 0 "> " none] := by decide
      rw [block, issued] at still
      cases still
    · exact refused
  have closed := (foreign b₁ reachable').2 _ _ indented rfl
  exact ⟨⟨reachable, opened, run, reachable'⟩, block, refused, indented, closed⟩

end Writer

end Emitter
