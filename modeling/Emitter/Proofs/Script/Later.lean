import Emitter.Proofs.Script.Operations
import Mathlib.Logic.Relation

/-! The states that a script passes, one call after the other, with its closure forms taken apart:
entering one, its body, and leaving it. A script ends in a later state of its bench, and each call in
its log was made in a state on the way (`traced_runAll`). -/

namespace Emitter.Script.Bench

/-- The state after a call, at the beginning or the end of a scope, or after others changed the
disk. -/
inductive Next (others : Disk → Disk → Prop) (b : Bench) : Bench → Prop
  | call (command : Command) : Next others b (b.perform command).2
  | enter {around : Around} {token : Token} {w : Writer}
      (h : b.opened? around = some (.ok (token, w))) : Next others b (b.withWriter w)
  | leave (token : Token) (result : Except Error Unit) :
      Next others b (b.withWriter (b.writer.leave token result).2)
  | mark : Next others b b.marked
  | wait {d : Disk} (h : others b.disk d) : Next others b { b with disk := d }

def Later (others : Disk → Disk → Prop) : Bench → Bench → Prop :=
  Relation.ReflTransGen (Next others)

/-- A call that was made on the way from one state to another, and what was answered. -/
def Called (others : Disk → Disk → Prop) (b b' : Bench) (command : Command) (reply : Reply) :
    Prop :=
  ∃ m, Later others b m ∧ (m.perform command).1 = reply ∧ Later others (m.perform command).2 b'

/-- The log of what was done on the way from one state to another. -/
structure Traced (others : Disk → Disk → Prop) (b : Bench) (log : List Entry) (b' : Bench) : Prop
    where
  later : Later others b b'
  called : ∀ entry ∈ log, ∀ command, entry.deed = .inl command →
    Called others b b' command entry.reply

namespace Traced

variable {others : Disk → Disk → Prop} {b b₁ b₂ b₃ : Bench} {log : List Entry}

theorem of_later (later : Later others b b₁) : Traced others b [] b₁ :=
  ⟨later, List.forall_mem_nil _⟩

theorem trans {more : List Entry} (first : Traced others b log b₁)
    (second : Traced others b₁ more b₂) : Traced others b (log ++ more) b₂ where
  later := first.later.trans second.later
  called entry mem command deed := by
    rcases List.mem_append.1 mem with mem | mem
    · obtain ⟨m, before, reply, after⟩ := first.called entry mem command deed
      exact ⟨m, before, reply, after.trans second.later⟩
    · obtain ⟨m, before, reply, after⟩ := second.called entry mem command deed
      exact ⟨m, first.later.trans before, reply, after⟩

theorem tail (h : Traced others b log b₁) (next : Next others b₁ b₂) : Traced others b log b₂ :=
  List.append_nil log ▸ h.trans (of_later (.single next))

/-- An entry for a scope is no call. -/
theorem around (h : Traced others b log b₁) (around : Around) (reply : Reply) (status : Status) :
    Traced others b (log ++ [⟨.inr around, reply, status⟩]) b₁ where
  later := h.later
  called entry mem command deed := by
    rcases List.mem_append.1 mem with mem | mem
    · exact h.called entry mem command deed
    · rw [List.mem_singleton.1 mem] at deed
      cases deed

end Traced

variable (others : Disk → Disk → Prop)

mutual

theorem traced_run (b : Bench) (act : Act) : Traced others b (b.run act).1 (b.run act).2.2 := by
  cases act with
  | call propagates command =>
    rw [run]
    refine ⟨.tail (.single (.call command)) .mark, fun entry mem command' deed => ?_⟩
    obtain rfl := List.mem_singleton.1 mem
    obtain rfl := Sum.inl.inj deed
    exact ⟨b, .refl, rfl, .single .mark⟩
  | within propagates around body =>
    rw [run]
    refine (Traced.around ?_ around _ _).tail .mark
    split
    · exact traced_runAll b body
    · cases opens : b.opened? around with
      | none => exact .of_later .refl
      | some opened =>
        cases opened with
        | error e => exact .of_later .refl
        | ok entered =>
          obtain ⟨token, w⟩ := entered
          have entered : Traced others b [] (b.withWriter w) := .of_later (.single (.enter opens))
          exact (entered.trans (traced_runAll (b.withWriter w) body)).tail (.leave token _)

theorem traced_runAll (b : Bench) (acts : List Act) :
    Traced others b (b.runAll acts).1 (b.runAll acts).2.2 := by
  cases acts with
  | nil =>
    rw [runAll]
    exact .of_later .refl
  | cons act rest =>
    have first := traced_run b act
    rw [runAll]
    rcases ran : b.run act with ⟨entries, error, b'⟩
    rw [ran] at first
    cases error with
    | some error => exact first
    | none => exact first.trans (traced_runAll b' rest)

end

end Emitter.Script.Bench
