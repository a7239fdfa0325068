import Emitter.Proofs.Scope.Return
import Emitter.Script.Bench

/-! Scripts do nothing to a writer but the operations of a run. Which ones is said by the tokens
that a bench holds: a script closes those and the ones that it is handed, and its closure forms
leave the scopes that they open. What the hook of its dialect does comes with it. -/

namespace Emitter

namespace Writer

/-- The token that an operation is given. -/
def Operation.token? : Operation → Option Token
  | .call made => made.token?
  | _ => none

theorem nextId_call {w : Writer} (sound : w.draft.nesting.Sound) (call : Call) :
    w.draft.nextId ≤ (w.call call).2.draft.nextId := by
  rcases nesting_call sound call with ⟨frame, enters⟩ | kept
  · have next : (w.call call).2.draft.nextId = w.draft.nextId + 1 := enters.nextId
    omega
  · exact Nat.le_of_eq (congrArg Nesting.nextId kept).symm

theorem nextId_perform {w : Writer} (sound : w.draft.nesting.Sound) (d : Disk)
    (operation : Operation) : w.draft.nextId ≤ (w.perform d operation).2.1.draft.nextId := by
  let Past (draft : Draft) : Prop := draft.nesting.Sound ∧ w.draft.nextId ≤ draft.nextId
  have past : Past (w.perform d operation).2.1.draft :=
    draft_perform (fun _ => True) Past (fun _ _ past => past)
      (fun w' call _ past => ⟨sound_call past.1 call, past.2.trans (nextId_call past.1 call)⟩)
      (fun _ _ => trivial) d ⟨sound, Nat.le_refl _⟩
  exact past.2

/-- Nothing that is done to a writer gives its dialect another hook than those it has in its states,
but for the change to another dialect. -/
theorem callsOnly_perform {w : Writer} {allowed : Call → Prop}
    (only : ∀ state, (w.dialect.enter state).CallsOnly allowed) (d : Disk) (operation : Operation)
    (kept : ∀ dialect, operation ≠ .setDialect dialect) (state : Nat) :
    ((w.perform d operation).2.1.dialect.enter state).CallsOnly allowed := by
  cases operation with
  | call call =>
    obtain ⟨draft', called⟩ := call_frame w call
    show ((w.call call).2.dialect.enter state).CallsOnly allowed
    rw [called]
    exact only state
  | finishing broken =>
    obtain ⟨⟨state', same⟩, -⟩ := w.finish_frame d broken
    rw [perform, same, Dialect.enter_enter]
    exact only state
  | setDialect dialect => exact absurd rfl (kept dialect)

end Writer

namespace Script.Bench

open Writer

/-- Operations that a bench may ask for, and its dialect in any of its states. No token of a scope that
is still to be opened is forbidden. -/
structure Permits (allowed : Operation → Prop) (b : Bench) : Prop where
  free : ∀ operation : Operation, operation.token? = none → allowed operation
  hook : ∀ state, (b.writer.dialect.enter state).CallsOnly fun call => allowed (.call call)
  held : ∀ name token, b.tokens.get? name = some token → allowed (.close token)
  later : ∀ token, b.writer.draft.nextId ≤ token.id →
    allowed (.close token) ∧ ∀ result, allowed (.leave token result)

/-- A bench that another has become by operations of a run. -/
structure Ran (allowed : Operation → Prop) (b b' : Bench) : Prop where
  run : Run allowed (fun _ _ => False) (b.writer, b.disk) (b'.writer, b'.disk)
  sound : b'.writer.draft.nesting.Sound
  permits : Permits allowed b'

variable {allowed : Operation → Prop} {b : Bench}

section

variable (sound : b.writer.draft.nesting.Sound) (permits : Permits allowed b)

include permits in
/-- What is permitted is permitted with all that the hook does. -/
theorem Permits.made {operation : Operation} (h : allowed operation) :
    ∀ made ∈ b.writer.made operation, allowed made := by
  obtain ⟨state, same⟩ := b.writer.dialect.exists_enter
  have hook := permits.hook state
  rw [same] at hook
  intro made mem
  cases operation with
  | call call => exact List.mem_singleton.1 mem ▸ h
  | setDialect dialect => exact List.mem_singleton.1 mem ▸ h
  | finishing broken =>
    rcases List.mem_cons.1 mem with rfl | mem
    · exact h
    · split at mem
      · cases mem
      · exact allowed_of_callsOnly hook (fun dialect => permits.free (.setDialect dialect) rfl) made
          mem

include sound permits

theorem ran_refl : Ran allowed b b := ⟨.refl _, sound, permits⟩

/-- One operation, after which only tokens of the scope that it opened are new. -/
theorem ran_operation {b' : Bench} {operation : Operation} (h : allowed operation)
    (performed : (b'.writer, b'.disk) = (b.writer.perform b.disk operation).2)
    (hook : ∀ state, (b'.writer.dialect.enter state).CallsOnly fun call => allowed (.call call))
    (tokens : ∀ name token, b'.tokens.get? name = some token →
      b.tokens.get? name = some token ∨ b.writer.draft.nextId ≤ token.id) :
    Ran allowed b b' := by
  have writer : b'.writer = (b.writer.perform b.disk operation).2.1 := congrArg Prod.fst performed
  refine ⟨?_, ?_, permits.free, hook, fun name token found => ?_, fun token later => ?_⟩
  · rw [performed]
    exact .step (.refl _) operation (permits.made h)
  · rw [writer]
    exact sound_perform sound b.disk operation
  · rcases tokens name token found with old | new
    · exact permits.held name token old
    · exact (permits.later token new).1
  · rw [writer] at later
    exact permits.later token (Nat.le_trans (nextId_perform sound b.disk operation) later)

theorem ran_call {b' : Bench} {call : Call} (h : allowed (.call call))
    (called : (b'.writer, b'.disk) = ((b.writer.call call).2, b.disk))
    (tokens : ∀ name token, b'.tokens.get? name = some token →
      b.tokens.get? name = some token ∨ b.writer.draft.nextId ≤ token.id) :
    Ran allowed b b' := by
  have writer : b'.writer = (b.writer.call call).2 := congrArg Prod.fst called
  refine ran_operation sound permits h called (fun state => ?_) tokens
  rw [writer]
  exact callsOnly_perform permits.hook b.disk (.call call) nofun state

theorem ran_edit (edit : Edit) : Ran allowed b (b.apply (b.writer.edited edit)).2 := by
  apply ran_call sound permits (permits.free (.edit edit) rfl)
  · rw [Writer.call]
    cases b.writer.edited edit <;> rfl
  · intro name token found
    left
    cases edited : b.writer.edited edit <;> rw [edited] at found <;> exact found

theorem ran_open (name : String) (opening : Opening) :
    Ran allowed b (b.keep name (b.writer.opened opening)).2 := by
  apply ran_call sound permits (permits.free (.open_ opening) rfl)
  · rw [Writer.call]
    cases b.writer.opened opening <;> rfl
  · intro other token found
    cases opened : b.writer.opened opening with
    | error e =>
      rw [opened] at found
      exact .inl found
    | ok entered =>
      obtain ⟨issued, w⟩ := entered
      obtain ⟨-, frame, draft, rfl, rfl, enters⟩ := opened_eq_ok opened
      have id : frame.token.id = b.writer.draft.nextId := enters.id
      rw [opened] at found
      have found : (b.tokens.put name frame.token).get? other = some token := found
      rw [Table.get?_put] at found
      split at found
      · cases found
        exact .inr (Nat.le_of_eq id.symm)
      · exact .inl found

theorem ran_close (name : String) : Ran allowed b (b.close name).2 := by
  unfold Bench.close
  cases held : b.tokens.get? name with
  | none => exact ran_refl sound permits
  | some token =>
    apply ran_call sound permits (permits.held name token held)
    · rfl
    · intro other token' found
      have found : (b.tokens.erase name).get? other = some token' := found
      rw [Table.get?_erase] at found
      split at found
      · cases found
      · exact .inl found

theorem ran_finish : Ran allowed b b.finish.2 := by
  have hook := callsOnly_perform permits.hook b.disk .finish nofun
  exact ran_operation sound permits (permits.free .finish rfl) rfl hook fun _ _ => .inl

theorem ran_dialect {dialect : Dialect} (idle : ∀ state, (dialect.enter state).hook = .idle) :
    Ran allowed b (b.withDialect dialect) := by
  refine ran_operation sound permits (permits.free (.setDialect dialect) rfl) rfl (fun state => ?_)
    fun _ _ => .inl
  show (dialect.enter state).CallsOnly _
  intro view call mem
  rw [idle] at mem
  exact absurd mem List.not_mem_nil

theorem ran_includes (edit : Includes → Includes) : Ran allowed b (b.withIncludes edit).2 := by
  unfold withIncludes
  split
  · exact ran_dialect sound permits fun _ => rfl
  · exact ran_refl sound permits

theorem ran_performKnown (command : Command) : Ran allowed b (b.performKnown command).2 := by
  have nothing := ran_refl sound permits
  cases command with
  | write text => exact ran_edit sound permits (.write text)
  | writeChar c => exact ran_edit sound permits (.writeChar c)
  | writeLine text => exact ran_edit sound permits (.writeLine text)
  | blankLine => exact ran_edit sound permits .blankLine
  | writeEquation text number => exact ran_edit sound permits (.write _)
  | writeLiteral => exact ran_edit sound permits (.write _)
  | leftAdjusted text => exact ran_edit sound permits (.leftAdjusted text)
  | indented text => exact ran_edit sound permits (.indented text)
  | noSeparation =>
    exact ran_call sound permits (permits.free .noSeparation rfl) rfl fun _ _ => .inl
  | separate => exact ran_edit sound permits .separate
  | finish => exact ran_finish sound permits
  | openIndent name start closing => exact ran_open sound permits name (.indent start closing)
  | openLeft name start closing => exact ran_open sound permits name (.left start closing)
  | openPrefix name text => exact ran_open sound permits name (.linePrefix text)
  | openBlock name =>
    rw [performKnown]
    split
    · exact ran_open sound permits name .block
    · exact nothing
  | openDisabled name message =>
    rw [performKnown]
    split
    · exact ran_open sound permits name (.disabled message)
    · exact nothing
  | close name => exact ran_close sound permits name
  | setPreamble line =>
    rw [performKnown, setPreamble]
    split
    · exact ran_dialect sound permits fun _ => rfl
    · exact nothing
  | addQuoted path => exact ran_includes sound permits _
  | addSystem path => exact ran_includes sound permits _
  | setIncludeBase path => exact ran_includes sound permits _
  | setIncludeOrder order => exact ran_includes sound permits _
  | includes =>
    rw [performKnown]
    split <;> exact nothing
  | render | info | fail => exact nothing

theorem ran_perform (command : Command) : Ran allowed b (b.perform command).2 := by
  unfold Bench.perform
  split
  · cases command with
    | write text => exact ran_edit sound permits (.write text)
    | writeLine text => exact ran_edit sound permits (.writeLine text)
    | blankLine => exact ran_edit sound permits .blankLine
    | separate => exact ran_edit sound permits .separate
    | finish => exact ran_finish sound permits
    | _ => exact ran_refl sound permits
  · exact ran_performKnown sound permits command

end

theorem Ran.trans {b₁ b₂ : Bench} (first : Ran allowed b b₁) (second : Ran allowed b₁ b₂) :
    Ran allowed b b₂ :=
  ⟨first.run.trans second.run, second.sound, second.permits⟩

theorem Ran.marked {b' : Bench} (ran : Ran allowed b b') : Ran allowed b b'.marked :=
  ⟨ran.run, ran.sound, ran.permits.free, ran.permits.hook, ran.permits.held, ran.permits.later⟩

/-- A scope of a script is one of the openings. -/
theorem opened?_eq_some {around : Around} {result : Except Error (Token × Writer)}
    (h : b.opened? around = some result) : ∃ opening, result = b.writer.opened opening := by
  unfold opened? at h
  split at h
  · exact ⟨.indent none none, (Option.some.inj h).symm⟩
  split at h
  · cases h
  split at h
  · exact ⟨.indent (some _) (some _), (Option.some.inj h).symm⟩
  · exact ⟨.left _ _, (Option.some.inj h).symm⟩
  · exact ⟨.linePrefix _, (Option.some.inj h).symm⟩
  · split at h
    · exact ⟨.block, (Option.some.inj h).symm⟩
    · cases h
  · split at h
    · exact ⟨.disabled _, (Option.some.inj h).symm⟩
    · cases h
  · cases h

/-- A closure form opens its scope, runs its body and leaves the scope. -/
theorem Ran.around {opening : Opening} {token : Token} {w : Writer} {b' : Bench}
    (permits : Permits allowed b) (opened : b.writer.opened opening = .ok (token, w))
    (body : Ran allowed (b.withWriter w) b') (start : Ran allowed b (b.withWriter w))
    (result : Except Error Unit) :
    Ran allowed b (b'.withWriter (b'.writer.leave token result).2) := by
  obtain ⟨-, frame, draft, rfl, rfl, enters⟩ := opened_eq_ok opened
  have id : frame.token.id = b.writer.draft.nextId := enters.id
  have left : allowed (.leave frame.token result) :=
    (permits.later frame.token (Nat.le_of_eq id.symm)).2 result
  exact start.trans (body.trans
    (ran_call body.sound body.permits left rfl fun _ _ => .inl))

/-- Opening, with the token kept from the bench. -/
theorem ran_withWriter (sound : b.writer.draft.nesting.Sound) (permits : Permits allowed b)
    {opening : Opening} {token : Token} {w : Writer}
    (opened : b.writer.opened opening = .ok (token, w)) : Ran allowed b (b.withWriter w) := by
  apply ran_call sound permits (permits.free (.open_ opening) rfl)
  · rw [Writer.call, opened]
    rfl
  · exact fun _ _ => .inl

mutual

theorem ran_run (b : Bench) (sound : b.writer.draft.nesting.Sound) (permits : Permits allowed b)
    (act : Act) : Ran allowed b (b.run act).2.2 := by
  cases act with
  | call propagates command => exact (ran_perform sound permits command).marked
  | within propagates around body =>
    rw [run]
    apply Ran.marked
    split
    · exact ran_runAll b sound permits body
    · cases opens : b.opened? around with
      | none => exact ran_refl sound permits
      | some opened =>
        obtain ⟨opening, rfl⟩ := opened?_eq_some opens
        cases opened : b.writer.opened opening with
        | error e => exact ran_refl sound permits
        | ok entered =>
          obtain ⟨token, w⟩ := entered
          have start := ran_withWriter sound permits opened
          have inner := ran_runAll (b.withWriter w) start.sound start.permits body
          exact Ran.around permits opened inner start _

theorem ran_runAll (b : Bench) (sound : b.writer.draft.nesting.Sound) (permits : Permits allowed b)
    (acts : List Act) : Ran allowed b (b.runAll acts).2.2 := by
  cases acts with
  | nil => exact ran_refl sound permits
  | cons act rest =>
    have first := ran_run b sound permits act
    rw [runAll]
    cases ran : b.run act with
    | mk entries after =>
      obtain ⟨error, b'⟩ := after
      rw [ran] at first
      cases error with
      | some error => exact first
      | none => exact first.trans (ran_runAll b' first.sound first.permits rest)

end

/-- The steps of a script reach nothing that is out of reach of a run. -/
theorem reachable_runAll {b : Bench} (h : b.writer.Reachable) (acts : List Act) :
    (b.runAll acts).2.2.writer.Reachable := by
  have all : Permits (fun _ => True) b :=
    ⟨fun _ _ => trivial, fun _ _ _ _ => trivial, fun _ _ _ => trivial,
      fun _ _ => ⟨trivial, fun _ => trivial⟩⟩
  exact h.run (ran_runAll b (sound_of_reachable h) all acts).run

/-- A body that is a script has only the tokens that the bench holds, and the closure forms in it
open scopes of their own, so it spares the scope around it if its dialect does. -/
theorem permits_spares {b : Bench} (hook : ∀ state, (b.writer.dialect.enter state).TokenFree)
    (issued : ∀ name token, b.tokens.get? name = some token → token.id < b.writer.draft.nextId)
    {opening : Opening} {token : Token} {w : Writer}
    (opened : b.writer.opened opening = .ok (token, w)) :
    Permits (Operation.Spares token) (b.withWriter w) := by
  obtain ⟨-, frame, draft, rfl, rfl, enters⟩ := opened_eq_ok opened
  have id : frame.token.id = b.writer.draft.nextId := enters.id
  have next : draft.nextId = b.writer.draft.nextId + 1 := enters.nextId
  have spares : ∀ operation : Operation, operation.token? = none →
      operation.Spares frame.token := by
    intro operation free
    cases operation with
    | call call => cases call <;> first | exact trivial | cases free
    | finishing | setDialect => trivial
  refine ⟨spares, fun state view call mem => ?_, fun name token found => ?_, fun token later => ?_⟩
  · exact spares (.call call) (hook state view call mem)
  · have older := issued name token found
    show token.id ≠ frame.token.id
    omega
  · have later : draft.nextId ≤ token.id := later
    refine ⟨?_, fun result => ?_⟩
    · show token.id ≠ frame.token.id
      omega
    · show frame.token.id < token.id
      omega

theorem opened?_of_isOpenRegion {b : Bench} {around : Around} (h : b.isOpenRegion around = true) :
    b.opened? around = none := by
  cases around with
  | disabled isDisabled message =>
    cases isDisabled with
    | true => cases h
    | false =>
      rw [opened?]
      · split <;> rfl
      all_goals exact nofun
  | _ => cases h

/-- The cleanup after a failed body, for the steps of a script. -/
theorem run_within_failed {b : Bench} (reachable : b.writer.Reachable)
    (hook : ∀ state, (b.writer.dialect.enter state).TokenFree)
    (issued : ∀ name token, b.tokens.get? name = some token → token.id < b.writer.draft.nextId)
    {around : Around} {token : Token} {w : Writer}
    (opens : b.opened? around = some (.ok (token, w))) {body : List Act} {e : Error}
    (fails : ((b.withWriter w).runAll body).2.1 = some e) (propagates : Bool) :
    (b.run (.within propagates around body)).2.1 = (if propagates then some e else none) ∧
      (b.run (.within propagates around body)).2.2.writer.draft.scopes = b.writer.draft.scopes ∧
      (b.run (.within propagates around body)).2.2.writer.draft.level = b.writer.draft.level ∧
      (b.run (.within propagates around body)).2.2.writer.draft.linePrefix =
        b.writer.draft.linePrefix := by
  have sound := sound_of_reachable reachable
  have region : b.isOpenRegion around = false := by
    by_contra region
    rw [opened?_of_isOpenRegion (Bool.not_eq_false _ ▸ region)] at opens
    cases opens
  obtain ⟨opening, opened⟩ := opened?_eq_some opens
  have inside : w.draft.nesting.Sound := by
    obtain ⟨-, frame, draft, -, rfl, enters⟩ := opened_eq_ok opened.symm
    exact sound.enters enters
  have ran := ran_runAll (b.withWriter w) inside (permits_spares hook issued opened.symm) body
  have restored := restored_after_failure sound opened.symm ran.run e
  rw [run, region, opens]
  dsimp only
  generalize (b.withWriter w).runAll body = result at fails restored
  obtain ⟨entries, error, b'⟩ := result
  obtain rfl : error = some e := fails
  exact ⟨rfl, restored⟩

end Script.Bench

end Emitter
