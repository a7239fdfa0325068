import Emitter.Proofs.Scope.Calls

/-! Finishing a writer, and all the ways in which it ends. The hook goes first, and what its calls
keep it keeps; then the file is written if nothing is in the way. -/

namespace Emitter

/-- A dialect is in a state of its own. -/
theorem Dialect.exists_enter (dialect : Dialect) : ∃ state, dialect.enter state = dialect := by
  cases dialect with
  | custom language state => exact ⟨state, rfl⟩
  | _ => exact ⟨0, rfl⟩

@[simp] theorem Dialect.enter_enter (dialect : Dialect) (state state' : Nat) :
    (dialect.enter state).enter state' = dialect.enter state' := by
  cases dialect <;> rfl

/-- The hook makes no other calls, whatever it finds. -/
def Dialect.CallsOnly (allowed : Writer.Call → Prop) (dialect : Dialect) : Prop :=
  ∀ view, ∀ call ∈ (dialect.hook.deeds view).calls, allowed call

namespace Writer

/-! ## The hook -/

/-- The writer as its hook leaves it. -/
def prepared (w : Writer) : Writer := w.beforeFinish.2

theorem performAll_calls (w : Writer) (d : Disk) (calls : List Call) :
    performAll (w, d) (calls.map .call) = (w.callAll calls, d) := by
  induction calls generalizing w with
  | nil => rfl
  | cons call rest ih => exact ih (w.call call).2

/-- The hook has no means that others do not have. -/
theorem performAll_hookCalls (w : Writer) (d : Disk) :
    performAll (w, d) w.hookCalls = (w.prepared, d) := by
  rw [hookCalls, performAll_append, performAll_calls, prepared, beforeFinish]
  cases (w.dialect.hook.deeds w.view).state <;> rfl

theorem callAll_keeps (P : Writer → Prop) {calls : List Call}
    (call : ∀ w, ∀ c ∈ calls, P w → P (w.call c).2) {w : Writer} (start : P w) :
    P (w.callAll calls) := by
  induction calls generalizing w with
  | nil => exact start
  | cons first rest ih =>
    exact ih (fun w c mem => call w c (List.mem_cons_of_mem _ mem))
      (call w first List.mem_cons_self start)

/-- What the calls of the hook keep, and a change of the dialect keeps, the hook keeps. -/
theorem prepared_keeps (allowed : Operation → Prop) (P : Writer → Prop)
    (call : ∀ w call, allowed (.call call) → P w → P (w.call call).2)
    (enter : ∀ w dialect, P w → P { w with dialect }) {w : Writer}
    (h : ∀ made ∈ w.hookCalls, allowed made) (start : P w) : P w.prepared := by
  have called : P (w.callAll (w.dialect.hook.deeds w.view).calls) :=
    callAll_keeps P (fun w' c mem => call w' c
      (h (.call c) (List.mem_append_left _ (List.mem_map_of_mem mem)))) start
  rw [prepared, beforeFinish]
  split
  · exact called
  · exact enter _ _ called

/-- A hook that makes no other calls does nothing else, but for the change of its state. -/
theorem allowed_of_callsOnly {w : Writer} {allowed : Operation → Prop}
    (calls : w.dialect.CallsOnly fun call => allowed (.call call))
    (dialects : ∀ dialect, allowed (.setDialect dialect)) : ∀ made ∈ w.hookCalls, allowed made := by
  intro made mem
  rcases List.mem_append.1 mem with mem | mem
  · obtain ⟨call, here, rfl⟩ := List.mem_map.1 mem
    exact calls w.view call here
  · split at mem
    · cases mem
    · rw [List.mem_singleton.1 mem]
      exact dialects _

/-- What the calls of a hook keep that makes no other ones, and a change of the dialect keeps, the hook
keeps. -/
theorem prepared_keeps_of_callsOnly {allowed : Call → Prop} (P : Writer → Prop)
    (call : ∀ w call, allowed call → P w → P (w.call call).2)
    (enter : ∀ w dialect, P w → P { w with dialect }) {w : Writer}
    (calls : w.dialect.CallsOnly allowed) (start : P w) : P w.prepared := by
  refine prepared_keeps (fun operation => ∀ c, operation = .call c → allowed c) P
    (fun w c may => call w c (may c rfl)) enter (allowed_of_callsOnly ?_ fun _ => nofun) start
  intro view c mem made same
  cases same
  exact calls view c mem

theorem callAll_frame (w : Writer) (calls : List Call) :
    ∃ draft, w.callAll calls = { w with draft } := by
  refine callAll_keeps (fun w' => ∃ draft, w' = { w with draft }) ?_ ⟨w.draft, rfl⟩
  rintro _ call - ⟨draft, rfl⟩
  exact call_frame { w with draft } call

/-- The hook changes the draft, and the state of its language. -/
theorem prepared_frame (w : Writer) :
    ∃ draft state, w.prepared = { w with draft, dialect := w.dialect.enter state } := by
  obtain ⟨draft, called⟩ := w.callAll_frame (w.dialect.hook.deeds w.view).calls
  rw [prepared, beforeFinish, called]
  split
  · obtain ⟨state, same⟩ := w.dialect.exists_enter
    exact ⟨draft, state, by rw [same]⟩
  · exact ⟨draft, _, rfl⟩

theorem prepared_of_hookCalls_nil {w : Writer} (none : w.hookCalls = []) : w.prepared = w := by
  have same := performAll_hookCalls w (.empty ⟨"/"⟩)
  rw [none] at same
  exact (congrArg Prod.fst same).symm

theorem prepared_of_idle {w : Writer} (idle : w.dialect.hook = .idle) : w.prepared = w := by
  apply prepared_of_hookCalls_nil
  rw [hookCalls, idle]
  rfl

/-! ## The ways to end -/

/-- Nothing is open that would have to be closed. -/
def Closed (w : Writer) : Prop := w.draft.level = 0 ∧ w.draft.scopes = []

/-- The bytes that finishing puts in the file if the write goes through. -/
def bytes (w : Writer) : Bytes := w.settings.format.render w.prepared.render

/-- The writer after the write. -/
def committed (w : Writer) : Writer :=
  { w.prepared with
    output := { w.output with held := none }
    finished := true
    draft := { w.prepared.draft with body := "" } }

/-- How finishing can end: it is not the first time, the hook refuses, scopes are open, the file is
not held any more, it is written, or the write breaks off. -/
inductive Ends (w : Writer) (d : Disk) :
    Option Break → Except Error Unit × Writer × Disk → Prop
  | finished {broken : Option Break} (finished : w.finished = true) :
    Ends w d broken (.error (.alreadyFinished w.path), w, d)
  | refused {broken : Option Break} {e : Error} (unfinished : w.finished = false)
    (refuses : w.beforeFinish.1 = .error e) : Ends w d broken (.error e, w.prepared, d)
  | unclosed {broken : Option Break} (unfinished : w.finished = false)
    (accepts : w.beforeFinish.1 = .ok ()) (open_ : ¬ w.prepared.Closed) :
    Ends w d broken (.error (.unclosedScopes w.path w.prepared.draft.depth), w.prepared, d)
  | gone {broken : Option Break} (unfinished : w.finished = false)
    (accepts : w.beforeFinish.1 = .ok ()) (closed : w.prepared.Closed)
    (held : w.output.held = none) :
    Ends w d broken (.error (.alreadyFinished w.path), w.committed, d)
  | written {id : FileId} (unfinished : w.finished = false) (accepts : w.beforeFinish.1 = .ok ())
    (closed : w.prepared.Closed) (held : w.output.held = some id) :
    Ends w d none (.ok (), w.committed, (d.overwrite id w.bytes).unlock id)
  | brokenOff {b : Break} {id : FileId} (unfinished : w.finished = false)
    (accepts : w.beforeFinish.1 = .ok ()) (closed : w.prepared.Closed)
    (held : w.output.held = some id) :
    Ends w d (some b) (.error (.io w.path b.fault), w.committed,
      (d.overwrite id (w.bytes.take b.written)).unlock id)

/-- Nothing is in the way of the write. -/
theorem finish_closed {w : Writer} (unfinished : w.finished = false)
    (accepts : w.beforeFinish.1 = .ok ()) (closed : w.prepared.Closed) (d : Disk)
    (broken : Option Break) :
    w.finish d broken =
      let (result, output, d) := w.output.commit w.prepared.render w.settings.format d broken
      (result.map fun _ => (), { w.committed with output }, d) := by
  have hook : w.beforeFinish = (.ok (), w.prepared) := Prod.ext accepts rfl
  have commits : w.prepared.output.commit w.prepared.render w.prepared.settings.format d broken =
      w.output.commit w.prepared.render w.settings.format d broken := by
    obtain ⟨draft, state, frame⟩ := prepared_frame w
    have same : w.prepared.output = w.output ∧ w.prepared.settings = w.settings := by
      rw [frame]
      exact ⟨rfl, rfl⟩
    rw [same.1, same.2]
  have nothing : ¬(w.prepared.draft.level > 0 ∨ w.prepared.draft.scopes ≠ []) := by
    rw [closed.1, closed.2]
    simp
  rw [finish, unfinished, hook]
  simp only [Bool.false_eq_true, if_false, if_neg nothing, commits]
  rfl

theorem Ends.finish_eq {w : Writer} {d : Disk} {broken : Option Break}
    {result : Except Error Unit × Writer × Disk} (ends : w.Ends d broken result) :
    w.finish d broken = result := by
  cases ends with
  | finished finished => rw [finish, if_pos finished]
  | @refused _ e unfinished refuses =>
    have hook : w.beforeFinish = (.error e, w.prepared) := Prod.ext refuses rfl
    simp [finish, unfinished, hook]
  | unclosed unfinished accepts open_ =>
    have hook : w.beforeFinish = (.ok (), w.prepared) := Prod.ext accepts rfl
    have path : w.prepared.path = w.path := by
      obtain ⟨draft, state, frame⟩ := prepared_frame w
      rw [frame]
      rfl
    have unclosed : w.prepared.draft.level > 0 ∨ w.prepared.draft.scopes ≠ [] := by
      by_cases level : w.prepared.draft.level = 0
      · exact .inr fun none => open_ ⟨level, none⟩
      · exact .inl (Nat.pos_of_ne_zero level)
    rw [finish, unfinished, hook]
    simp only [Bool.false_eq_true, if_false, if_pos unclosed, path]
  | gone unfinished accepts closed held =>
    have released : { w.output with held := none } = w.output := by rw [← held]
    rw [finish_closed unfinished accepts closed, Output.commit, held, committed, released]
    rfl
  | written unfinished accepts closed held | brokenOff unfinished accepts closed held =>
    rw [finish_closed unfinished accepts closed, Output.commit, held]
    rfl

theorem finish_ends (w : Writer) (d : Disk) (broken : Option Break) :
    w.Ends d broken (w.finish d broken) := by
  have total : ∃ result, w.Ends d broken result := by
    cases finished : w.finished with
    | true => exact ⟨_, .finished finished⟩
    | false =>
      cases hook : w.beforeFinish.1 with
      | error e => exact ⟨_, .refused finished hook⟩
      | ok =>
        by_cases closed : w.prepared.Closed
        · cases held : w.output.held with
          | none => exact ⟨_, .gone finished hook closed held⟩
          | some id =>
            cases broken with
            | none => exact ⟨_, .written finished hook closed held⟩
            | some b => exact ⟨_, .brokenOff finished hook closed held⟩
        · exact ⟨_, .unclosed finished hook closed⟩
  obtain ⟨result, ends⟩ := total
  rw [ends.finish_eq]
  exact ends

theorem finish_finished {w : Writer} (finished : w.finished = true) (d : Disk)
    (broken : Option Break) :
    w.finish d broken = (.error (.alreadyFinished w.path), w, d) :=
  (Ends.finished finished).finish_eq

theorem finish_unclosed {w : Writer} (unfinished : w.finished = false)
    (accepts : w.beforeFinish.1 = .ok ()) (open_ : ¬ w.prepared.Closed) (d : Disk)
    (broken : Option Break) : w.finish d broken =
      (.error (.unclosedScopes w.path w.prepared.draft.depth), w.prepared, d) :=
  (Ends.unclosed unfinished accepts open_).finish_eq

/-- A writer that holds its file writes it if the hook allows it and no scope is open. -/
theorem finish_ok_iff_prepared {w : Writer} (unfinished : w.finished = false) {id : FileId}
    (held : w.output.held = some id) (d : Disk) :
    (w.finish d).1 = .ok () ↔ w.beforeFinish.1 = .ok () ∧ w.prepared.Closed := by
  have ends := w.finish_ends d none
  generalize w.finish d = result at ends
  cases ends with
  | finished finished => cases unfinished.symm.trans finished
  | refused _ refuses => simp [refuses]
  | unclosed _ _ open_ => simp [open_]
  | gone _ _ _ gone => cases held.symm.trans gone
  | written _ accepts closed => exact iff_of_true rfl ⟨accepts, closed⟩

/-- A writer lets go of its file, with all of its text in it if that is a success, or keeps its
output and the disk. -/
theorem finish_cases (w : Writer) (d : Disk) (broken : Option Break) :
    ((w.finish d broken).1 ≠ .ok () ∧ (w.finish d broken).2.1.output = w.output ∧
        (w.finish d broken).2.2 = d) ∨
      ∃ id written, w.output.held = some id ∧ (w.finish d broken).2 =
          (w.committed, (d.overwrite id written).unlock id) ∧
        ((w.finish d broken).1 = .ok () → written = w.bytes) := by
  have refused : ∀ e : Error, (.error e : Except Error Unit) ≠ .ok () := by simp
  obtain ⟨draft, state, frame⟩ := prepared_frame w
  have ends := w.finish_ends d broken
  generalize w.finish d broken = result at ends
  cases ends with
  | finished => exact .inl ⟨refused _, rfl, rfl⟩
  | refused => exact .inl ⟨refused _, by rw [frame], rfl⟩
  | unclosed => exact .inl ⟨refused _, by rw [frame], rfl⟩
  | gone _ _ _ held =>
    refine .inl ⟨refused _, ?_, rfl⟩
    rw [committed, ← held]
  | written _ _ _ held => exact .inr ⟨_, _, held, rfl, fun _ => rfl⟩
  | brokenOff _ _ _ held => exact .inr ⟨_, _, held, rfl, fun succeeds => absurd succeeds (refused _)⟩

/-- However finishing ends, the writer is for the same directory and its dialect of the same family. -/
theorem finish_frame (w : Writer) (d : Disk) (broken : Option Break) :
    (∃ state, (w.finish d broken).2.1.dialect = w.dialect.enter state) ∧
      (w.finish d broken).2.1.directory = w.directory ∧
      (w.finish d broken).2.2.working = d.working := by
  obtain ⟨draft, state, frame⟩ := prepared_frame w
  have prepared : w.prepared.dialect = w.dialect.enter state ∧
      w.prepared.directory = w.directory := by
    rw [frame]
    exact ⟨rfl, rfl⟩
  have ends := w.finish_ends d broken
  generalize w.finish d broken = result at ends
  cases ends with
  | finished =>
    obtain ⟨state, same⟩ := w.dialect.exists_enter
    exact ⟨⟨state, same.symm⟩, rfl, rfl⟩
  | refused | unclosed | gone | written | brokenOff => exact ⟨⟨state, prepared.1⟩, prepared.2, rfl⟩

/-- All operations but finishing leave the disk alone, and the output of the writer. -/
theorem perform_frame (w : Writer) (d : Disk) (operation : Operation) :
    (∃ broken, operation = .finishing broken) ∨
      ∃ draft dialect, (w.perform d operation).2 = ({ w with draft, dialect }, d) := by
  cases operation with
  | call call =>
    obtain ⟨draft, called⟩ := call_frame w call
    exact .inr ⟨draft, w.dialect, congrArg (·, d) called⟩
  | finishing broken => exact .inl ⟨broken, rfl⟩
  | setDialect dialect => exact .inr ⟨w.draft, dialect, rfl⟩

/-! ## What operations keep -/

/-- What each call keeps of a draft whatever its text, each operation keeps. -/
theorem draft_perform (allowed : Operation → Prop) (P : Draft → Prop)
    (text : ∀ draft body, P draft → P { draft with body })
    (call : ∀ (w : Writer) call, allowed (.call call) → P w.draft → P (w.call call).2.draft)
    {w : Writer} {operation : Operation} (h : ∀ made ∈ w.made operation, allowed made) (d : Disk)
    (start : P w.draft) : P (w.perform d operation).2.1.draft := by
  cases operation with
  | call c => exact call w c (h _ (w.mem_made _)) start
  | setDialect dialect => exact start
  | finishing broken =>
    rw [perform]
    have kept (unfinished : w.finished = false) : P w.prepared.draft := by
      refine prepared_keeps allowed (fun w => P w.draft) call (fun _ _ kept => kept)
        (fun made mem => h made ?_) start
      rw [Writer.made, unfinished]
      exact List.mem_cons_of_mem _ mem
    have ends := w.finish_ends d broken
    generalize w.finish d broken = result at ends
    cases ends with
    | finished => exact start
    | refused unfinished | unclosed unfinished => exact kept unfinished
    | gone unfinished | written unfinished | brokenOff unfinished => exact text _ _ (kept unfinished)

end Writer

end Emitter
