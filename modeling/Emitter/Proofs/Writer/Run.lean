import Emitter.Writer.Finish

/-! Everything that can be asked of a writer, as data, and runs of it in any order, failing calls
included. As the opening of a closure form, the calls of its body and its leave stand alone here, a
run can also stop inside a body. Finishing makes the calls of the hook first, so what is said of the
calls of a run is said of those as well. -/

namespace Emitter.Writer

namespace Edit

/-- What the call does to the text. -/
def apply : Edit → Draft → Draft
  | write text => (·.write text)
  | writeChar c => (·.push c)
  | writeLine text => (·.writeLine text)
  | blankLine => (·.push '\n')
  | leftAdjusted text => (·.writeLeftAdjusted text)
  | indented text => (·.writeIndented text)
  | separate => Draft.separate

/-- The calls that need an empty line. -/
def line? : Edit → Option LineOperation
  | leftAdjusted _ => some .leftAdjusted
  | indented _ => some .indented
  | _ => none

end Edit

/-- The token that a call is given. -/
def Call.token? : Call → Option Token
  | .close token => some token
  | .leave token _ => some token
  | _ => none

theorem edited_eq (w : Writer) (edit : Edit) :
    w.edited edit = match edit.line? with
      | none => w.edit edit.apply
      | some operation => w.editFresh operation edit.apply := by
  cases edit <;> rfl

/-- The write to the file goes through or breaks off, and the dialect is changed at will. -/
inductive Operation where
  | call (call : Call)
  | finishing (broken : Option Break)
  | setDialect (dialect : Dialect)

namespace Operation

@[match_pattern] abbrev edit (edit : Edit) : Operation := call (.edit edit)

@[match_pattern] abbrev noSeparation : Operation := call .noSeparation

@[match_pattern] abbrev open_ (opening : Opening) : Operation := call (.open_ opening)

@[match_pattern] abbrev close (token : Token) : Operation := call (.close token)

@[match_pattern] abbrev leave (token : Token) (result : Except Error Unit) : Operation :=
  call (.leave token result)

@[match_pattern] abbrev finish : Operation := finishing none

end Operation

/-- How an operation ends, and the writer and the disk after it. -/
def perform (w : Writer) (d : Disk) : Operation → Except Error Unit × Writer × Disk
  | .call call =>
    let (result, w) := w.call call
    (result, w, d)
  | .finishing broken => w.finish d broken
  | .setDialect dialect => (.ok (), { w with dialect }, d)

/-- What the hook does, as operations. -/
def hookCalls (w : Writer) : List Operation :=
  let deeds := w.dialect.hook.deeds w.view
  deeds.calls.map .call ++ match deeds.state with
    | none => []
    | some state => [.setDialect (w.dialect.enter state)]

/-- All that is done where an operation is asked for: finishing has the hook do its part. -/
def made (w : Writer) : Operation → List Operation
  | .finishing broken => .finishing broken :: if w.finished then [] else w.hookCalls
  | operation => [operation]

theorem mem_made (w : Writer) (operation : Operation) : operation ∈ w.made operation := by
  cases operation <;> exact List.mem_cons_self

/-- Runs of operations that are allowed, between which others change the disk as they may. -/
inductive Run (allowed : Operation → Prop) (others : Disk → Disk → Prop) :
    Writer × Disk → Writer × Disk → Prop
  | refl (s : Writer × Disk) : Run allowed others s s
  | step {s : Writer × Disk} {w : Writer} {d : Disk} (run : Run allowed others s (w, d))
      (operation : Operation) (h : ∀ made ∈ w.made operation, allowed made) :
      Run allowed others s (w.perform d operation).2
  | wait {s : Writer × Disk} {w : Writer} {d d' : Disk} (run : Run allowed others s (w, d))
      (h : others d d') : Run allowed others s (w, d')

theorem Run.next {allowed : Operation → Prop} {others : Disk → Disk → Prop}
    {s t : Writer × Disk} (run : Run allowed others s t) (operation : Operation)
    (h : ∀ made ∈ t.1.made operation, allowed made) :
    Run allowed others s (t.1.perform t.2 operation).2 :=
  run.step operation h

theorem Run.trans {allowed : Operation → Prop} {others : Disk → Disk → Prop}
    {s t u : Writer × Disk} (first : Run allowed others s t) (second : Run allowed others t u) :
    Run allowed others s u := by
  induction second with
  | refl => exact first
  | step _ operation h ih => exact ih.step operation h
  | wait _ h ih => exact ih.wait h

theorem Run.mono {allowed allowed' : Operation → Prop} {others others' : Disk → Disk → Prop}
    (h : ∀ operation, allowed operation → allowed' operation)
    (h' : ∀ d d', others d d' → others' d d') {s t : Writer × Disk} (run : Run allowed others s t) :
    Run allowed' others' s t := by
  induction run with
  | refl => exact .refl _
  | step _ operation may ih => exact ih.step operation fun made mem => h made (may made mem)
  | wait _ may ih => exact ih.wait (h' _ _ may)

/-- What each operation and each change by others keeps, a run keeps. -/
theorem Run.keeps {allowed : Operation → Prop} {others : Disk → Disk → Prop}
    (P : Writer → Disk → Prop)
    (step : ∀ w d operation, (∀ made ∈ w.made operation, allowed made) → P w d →
      P (w.perform d operation).2.1 (w.perform d operation).2.2)
    (wait : ∀ w d d', others d d' → P w d → P w d') {s t : Writer × Disk}
    (run : Run allowed others s t) (start : P s.1 s.2) : P t.1 t.2 := by
  induction run with
  | refl => exact start
  | step _ operation h ih => exact step _ _ operation h ih
  | wait _ h ih => exact wait _ _ _ h ih

/-- Operations in order, on one disk. -/
def performAll (s : Writer × Disk) (operations : List Operation) : Writer × Disk :=
  operations.foldl (fun s operation => (s.1.perform s.2 operation).2) s

theorem performAll_append (s : Writer × Disk) (a b : List Operation) :
    performAll s (a ++ b) = performAll (performAll s a) b :=
  List.foldl_append

theorem run_performAll {allowed : Operation → Prop} {others : Disk → Disk → Prop}
    {operations : List Operation}
    (h : ∀ operation ∈ operations, ∀ w : Writer, ∀ made ∈ w.made operation, allowed made)
    {s t : Writer × Disk} (run : Run allowed others s t) :
    Run allowed others s (performAll t operations) := by
  induction operations generalizing t with
  | nil => exact run
  | cons operation rest ih =>
    rw [List.forall_mem_cons] at h
    exact ih h.2 (run.next operation (h.1 _))

/-- A new writer has an empty draft. -/
theorem new_of_create {path : Path} {settings : Settings} {dialect : Dialect} {d : Disk}
    {w : Writer} (h : (create path settings dialect d).1 = .ok w) :
    w.dialect = dialect ∧ w.draft = { unit := settings.indent } ∧ w.finished = false := by
  unfold create at h
  dsimp only at h
  split at h <;> cases h
  exact ⟨rfl, rfl, rfl⟩

/-- Reached from the creation of a writer by operations of any kind on any disk. -/
def Reachable (w : Writer) : Prop :=
  ∃ path settings dialect d₀ w₀ d₁ d, create path settings dialect d₀ = (.ok w₀, d₁) ∧
    Run (fun _ => True) (fun _ _ => True) (w₀, d₁) (w, d)

theorem Reachable.run {allowed : Operation → Prop} {others : Disk → Disk → Prop} {w : Writer}
    {d : Disk} {s : Writer × Disk} (h : w.Reachable) (run : Run allowed others (w, d) s) :
    s.1.Reachable := by
  obtain ⟨path, settings, dialect, d₀, w₀, d₁, d', created, before⟩ := h
  have here : Run (fun _ => True) (fun _ _ => True) (w₀, d₁) (w, d) := before.wait trivial
  have after := run.mono (fun _ _ => trivial) (fun _ _ _ => trivial)
  exact ⟨path, settings, dialect, d₀, w₀, d₁, s.2, created, here.trans after⟩

/-- One more operation. -/
theorem Reachable.perform {w : Writer} (h : w.Reachable) (d : Disk) (operation : Operation) :
    (w.perform d operation).2.1.Reachable :=
  have run : Run (fun _ => True) (fun _ _ => True) (w, d) (w.perform d operation).2 :=
    .step (.refl (w, d)) operation fun _ _ => trivial
  h.run run

/-- What holds of a new writer, and is kept by each operation, holds of all writers. -/
theorem Reachable.keeps (P : Writer → Prop)
    (start : ∀ path settings dialect d w d', create path settings dialect d = (.ok w, d') → P w)
    (step : ∀ w d operation, P w → P (w.perform d operation).2.1) {w : Writer}
    (h : w.Reachable) : P w := by
  obtain ⟨path, settings, dialect, d₀, w₀, d₁, d, created, run⟩ := h
  exact run.keeps (fun w _ => P w) (fun w d operation _ => step w d operation)
    (fun _ _ _ _ kept => kept) (start path settings dialect d₀ w₀ d₁ created)

/-! ## What calls do to a writer -/

theorem edit_eq_ok {w w' : Writer} {f : Draft → Draft} (h : w.edit f = .ok w') :
    w.finished = false ∧ w' = { w with draft := f w.draft } := by
  unfold edit at h
  split at h
  · exact nomatch h
  · next unfinished => exact ⟨by simpa using unfinished, (Except.ok.inj h).symm⟩

theorem editFresh_eq_ok {w w' : Writer} {operation : LineOperation} {f : Draft → Draft}
    (h : w.editFresh operation f = .ok w') :
    w.finished = false ∧ w' = { w with draft := f w.draft } := by
  unfold editFresh at h
  split at h
  · exact nomatch h
  split at h
  · next unfinished _ => exact ⟨by simpa using unfinished, (Except.ok.inj h).symm⟩
  · exact nomatch h

theorem edited_eq_ok {w w' : Writer} {edit : Edit} (h : w.edited edit = .ok w') :
    w.finished = false ∧ w' = { w with draft := edit.apply w.draft } := by
  rw [edited_eq] at h
  split at h
  · exact edit_eq_ok h
  · exact editFresh_eq_ok h

/-- The last line of a scope is an edit like others. -/
theorem writeClosing_eq_ok {w w' : Writer} {frame : Frame} (h : w.writeClosing frame = .ok w') :
    w' = w ∨ ∃ edit, w.edited edit = .ok w' := by
  cases frame with
  | indent id level closing =>
    cases closing with
    | none => exact .inl (Except.ok.inj h).symm
    | some line => exact .inr ⟨.writeLine line, h⟩
  | leftAdjusted id level line => exact .inr ⟨.leftAdjusted line, h⟩
  | linePrefix => exact .inl (Except.ok.inj h).symm

end Emitter.Writer
