import Emitter.Proofs.Scope.Return

/-! Finishing again after it failed. An attempt that fails before the write runs the hook first and
changes nothing else, so that a run ends as it would without the attempt, but for what the hook did. -/

namespace Emitter.Writer

/-- A call on the writer, or what others do to the disk in between. -/
inductive Event where
  | call (operation : Operation)
  | others (change : Disk → Disk)

def happen (s : Writer × Disk) : Event → Writer × Disk
  | .call operation => (s.1.perform s.2 operation).2
  | .others change => (s.1, change s.2)

def happenAll (s : Writer × Disk) (events : List Event) : Writer × Disk := events.foldl happen s

/-- What stands for an event in a run without attempts to finish that fail before the write: for such
an attempt the calls of the hook alone. -/
def lasting (s : Writer × Disk) : Event → List Event
  | .call (.finishing broken) =>
    if s.1.finished then []
    else if (s.1.finish s.2 broken).2.1.finished then [.call (.finishing broken)]
    else s.1.hookCalls.map .call
  | event => [event]

def lastingAll (s : Writer × Disk) : List Event → List Event
  | [] => []
  | event :: rest => lasting s event ++ lastingAll (happen s event) rest

theorem happenAll_append (s : Writer × Disk) (a b : List Event) :
    happenAll s (a ++ b) = happenAll (happenAll s a) b :=
  List.foldl_append

/-! ## One attempt -/

theorem happenAll_call (s : Writer × Disk) (operations : List Operation) :
    happenAll s (operations.map .call) = performAll s operations := by
  rw [happenAll, List.foldl_map]
  rfl

theorem happenAll_hookCalls (w : Writer) (d : Disk) :
    happenAll (w, d) (w.hookCalls.map .call) = (w.prepared, d) := by
  rw [happenAll_call, performAll_hookCalls]

/-- An attempt that leaves the writer unfinished leaves what the hook leaves. -/
theorem finish_unwritten {w : Writer} {d : Disk} {broken : Option Break}
    (still : (w.finish d broken).2.1.finished = false) (unfinished : w.finished = false) :
    (w.finish d broken).2 = (w.prepared, d) := by
  have ends := w.finish_ends d broken
  generalize w.finish d broken = result at ends still
  cases ends with
  | finished finished => cases unfinished.symm.trans finished
  | refused | unclosed => rfl
  | gone | written | brokenOff => cases still

theorem finish_error {w : Writer} (reachable : w.Reachable) (unfinished : w.finished = false)
    {d : Disk} {e : Error} (fails : (w.finish d).1 = .error e) :
    (w.finish d).2 = (w.prepared, d) := by
  obtain ⟨id, held⟩ := held_of_reachable reachable unfinished
  have ends := w.finish_ends d none
  generalize w.finish d = result at ends fails
  cases ends with
  | finished finished => cases unfinished.symm.trans finished
  | refused | unclosed => rfl
  | gone _ _ _ gone => cases held.symm.trans gone
  | written => cases fails

theorem prepared_footer {w : Writer} (unfinished : w.finished = false)
    (footer : w.dialect.hook = .footer) :
    w.prepared.draft = w.draft.separate.writeLine "# end" := by
  obtain ⟨dialect, output, directory, settings, draft, finished⟩ := w
  obtain rfl : finished = false := unfinished
  rw [prepared, beforeFinish, footer]
  rfl

/-! ## Runs -/

theorem reachable_happen {s : Writer × Disk} (h : s.1.Reachable) (event : Event) :
    (happen s event).1.Reachable := by
  cases event with
  | call operation => exact h.perform s.2 operation
  | others change => exact h

/-- One event and what stands for it come to the same. -/
theorem happenAll_lasting (s : Writer × Disk) (event : Event) :
    happenAll s (lasting s event) = happen s event := by
  unfold lasting
  split
  · next broken =>
    split
    · next finished =>
      rw [happen, perform, finish_finished finished]
      rfl
    · next unfinished =>
      rw [Bool.not_eq_true] at unfinished
      split
      · rfl
      · next still =>
        -- The check comes after the hook, so only what the hook did is left of the attempt.
        rw [Bool.not_eq_true] at still
        rw [happen, perform, finish_unwritten still unfinished]
        exact happenAll_hookCalls s.1 s.2
  · rfl

theorem happenAll_lastingAll (s : Writer × Disk) (events : List Event) :
    happenAll s (lastingAll s events) = happenAll s events := by
  induction events generalizing s with
  | nil => rfl
  | cons event rest ih =>
    rw [lastingAll, happenAll_append, happenAll_lasting s event]
    exact ih (happen s event)

/-- Where there is no hook the failing attempts are left out, and nothing else is changed. -/
theorem lasting_sublist {s : Writer × Disk} (none : s.1.hookCalls = []) (event : Event) :
    (lasting s event).Sublist [event] := by
  unfold lasting
  split
  · split
    · exact List.nil_sublist _
    · rw [none, List.map_nil]
      split
      · exact .refl _
      · exact List.nil_sublist _
  · exact .refl _

theorem lastingAll_sublist {s : Writer × Disk} {events : List Event}
    (none : ∀ before, before <+: events → (happenAll s before).1.hookCalls = []) :
    (lastingAll s events).Sublist events := by
  induction events generalizing s with
  | nil => exact .refl _
  | cons event rest ih =>
    have first : s.1.hookCalls = [] := none [] List.nil_prefix
    have later : ∀ before, before <+: rest →
        (happenAll (happen s event) before).1.hookCalls = [] :=
      fun before inside => none (event :: before) (List.prefix_cons_inj event |>.2 inside)
    exact (lasting_sublist first event).append (ih later)

/-- An attempt to finish that fails, because of open scopes or of the hook, leaves the writer
unfinished and the file alone, and of the writer changes only what the hook changes: nothing without
a hook, no scope with one that adds text, and the text alone with one that writes a footer. Any number
of such attempts can be left out of a run if the calls of the hook are put in their places: the writer
and the disk, and so the file that is written in the end, are the same. Without a hook nothing is put
there. -/
theorem finish_failed {w : Writer} (reachable : w.Reachable) (unfinished : w.finished = false)
    (d : Disk) :
    (∀ e, (w.finish d).1 = .error e →
      (w.finish d).2 = happenAll (w, d) (w.hookCalls.map .call) ∧
      (w.finish d).2.1.finished = false ∧ (w.finish d).2.2 = d ∧
      (w.hookCalls = [] → (w.finish d).2.1 = w) ∧
      (w.dialect.Finishes → (w.finish d).2.1.draft.nesting = w.draft.nesting) ∧
      (w.dialect.hook = .footer →
        (w.finish d).2.1.draft.nesting = w.draft.nesting ∧
        (w.finish d).2.1.draft = w.draft.separate.writeLine "# end")) ∧
    ∀ events, happenAll (w, d) (lastingAll (w, d) events) = happenAll (w, d) events ∧
      ((∀ before, before <+: events → (happenAll (w, d) before).1.hookCalls = []) →
        (lastingAll (w, d) events).Sublist events) := by
  refine ⟨fun e fails => ?_, fun events => ⟨happenAll_lastingAll (w, d) events,
    lastingAll_sublist⟩⟩
  obtain ⟨draft, state, frame⟩ := prepared_frame w
  have still : w.prepared.finished = false := by rw [frame, unfinished]
  rw [finish_error reachable unfinished fails]
  refine ⟨(happenAll_hookCalls w d).symm, still, rfl, prepared_of_hookCalls_nil, nesting_prepared,
    fun footer => ?_⟩
  have footed := prepared_footer unfinished footer
  refine ⟨?_, footed⟩
  rw [footed, Draft.nesting_writeLine, Draft.nesting_separate]

/-- A file is finished twice too early, once with two scopes open and once with one. -/
theorem finish_failed_twice :
    let w : Writer := {
      dialect := .cLike, output := ⟨⟨"a"⟩, some 0⟩, directory := ⟨"/"⟩, settings := {}
      draft := { unit := .spaces 4 }, finished := false }
    let d : Disk := ⟨⟨"/"⟩, [(["a"], .file 0)], [[]], [0]⟩
    let opens : List Event := [.call (.open_ .block), .call (.open_ (.linePrefix "> "))]
    let prefixed : List Event := [.call (.close ⟨1, .linePrefix⟩)]
    let block : List Event := [.call (.close ⟨0, .indent⟩), .call .finish]
    let s := happenAll (w, d) opens
    let attempts := .call .finish :: prefixed ++ .call .finish :: block
    (s.1.Reachable ∧ s.1.finished = false ∧
      (s.1.finish s.2).1 = .error (.unclosedScopes ⟨"a"⟩ 2)) ∧
      (s.1.finish s.2).2 = s ∧ lastingAll s attempts = prefixed ++ block ∧
      happenAll s (prefixed ++ block) = happenAll s attempts ∧
      (happenAll s attempts).2.content 0 = [123, 10, 125, 10] := by
  intro w d opens prefixed block s attempts
  have created : create ⟨"a"⟩ {} .cLike (.empty ⟨"/"⟩) = (.ok w, d) := rfl
  have start : (w, d).1.Reachable := ⟨_, _, _, _, w, _, _, created, .refl _⟩
  have inBlock := reachable_happen start (.call (.open_ .block))
  have reachable : s.1.Reachable := reachable_happen inBlock (.call (.open_ (.linePrefix "> ")))
  have unfinished : s.1.finished = false := rfl
  have fails : (s.1.finish s.2).1 = .error (.unclosedScopes ⟨"a"⟩ 2) := rfl
  have lasts : lastingAll s attempts = prefixed ++ block := by
    let t := happenAll s prefixed
    have first : lasting s (.call .finish) = [] ∧ happen s (.call .finish) = s := ⟨rfl, rfl⟩
    have second : lasting t (.call .finish) = [] ∧ happen t (.call .finish) = t := ⟨rfl, rfl⟩
    have third : lasting (happen t (.call (.close ⟨0, .indent⟩))) (.call .finish) =
        [.call .finish] := rfl
    calc lastingAll s attempts
      _ = lastingAll s (prefixed ++ .call .finish :: block) := by
        show lasting s (.call .finish) ++ lastingAll (happen s (.call .finish)) _ = _
        rw [first.1, first.2]
        rfl
      _ = prefixed ++ lastingAll t (.call .finish :: block) := rfl
      _ = prefixed ++ lastingAll t block := by
        rw [lastingAll, second.1, second.2]
        rfl
      _ = prefixed ++ block := by
        rw [lastingAll, lastingAll, third]
        rfl
  obtain ⟨attempt, run⟩ := finish_failed reachable unfinished s.2
  obtain ⟨-, -, disk, writer, -⟩ := attempt _ fails
  have same := (run attempts).1
  rw [lasts] at same
  exact ⟨⟨reachable, unfinished, fails⟩, Prod.ext (writer rfl) disk, lasts, same, by decide⟩

/-- A footer that was written by a failing attempt is there to stay, indented like the open scope,
and the next attempt adds another one. -/
theorem finish_footer_twice :
    let w : Writer := {
      dialect := .hooked .footer, output := ⟨⟨"a"⟩, some 0⟩, directory := ⟨"/"⟩, settings := {}
      draft := { unit := .spaces 4 }, finished := false }
    let d : Disk := ⟨⟨"/"⟩, [(["a"], .file 0)], [[]], [0]⟩
    let s := performAll (w, d) [.edit (.writeLine "x"), .open_ (.indent none none)]
    let rest : List Operation := [.close ⟨0, .indent⟩, .finish]
    s.1.Reachable ∧ (s.1.finish s.2).1 = .error (.unclosedScopes ⟨"a"⟩ 1) ∧
      s.1.draft.body = "x\n" ∧ (s.1.finish s.2).2.1.draft.body = "x\n\n    # end\n" ∧
      (performAll s rest).2.content 0 = Text.Utf8.encode "x\n\n# end\n".toList ∧
      (performAll s (.finish :: rest)).2.content 0 =
        Text.Utf8.encode "x\n\n    # end\n\n# end\n".toList ∧
      (performAll s (.finish :: rest)).2.content 0 ≠ (performAll s rest).2.content 0 := by
  intro w d s rest
  have created : create ⟨"a"⟩ {} (.hooked .footer) (.empty ⟨"/"⟩) = (.ok w, d) := rfl
  have reachable : s.1.Reachable :=
    ⟨_, _, _, _, w, _, _, created, run_performAll (fun _ _ _ _ _ => trivial) (.refl _)⟩
  have open_ : s.1.prepared.draft.scopes ≠ [] := by decide
  have depth : s.1.prepared.draft.depth = 1 := by decide
  have fails : (s.1.finish s.2).1 = .error (.unclosedScopes ⟨"a"⟩ 1) := by
    rw [finish_unclosed rfl rfl (fun closed => open_ closed.2), depth]
    rfl
  refine ⟨reachable, fails, ?_, ?_, ?_, ?_, ?_⟩
  all_goals decide

end Emitter.Writer
