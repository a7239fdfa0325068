import Emitter.Proofs.Include.Committed
import Mathlib.Data.List.Chain

/-! Line ends of the other convention. A newline is bare if no carriage return stands directly
before it. Converting a text closes its bare newlines and does nothing else; as it looks one
character back only, a text can be converted in parts unless a part ends in the middle of a line
end (`crlf_closes_bare_newlines`). -/

namespace Emitter

namespace Text

def HasBareNewline (text : String) : Prop :=
  ∃ before rest, text.toList = before ++ '\n' :: rest ∧ before.getLast? ≠ some '\r'

/-- Each carriage return and newline as a newline. -/
def dropReturns : List Char → List Char
  | [] => []
  | c :: rest =>
    if c = '\r' ∧ rest.head? = some '\n' then dropReturns rest else c :: dropReturns rest

/-- Between the two texts a carriage return comes before a newline. -/
def IsSeam (a b : String) : Prop := a.toList.getLast? = some '\r' ∧ b.toList.head? = some '\n'

/-- After the character before it, the text has no bare newline. -/
def IsClosed (before : Char) (text : List Char) : Prop :=
  (before :: text).IsChain fun a b => b = '\n' → a = '\r'

theorem isClosed_cons {before c : Char} {rest : List Char} :
    IsClosed before (c :: rest) ↔ (c = '\n' → before = '\r') ∧ IsClosed c rest :=
  List.isChain_cons_cons

/-- At the beginning of a text a newline is bare, like one after any character but a return. -/
theorem isClosed_iff {text : String} :
    IsClosed '\x00' text.toList ↔ ¬ HasBareNewline text := by
  rw [IsClosed, List.isChain_iff_forall_rel_of_append_cons_cons]
  constructor
  · rintro closed ⟨before, rest, cut, bare⟩
    rcases List.eq_nil_or_concat' before with rfl | ⟨init, c, rfl⟩
    · have := @closed '\x00' '\n' [] rest (by simp [cut]) rfl
      cases this
    · have := @closed c '\n' ('\x00' :: init) rest (by simp [cut]) rfl
      simp [this] at bare
  · rintro closed a b before rest cut rfl
    rcases before with _ | ⟨first, before⟩
    · obtain ⟨rfl, text⟩ := List.cons.inj cut
      exact absurd ⟨[], rest, text, by simp⟩ closed
    · by_contra other
      refine closed ⟨before ++ [a], rest, ?_, by simpa using other⟩
      simpa using (List.cons.inj cut).2

end Text

namespace LineEnding

open Text

theorem toList_apply (text : String) :
    (crlf.apply text).toList = addReturns '\x00' text.toList := by
  simp [apply]

theorem isClosed_addReturns (before : Char) (text : List Char) :
    IsClosed before (addReturns before text) := by
  induction text generalizing before with
  | nil => exact List.isChain_singleton before
  | cons c rest ih =>
    rw [addReturns]
    split
    · next bare =>
      rw [isClosed_cons, isClosed_cons]
      exact ⟨by simp, fun _ => rfl, bare.1 ▸ ih c⟩
    · next closed =>
      rw [isClosed_cons]
      exact ⟨fun newline => by_contra fun other => closed ⟨newline, other⟩, ih c⟩

/-- Only bare newlines make a difference. -/
theorem addReturns_eq_self_iff {before : Char} {text : List Char} :
    addReturns before text = text ↔ IsClosed before text := by
  induction text generalizing before with
  | nil => exact iff_of_true rfl (List.isChain_singleton before)
  | cons c rest ih =>
    rw [addReturns, isClosed_cons]
    split
    · next bare =>
      refine iff_of_false (fun same => ?_) fun closed => bare.2 (closed.1 bare.1)
      have return_ := (List.cons.inj same).1
      rw [bare.1] at return_
      cases return_
    · next closed =>
      rw [List.cons_inj_right, ih]
      exact (and_iff_right fun newline => by_contra fun other => closed ⟨newline, other⟩).symm

theorem head?_addReturns_eq_newline {before : Char} {text : List Char} :
    (addReturns before text).head? = some '\n' ↔ before = '\r' ∧ text.head? = some '\n' := by
  cases text with
  | nil => simp [addReturns]
  | cons c rest =>
    rw [addReturns]
    split
    · next bare => simp [bare.2]
    · next closed => simp; grind

/-- Taking returns away at line ends undoes the conversion. -/
theorem dropReturns_addReturns (before : Char) (text : List Char) :
    dropReturns (addReturns before text) = dropReturns text := by
  induction text generalizing before with
  | nil => rfl
  | cons c rest ih =>
    rw [addReturns]
    split
    · next bare =>
      obtain ⟨rfl, -⟩ := bare
      simp [dropReturns, ih]
    · next closed =>
      rw [dropReturns, dropReturns, ih]
      congr 1
      rw [head?_addReturns_eq_newline]
      simp

/-- Nothing of the text is lost. -/
theorem sublist_addReturns (before : Char) (text : List Char) :
    text.Sublist (addReturns before text) := by
  induction text generalizing before with
  | nil => exact List.nil_sublist _
  | cons c rest ih =>
    rw [addReturns]
    split
    · next bare => exact .cons _ (bare.1 ▸ (ih c).cons_cons c)
    · exact (ih c).cons_cons c

/-- The character before a text matters only if it is a return and the text begins with a newline,
which would be bare without it. -/
theorem addReturns_eq_append (before : Char) (text : List Char) :
    addReturns '\x00' text =
      (if before = '\r' ∧ text.head? = some '\n' then ['\r'] else []) ++
        addReturns before text := by
  cases text with
  | nil => simp [addReturns]
  | cons c rest =>
    by_cases newline : c = '\n' <;> by_cases after : before = '\r' <;>
      simp [addReturns, newline, after]

/-- Converted in two parts, a text gets a carriage return more if the cut is within a line end. -/
theorem apply_append (a b : String) :
    ∃ rest, crlf.apply (a ++ b) = crlf.apply a ++ rest ∧
      (IsSeam a b → crlf.apply b = "\r" ++ rest) ∧ (¬ IsSeam a b → crlf.apply b = rest) := by
  have meets : a.toList.getLastD '\x00' = '\r' ∧ b.toList.head? = some '\n' ↔ IsSeam a b := by
    rcases List.eq_nil_or_concat' a.toList with nothing | ⟨init, c, chars⟩
    · simp [IsSeam, nothing]
    · simp [IsSeam, chars]
  have parts := addReturns_eq_append (a.toList.getLastD '\x00') b.toList
  refine ⟨String.ofList (addReturns (a.toList.getLastD '\x00') b.toList), ?_, fun seam => ?_,
    fun smooth => ?_⟩
  · rw [apply, apply, String.toList_append, addReturns_append, String.ofList_append]
  · rw [apply, parts, if_pos (meets.2 seam), String.ofList_append]
  · rw [apply, parts, if_neg (mt meets.1 smooth), List.nil_append]

theorem apply_append_of_not_isSeam {a b : String} (h : ¬ IsSeam a b) :
    crlf.apply (a ++ b) = crlf.apply a ++ crlf.apply b := by
  obtain ⟨rest, whole, -, smooth⟩ := apply_append a b
  rw [whole, smooth h]

/-- Where a line begins there is no seam. -/
theorem not_isSeam_of_endsLine {a : String} (h : EndsLine a) (b : String) : ¬ IsSeam a b := by
  rintro ⟨last, -⟩
  rcases h with rfl | ⟨before, rfl⟩
  · cases last
  · simp at last

/-- The header of a file consists of whole lines, so that its parts can be converted one by one
unless the body begins within a line end. -/
theorem apply_render {w : Writer} (smooth : ¬ IsSeam (w.dialect.preamble w.directory) w.draft.body) :
    crlf.apply w.render =
      crlf.apply ((w.settings.header.map (Writer.headerText w.dialect.commentMarker)).getD "") ++
        crlf.apply (w.dialect.preamble w.directory) ++ crlf.apply w.draft.body := by
  have header := not_isSeam_of_endsLine w.endsLine_header
  rw [Writer.render, String.append_assoc, apply_append_of_not_isSeam (header _),
    apply_append_of_not_isSeam smooth, String.append_assoc]

/-- All preambles but those of a caller's own language consist of whole lines. -/
theorem custom_of_isSeam {w : Writer} (seam : IsSeam (w.dialect.preamble w.directory) w.draft.body) :
    ∃ language state, w.dialect = .custom language state := by
  by_contra builtin
  push Not at builtin
  exact not_isSeam_of_endsLine (Dialect.endsLine_preamble builtin w.directory) _ seam

/-- After conversion no newline is bare, and nothing but bare newlines has been changed: a text
without them stays what it is, as does a text that has been converted, and taking away the returns
before newlines gives the same text before and after. Two texts can be converted one by one unless
a carriage return and a newline meet between them, where one carriage return comes in. In the text
of a file they never do between the header, the preamble and the body, but where the preamble is that
of a caller's own language. -/
theorem crlf_closes_bare_newlines (text : String) :
    ¬ HasBareNewline (crlf.apply text) ∧
    crlf.apply (crlf.apply text) = crlf.apply text ∧
    dropReturns (crlf.apply text).toList = dropReturns text.toList ∧
    text.toList.Sublist (crlf.apply text).toList ∧
    (crlf.apply text = text ↔ ¬ HasBareNewline text) ∧
    (∀ after, ¬ IsSeam text after →
      crlf.apply (text ++ after) = crlf.apply text ++ crlf.apply after) ∧
    (∀ after, IsSeam text after → ∃ rest, crlf.apply after = "\r" ++ rest ∧
      crlf.apply (text ++ after) = crlf.apply text ++ rest) ∧
    (∀ w : Writer,
      (IsSeam (w.dialect.preamble w.directory) w.draft.body →
        ∃ language state, w.dialect = .custom language state) ∧
      (¬ IsSeam (w.dialect.preamble w.directory) w.draft.body → crlf.apply w.render =
        crlf.apply ((w.settings.header.map (Writer.headerText w.dialect.commentMarker)).getD "") ++
          crlf.apply (w.dialect.preamble w.directory) ++ crlf.apply w.draft.body)) ∧
    lf.apply text = text := by
  have unchanged (t : String) : crlf.apply t = t ↔ ¬ HasBareNewline t := by
    rw [← isClosed_iff, ← addReturns_eq_self_iff, ← toList_apply, String.toList_inj]
  have closed : ¬ HasBareNewline (crlf.apply text) := by
    rw [← isClosed_iff, toList_apply]
    exact isClosed_addReturns '\x00' text.toList
  refine ⟨closed, (unchanged _).2 closed, ?_, ?_, unchanged text,
    fun after => apply_append_of_not_isSeam, fun after seam => ?_,
    fun w => ⟨custom_of_isSeam, apply_render⟩, rfl⟩
  · rw [toList_apply, dropReturns_addReturns]
  · rw [toList_apply]
    exact sublist_addReturns '\x00' text.toList
  · obtain ⟨rest, whole, more, -⟩ := apply_append text after
    exact ⟨rest, more seam, whole⟩

/-- Within the line end, `"\r"` and `"\n"` come to one return more than together; beside it they do
not. -/
theorem crlf_closes_bare_newlines_seam :
    IsSeam "\n\r" "\n" ∧ crlf.apply "\n\r" ++ crlf.apply "\n" = "\r\n\r\r\n" ∧
      (∃ rest, crlf.apply "\n" = "\r" ++ rest ∧
        crlf.apply ("\n\r" ++ "\n") = crlf.apply "\n\r" ++ rest) ∧
      ¬ IsSeam "\n\r" "\r\n" ∧
      crlf.apply ("\n\r" ++ "\r\n") = crlf.apply "\n\r" ++ crlf.apply "\r\n" := by
  obtain ⟨-, -, -, -, -, smooth, seam, -, -⟩ := crlf_closes_bare_newlines "\n\r"
  have within : IsSeam "\n\r" "\n" := by unfold IsSeam; decide
  have beside : ¬ IsSeam "\n\r" "\r\n" := by unfold IsSeam; decide
  exact ⟨within, by decide, seam "\n" within, beside, smooth "\r\n" beside⟩

end LineEnding

end Emitter
