import Emitter.Diff
import Emitter.Proofs.Text.Quoted
import Mathlib.Data.List.Basic
import Mathlib.Data.Nat.Init

/-! The report on two texts. It has one entry for each place at which their lines are not the same,
in order (`mem_between`, `pairwise_between`), and can be read in one way only, as every entry has
three lines of its own (`split_join_text`). So the report and the expected text tell the actual text
(`contentDiff_faithful`). -/

namespace Emitter

/-- What a text has at a place, counted from zero. -/
def lineAt (text : String) (i : Nat) : Option (List Char) := (Text.split '\n' text.toList)[i]?

namespace Mismatch

def report (entries : List Mismatch) : String :=
  "Content mismatch:\n" ++ String.join (entries.map text)

/-! ## The entries -/

/-- The first lines are compared, then the others. A text that has ended has none further on. -/
theorem between_eq (n : Nat) (expected actual : List (List Char)) :
    between n expected actual =
      (if expected.head? = actual.head? then [] else [⟨n, expected.head?, actual.head?⟩]) ++
        between (n + 1) expected.tail actual.tail := by
  rcases expected with _ | ⟨e, es⟩ <;> rcases actual with _ | ⟨a, as⟩
  · simp [between]
  · simp [between]
  · simp [between]
  · by_cases same : e = a <;> simp [between, same]

section

variable {n : Nat} {expected actual : List (List Char)} {m : Mismatch}

theorem mem_between_of_tail
    (others : m ∈ between (n + 1) expected.tail actual.tail ↔
      ∃ i, expected.tail[i]? ≠ actual.tail[i]? ∧
        m = ⟨n + 1 + i, expected.tail[i]?, actual.tail[i]?⟩) :
    m ∈ between n expected actual ↔
      ∃ i, expected[i]? ≠ actual[i]? ∧ m = ⟨n + i, expected[i]?, actual[i]?⟩ := by
  have further (i : Nat) : n + 1 + i = n + (i + 1) := by omega
  simp only [List.getElem?_tail, further] at others
  rw [between_eq, List.mem_append, ← Nat.or_exists_add_one, others]
  refine or_congr_left ?_
  rw [List.head?_eq_getElem?, List.head?_eq_getElem?]
  by_cases same : expected[0]? = actual[0]? <;> simp [same]

theorem mem_between :
    m ∈ between n expected actual ↔
      ∃ i, expected[i]? ≠ actual[i]? ∧ m = ⟨n + i, expected[i]?, actual[i]?⟩ := by
  induction n, expected, actual using between.induct with
  | case1 n => simp [between]
  | case2 n e es ih => exact mem_between_of_tail ih
  | case3 n a as ih => exact mem_between_of_tail ih
  | case4 n es a as ih => exact mem_between_of_tail ih
  | case5 n e es a as different ih => exact mem_between_of_tail ih

theorem pairwise_between : (between n expected actual).Pairwise (·.number < ·.number) := by
  have step (n : Nat) (expected actual : List (List Char))
      (others : (between (n + 1) expected.tail actual.tail).Pairwise (·.number < ·.number)) :
      (between n expected actual).Pairwise (·.number < ·.number) := by
    rw [between_eq]
    split
    · exact others
    · refine List.pairwise_cons.2 ⟨fun m mem => ?_, others⟩
      obtain ⟨i, -, rfl⟩ := mem_between.1 mem
      exact Nat.lt_add_right i n.lt_succ_self
  induction n, expected, actual using between.induct with
  | case1 n => simp [between]
  | case2 n e es ih => exact step n (e :: es) [] ih
  | case3 n a as ih => exact step n [] (a :: as) ih
  | case4 n es a as ih => exact step n (a :: es) (a :: as) ih
  | case5 n e es a as different ih => exact step n (e :: es) (a :: as) ih

end

/-! ## The text -/

theorem newline_not_mem_side (line : Option (List Char)) : '\n' ∉ (side line).toList := by
  cases line with
  | none => decide
  | some line => exact Text.newline_not_mem_quote _

/-- A line that is missing is told from one that reads so by the quotes. -/
theorem side_inj {a b : Option (List Char)} (h : side a = side b) : a = b := by
  have missing (line : List Char) : side none ≠ side (some line) := by
    intro same
    have first := congrArg (·.toList.head?) same
    simp [side, Text.quote] at first
  cases a with
  | none =>
    cases b with
    | none => rfl
    | some b => exact absurd h (missing b)
  | some a =>
    cases b with
    | none => exact absurd h.symm (missing a)
    | some b => rw [String.ofList_injective (Text.quote_inj h)]

/-- The lines of an entry, without their ends. -/
def lines (m : Mismatch) : List (List Char) :=
  ["Line ".toList ++ Nat.toDigits 10 m.number ++ [':'],
    "  expected: ".toList ++ (side m.expected).toList,
    "  actual:   ".toList ++ (side m.actual).toList]

theorem toList_text (m : Mismatch) : m.text.toList = m.lines.flatMap (· ++ ['\n']) := by
  have ends : ":\n".toList = [':'] ++ ['\n'] := rfl
  have newline : "\n".toList = ['\n'] := rfl
  simp only [text, lines, String.toList_append, ends, newline, Nat.toString_eq_repr,
    Nat.toList_repr, List.flatMap_cons, List.flatMap_nil, List.append_nil, List.append_assoc]

theorem newline_not_mem_lines (m : Mismatch) : ∀ line ∈ m.lines, '\n' ∉ line := by
  have number : '\n' ∉ Nat.toDigits 10 m.number := fun mem => by
    have := Nat.isDigit_of_mem_toDigits (by decide) (by decide) mem
    cases this
  simp [lines, number, newline_not_mem_side]

theorem lines_inj {a b : Mismatch} (h : a.lines = b.lines) : a = b := by
  obtain ⟨number, expected, actual⟩ : Nat.toDigits 10 a.number = Nat.toDigits 10 b.number ∧
      side a.expected = side b.expected ∧ side a.actual = side b.actual := by
    simpa [lines, String.toList_inj] using h
  have number : a.number = b.number := by
    have read := congrArg (Nat.ofDigitChars 10 · 0) number
    simpa [Nat.ofDigitChars_toDigits] using read
  cases a
  cases b
  rw [mk.injEq]
  exact ⟨number, side_inj expected, side_inj actual⟩

theorem toList_join_text (entries : List Mismatch) :
    (String.join (entries.map text)).toList =
      (entries.flatMap lines).flatMap (· ++ ['\n']) := by
  induction entries with
  | nil => rfl
  | cons m rest ih =>
    rw [List.map_cons, String.join_cons, String.toList_append, ih, toList_text, List.flatMap_cons,
      List.flatMap_append]

/-- Cut at their newlines, the entries are their lines. -/
theorem split_join_text (entries : List Mismatch) :
    Text.split '\n' (String.join (entries.map text)).toList = entries.flatMap lines ++ [[]] := by
  have solid : ∀ line ∈ entries.flatMap lines, Text.split '\n' line = [line] := by
    intro line mem
    obtain ⟨m, -, mem⟩ := List.mem_flatMap.1 mem
    exact Text.split_eq_singleton (newline_not_mem_lines m line mem)
  rw [toList_join_text, Text.split_flatMap, List.flatMap_congr solid, List.flatMap_singleton']

theorem report_inj {a b : List Mismatch} (h : report a = report b) : a = b := by
  have same : a.flatMap lines = b.flatMap lines := by
    have texts : String.join (a.map text) = String.join (b.map text) :=
      (String.append_right_inj _).1 h
    have split := split_join_text a
    rw [texts, split_join_text b] at split
    exact (List.append_cancel_right split).symm
  -- Each entry takes three lines from the front.
  clear h
  induction a generalizing b with
  | nil =>
    cases b with
    | nil => rfl
    | cons n rest => cases same
  | cons m rest ih =>
    cases b with
    | nil => cases same
    | cons n others =>
      obtain ⟨here, further⟩ := List.append_inj same rfl
      rw [lines_inj here, ih further]

end Mismatch

theorem lineAt_inj {a b : String} (h : ∀ i, lineAt a i = lineAt b i) : a = b :=
  String.toList_inj.1 (Text.split_inj (List.ext_getElem? h))

theorem mem_mismatches {expected actual : String} {m : Mismatch} :
    m ∈ mismatches expected actual ↔
      ∃ i, lineAt expected i ≠ lineAt actual i ∧
        m = ⟨i + 1, lineAt expected i, lineAt actual i⟩ := by
  simp only [mismatches, Mismatch.mem_between, Nat.add_comm 1]
  rfl

/-- The places that are reported and the expected text tell each line of the actual text. -/
theorem mismatches_inj {expected a b : String} (h : mismatches expected a = mismatches expected b) :
    a = b := by
  have reported {a b : String} (h : mismatches expected a = mismatches expected b) {i : Nat}
      (different : lineAt expected i ≠ lineAt a i) : lineAt a i = lineAt b i := by
    obtain ⟨j, -, entry⟩ := mem_mismatches.1 (h ▸ mem_mismatches.2 ⟨i, different, rfl⟩)
    obtain ⟨number, -, actual⟩ := Mismatch.mk.inj entry
    rw [actual, Nat.add_right_cancel number]
  refine lineAt_inj fun i => ?_
  by_cases different : lineAt expected i = lineAt a i
  · by_cases different' : lineAt expected i = lineAt b i
    · rw [← different, different']
    · exact (reported h.symm different').symm
  · exact reported h different

theorem contentDiff_eq_some {expected actual : String} (h : expected ≠ actual) :
    contentDiff expected actual = some (Mismatch.report (mismatches expected actual)) := if_neg h

/-- There is nothing to report exactly if the texts are the same. Else there is at least one entry,
with one for each place at which the lines differ or a text has ended, numbered from one, in order;
the report has no other entries, however it is read; and for one expected text, different actual
texts have different reports. -/
theorem contentDiff_faithful (expected actual : String) :
    (contentDiff expected actual = none ↔ expected = actual) ∧
    (expected ≠ actual → ∃ entries, contentDiff expected actual = some (Mismatch.report entries) ∧
      entries ≠ [] ∧ entries.Pairwise (·.number < ·.number) ∧
      (∀ m, m ∈ entries ↔ ∃ i, lineAt expected i ≠ lineAt actual i ∧
        m = ⟨i + 1, lineAt expected i, lineAt actual i⟩) ∧
      ∀ others, Mismatch.report others = Mismatch.report entries → others = entries) ∧
    ∀ other, contentDiff expected actual = contentDiff expected other → actual = other := by
  have passes (actual : String) : contentDiff expected actual = none ↔ expected = actual := by
    by_cases same : expected = actual <;> simp [contentDiff, same]
  refine ⟨passes actual, fun different => ?_, fun other same => ?_⟩
  · refine ⟨mismatches expected actual, contentDiff_eq_some different, fun nothing => different ?_,
      Mismatch.pairwise_between, fun m => mem_mismatches, fun others => Mismatch.report_inj⟩
    refine lineAt_inj fun i => by_contra fun here => ?_
    have entry := mem_mismatches.2 ⟨i, here, rfl⟩
    rw [nothing] at entry
    cases entry
  · by_cases different : expected = actual
    · rw [(passes actual).2 different, eq_comm, passes] at same
      rw [← different, same]
    · have different' : expected ≠ other := by
        rintro rfl
        rw [(passes expected).2 rfl, passes] at same
        exact different same
      rw [contentDiff_eq_some different, contentDiff_eq_some different', Option.some.injEq] at same
      exact mismatches_inj (Mismatch.report_inj same)

/-- A text that only lacks the newline at the end misses an empty line, and a line that reads like a
missing one is reported otherwise. -/
theorem contentDiff_faithful_missing :
    "a\n" ≠ "a" ∧
      (∃ entries, contentDiff "a\n" "a" = some (Mismatch.report entries) ∧
        ⟨2, some [], none⟩ ∈ entries) ∧
      contentDiff "a\nb" "a" ≠ contentDiff "a\nb" "a\n<missing>" := by
  have shorter : "a\n" ≠ "a" := by decide
  obtain ⟨entries, shown, -, -, all, -⟩ := (contentDiff_faithful "a\n" "a").2.1 shorter
  refine ⟨shorter, ⟨entries, shown, (all _).2 ⟨1, by decide, rfl⟩⟩, fun same => ?_⟩
  exact absurd ((contentDiff_faithful "a\nb" "a").2.2 _ same) (by decide)

end Emitter
