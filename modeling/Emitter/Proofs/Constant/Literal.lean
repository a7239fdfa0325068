import Emitter.Constant.Basic
import Mathlib.Algebra.Ring.Parity
import Mathlib.Data.List.DropRight
import Mathlib.Data.List.Induction

/-! Where the literal of a string ends. It is read from its opening quote to the first quote that is
not escaped. Printing escapes the quotes of the text and leaves its backslashes alone, so that a
backslash of the text can undo the escape of a quote after it, or escape the closing quote. The
literal ends with its last character exactly if the backslashes before each quote of the text, and
at its end, come in pairs (`literal_whole_iff_paired`). -/

namespace Emitter.Text

/-- The place of the first quote that is not escaped. A backslash escapes the character after it. -/
def unescapedQuote? (escaped : Bool) : List Char → Option Nat
  | [] => none
  | c :: rest =>
    if escaped then (unescapedQuote? false rest).map (· + 1)
    else if c = '\"' then some 0
    else (unescapedQuote? (c = '\\') rest).map (· + 1)

/-- The place of the quote that closes a literal, counted from the one that opens it. -/
def literalEnd? : List Char → Option Nat
  | '\"' :: body => (unescapedQuote? false body).map (· + 1)
  | _ => none

/-- How many backslashes stand at the end. -/
def backslashes (text : List Char) : Nat := (text.rtakeWhile (· = '\\')).length

theorem backslashes_concat (text : List Char) (c : Char) :
    backslashes (text ++ [c]) = if c = '\\' then backslashes text + 1 else 0 := by
  by_cases backslash : c = '\\' <;> simp [backslashes, backslash]

/-- Backslashes come in pairs before each quote. -/
def IsPaired (text : List Char) : Prop :=
  ∀ before rest, text = before ++ '\"' :: rest → Even (backslashes before)

theorem isPaired_nil : IsPaired [] := by
  intro before rest nothing
  simp at nothing

theorem isPaired_concat {text : List Char} {c : Char} :
    IsPaired (text ++ [c]) ↔ IsPaired text ∧ (c = '\"' → Even (backslashes text)) := by
  constructor
  · intro paired
    refine ⟨fun before rest cut => paired before (rest ++ [c]) (by simp [cut]), ?_⟩
    rintro rfl
    exact paired text [] rfl
  · rintro ⟨paired, last⟩ before rest cut
    rcases List.eq_nil_or_concat' rest with rfl | ⟨more, d, rfl⟩
    · obtain ⟨rfl, quote⟩ := List.append_inj' cut rfl
      exact last (List.singleton_inj.1 quote)
    · rw [← List.cons_append, ← List.append_assoc] at cut
      exact paired before more (List.append_inj' cut rfl).1

/-- Where backslashes do not come in pairs, there is a first quote at which they do not. -/
theorem exists_of_not_isPaired {text : List Char} (h : ¬ IsPaired text) :
    ∃ before rest, text = before ++ '\"' :: rest ∧ IsPaired before ∧ Odd (backslashes before) := by
  induction text using List.reverseRecOn with
  | nil => exact absurd isPaired_nil h
  | append_singleton text c ih =>
    by_cases paired : IsPaired text
    · rw [isPaired_concat] at h
      obtain ⟨rfl, odd⟩ : c = '\"' ∧ ¬ Even (backslashes text) := by simpa [paired] using h
      exact ⟨text, [], rfl, paired, Nat.not_even_iff_odd.1 odd⟩
    · obtain ⟨before, rest, rfl, first⟩ := ih paired
      exact ⟨before, rest ++ [c], by simp, first⟩

end Emitter.Text

namespace Emitter.Constant

open Text

theorem escapeQuotes_append (a b : List Char) :
    escapeQuotes (a ++ b) = escapeQuotes a ++ escapeQuotes b := List.flatMap_append

theorem text_string (text : String) :
    (string text).text.toList = '\"' :: (escapeQuotes text.toList ++ ['\"']) := by
  simp [Constant.text]

/-- An escaped quote is passed. -/
theorem unescapedQuote?_quote (more : List Char) :
    unescapedQuote? false (escapeQuotes ['\"'] ++ more) =
      (unescapedQuote? false more).map (· + (escapeQuotes ['\"']).length) := by
  simp [escapeQuotes, unescapedQuote?, Function.comp_def, Nat.add_assoc]

/-- So is any other character. It escapes what comes next if it is a backslash that is not escaped
itself. -/
theorem unescapedQuote?_of_ne {c : Char} (h : c ≠ '\"') (escaped : Bool) (more : List Char) :
    unescapedQuote? escaped (escapeQuotes [c] ++ more) =
      (unescapedQuote? (!escaped && c = '\\') more).map (· + (escapeQuotes [c]).length) := by
  cases escaped <;> simp [escapeQuotes, unescapedQuote?, h]

theorem odd_backslashes_concat (text : List Char) (c : Char) :
    decide (Odd (backslashes (text ++ [c]))) = (!decide (Odd (backslashes text)) && c = '\\') := by
  rw [backslashes_concat, Bool.eq_iff_iff]
  by_cases backslash : c = '\\' <;> simp [backslash, Nat.odd_add_one]

/-- Reading passes all of a text whose quotes stay escaped. What comes next is escaped if the text
ends in the middle of a pair of backslashes. -/
theorem unescapedQuote?_escapeQuotes {text : List Char} (paired : IsPaired text)
    (more : List Char) :
    unescapedQuote? false (escapeQuotes text ++ more) =
      (unescapedQuote? (Odd (backslashes text)) more).map (· + (escapeQuotes text).length) := by
  induction text using List.reverseRecOn generalizing more with
  | nil => simp [escapeQuotes, backslashes]
  | append_singleton text c ih =>
    obtain ⟨paired, last⟩ := isPaired_concat.1 paired
    have longer (n : Nat) : n + (escapeQuotes [c]).length + (escapeQuotes text).length =
        n + (escapeQuotes (text ++ [c])).length := by
      rw [escapeQuotes_append, List.length_append]
      omega
    rw [escapeQuotes_append, List.append_assoc, ih paired, odd_backslashes_concat,
      ← escapeQuotes_append]
    by_cases quote : c = '\"'
    · have even : ¬ Odd (backslashes text) := Nat.not_odd_iff_even.2 (last quote)
      subst quote
      rw [decide_eq_false even, unescapedQuote?_quote, Option.map_map]
      simp [Function.comp_def, longer]
    · rw [unescapedQuote?_of_ne quote, Option.map_map]
      simp [Function.comp_def, longer]

section

variable {text : String} (after : List Char)

/-- A text whose backslashes come in pairs has a whole literal. -/
theorem literalEnd?_of_even (paired : IsPaired text.toList)
    (even : Even (backslashes text.toList)) :
    literalEnd? ((string text).text.toList ++ after) =
      some ((string text).text.toList.length - 1) := by
  rw [text_string, List.cons_append, literalEnd?, List.append_assoc,
    unescapedQuote?_escapeQuotes paired, decide_eq_false (Nat.not_odd_iff_even.2 even)]
  simp [unescapedQuote?]

/-- A backslash left over at the end takes the closing quote into the literal, which ends at a quote
of what follows, if at all. -/
theorem literalEnd?_of_odd (paired : IsPaired text.toList) (odd : Odd (backslashes text.toList)) :
    literalEnd? ((string text).text.toList ++ after) =
      (unescapedQuote? false after).map (· + (string text).text.toList.length) := by
  rw [text_string, List.cons_append, literalEnd?, List.append_assoc,
    unescapedQuote?_escapeQuotes paired, decide_eq_true odd]
  simp only [List.singleton_append, unescapedQuote?, if_true, Option.map_map]
  congr 1
  funext n
  simp only [Function.comp_apply, List.length_cons, List.length_append, List.length_nil]
  omega

/-- A backslash left over before a quote ends the literal there. -/
theorem literalEnd?_of_cut {before rest : List Char} (cut : text.toList = before ++ '\"' :: rest)
    (paired : IsPaired before) (odd : Odd (backslashes before)) :
    literalEnd? ((string text).text.toList ++ after) = some ((escapeQuotes before).length + 2) := by
  have written : escapeQuotes text.toList =
      escapeQuotes before ++ '\\' :: '\"' :: escapeQuotes rest := by
    rw [cut, escapeQuotes_append]
    rfl
  rw [text_string, written, List.cons_append, literalEnd?, List.append_assoc, List.append_assoc,
    unescapedQuote?_escapeQuotes paired, decide_eq_true odd]
  simp [unescapedQuote?]
  omega

end

/-- Printed as a constant a text is one literal exactly if its backslashes come in pairs before each
of its quotes and at its end. Else the literal ends at the first quote before which they do not, or,
if there is none, somewhere behind its own last character. -/
theorem literal_whole_iff_paired (text : String) :
    (literalEnd? (string text).text.toList = some ((string text).text.toList.length - 1) ↔
      IsPaired text.toList ∧ Even (backslashes text.toList)) ∧
    ∀ after,
      (IsPaired text.toList → Even (backslashes text.toList) →
        literalEnd? ((string text).text.toList ++ after) =
          some ((string text).text.toList.length - 1)) ∧
      (IsPaired text.toList → Odd (backslashes text.toList) →
        literalEnd? ((string text).text.toList ++ after) =
          (unescapedQuote? false after).map (· + (string text).text.toList.length)) ∧
      ∀ before rest, text.toList = before ++ '\"' :: rest → IsPaired before →
        Odd (backslashes before) →
        literalEnd? ((string text).text.toList ++ after) =
          some ((escapeQuotes before).length + 2) := by
  refine ⟨⟨fun whole => ?_, fun ⟨paired, even⟩ => ?_⟩, fun after =>
    ⟨literalEnd?_of_even after, literalEnd?_of_odd after, fun _ _ => literalEnd?_of_cut after⟩⟩
  · by_cases paired : IsPaired text.toList
    · refine ⟨paired, ?_⟩
      by_contra odd
      have swallowed := literalEnd?_of_odd [] paired (Nat.not_even_iff_odd.1 odd)
      rw [List.append_nil, whole] at swallowed
      cases swallowed
    · obtain ⟨before, rest, cut, first, odd⟩ := exists_of_not_isPaired paired
      have early := literalEnd?_of_cut [] cut first odd
      rw [List.append_nil, whole, text_string, cut, escapeQuotes_append] at early
      simp [escapeQuotes] at early
  · simpa using literalEnd?_of_even [] paired even

/-- With one backslash the literal runs on into the next one, with two it is whole, and with one
before a quote it ends at the quote. -/
theorem literal_whole_iff_paired_backslash :
    (string "\\").text = "\"\\\"" ∧
      literalEnd? ((string "\\").text.toList ++ (string "b").text.toList) = some 3 ∧
      literalEnd? (string "\\\\").text.toList = some 3 ∧
      (string "\\\"c").text = "\"\\\\\"c\"" ∧
      literalEnd? (string "\\\"c").text.toList = some 3 := by
  have one : IsPaired ['\\'] := isPaired_concat.2 ⟨isPaired_nil, by decide⟩
  have two : IsPaired ['\\', '\\'] := isPaired_concat.2 ⟨one, by decide⟩
  have swallowed := ((literal_whole_iff_paired "\\").2 (string "b").text.toList).2.1 one (by decide)
  have whole := ((literal_whole_iff_paired "\\\\").2 []).1 two (by decide)
  have early := ((literal_whole_iff_paired "\\\"c").2 []).2.2 ['\\'] ['c'] rfl one (by decide)
  rw [List.append_nil] at whole early
  exact ⟨by decide, swallowed, whole, by decide, early⟩

end Emitter.Constant
