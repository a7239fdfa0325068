import Emitter.Proofs.Text.Pieces
import Emitter.Text.Quoted
import Mathlib.Data.List.Basic

/-! Quoted text is faithful. No character is written as the beginning of what another one is written
as (`IsEscape.append_inj`), so that a text comes back from its quoted form (`quote_inj`), and it
stays on one line. -/

namespace Emitter.Text

/-- The letters that escape a character. -/
def escapeLetters : List (Char × Char) :=
  [('0', '\x00'), ('t', '\t'), ('r', '\r'), ('n', '\n'), ('\"', '\"'), ('\\', '\\')]

/-- How a character can be written between quotes. -/
inductive IsEscape (c : Char) : List Char → Prop where
  | letter {letter : Char} (known : (letter, c) ∈ escapeLetters) : IsEscape c ['\\', letter]
  | plain (newline : c ≠ '\n') (backslash : c ≠ '\\') : IsEscape c [c]
  | code : IsEscape c ('\\' :: 'u' :: '\x7b' :: (hex c.toNat ++ ['\x7d']))

theorem isEscape_escape (c : Char) : IsEscape c (escape c) := by
  unfold escape
  split
  · next null => exact .letter (by rw [null]; decide)
  split
  · next tab => exact .letter (by rw [tab]; decide)
  split
  · next carriage => exact .letter (by rw [carriage]; decide)
  split
  · next line => exact .letter (by rw [line]; decide)
  split
  · next quote => exact .letter (by rw [quote]; decide)
  split
  · next backslash => exact .letter (by rw [backslash]; decide)
  split
  · next newline _ backslash _ => exact .plain newline backslash
  · exact .code

theorem not_mem_hex {c : Char} (h : ∀ d < 16, c ≠ Nat.digitChar d) (n : Nat) : c ∉ hex n := by
  intro mem
  obtain ⟨d, small, rfl⟩ := exists_of_mem_hex mem
  exact h d small rfl

theorem of_mem_escapeLetters : ∀ p ∈ escapeLetters, p.1 ≠ 'u' ∧ p.1 ≠ '\n' := by decide

theorem eq_of_mem_escapeLetters {letter c d : Char} (hc : (letter, c) ∈ escapeLetters)
    (hd : (letter, d) ∈ escapeLetters) : c = d := by
  have all : ∀ p ∈ escapeLetters, ∀ q ∈ escapeLetters, p.1 = q.1 → p.2 = q.2 := by decide
  exact all _ hc _ hd rfl

/-- A code point is read up to the brace. -/
theorem code_append_inj {n m : Nat} {r s : List Char}
    (h : hex n ++ '\x7d' :: r = hex m ++ '\x7d' :: s) : n = m ∧ r = s := by
  have brace (k : Nat) : '\x7d' ∉ hex k := not_mem_hex (by decide) k
  obtain ⟨digits, rest⟩ := append_inj_of_not_mem (brace n) (brace m) h
  exact ⟨by rw [← number_hex n, digits, number_hex], rest⟩

/-- Whatever follows it, a character can be told from what it is written as. -/
theorem IsEscape.append_inj {c d : Char} {a b r s : List Char} (hc : IsEscape c a)
    (hd : IsEscape d b) (h : a ++ r = b ++ s) : c = d ∧ r = s := by
  cases hc with
  | letter known =>
    cases hd with
    | letter known' =>
      obtain ⟨-, rfl, rest⟩ : '\\' = '\\' ∧ _ ∧ r = s := by simpa using h
      exact ⟨eq_of_mem_escapeLetters known known', rest⟩
    | plain newline backslash =>
      exact absurd (List.cons.inj h).1.symm backslash
    | code =>
      obtain ⟨rfl, -⟩ := List.cons.inj (List.cons.inj h).2
      exact absurd rfl (of_mem_escapeLetters _ known).1
  | plain newline backslash =>
    cases hd with
    | letter known => exact absurd (List.cons.inj h).1 backslash
    | plain newline' backslash' => exact List.cons.inj h
    | code => exact absurd (List.cons.inj h).1 backslash
  | code =>
    cases hd with
    | letter known =>
      obtain ⟨rfl, -⟩ := List.cons.inj (List.cons.inj h).2
      exact absurd rfl (of_mem_escapeLetters _ known).1
    | plain newline backslash => exact absurd (List.cons.inj h).1.symm backslash
    | code =>
      obtain ⟨same, rest⟩ := code_append_inj (by simpa using h)
      exact ⟨Char.toNat_inj.1 same, rest⟩

theorem IsEscape.newline_not_mem {c : Char} {a : List Char} (h : IsEscape c a) : '\n' ∉ a := by
  cases h with
  | letter known => simpa using (of_mem_escapeLetters _ known).2.symm
  | plain newline backslash => simpa using newline.symm
  | code => simpa using not_mem_hex (by decide) c.toNat

theorem flatMap_escape_inj {a b : List Char} (h : a.flatMap escape = b.flatMap escape) : a = b := by
  have solid (c : Char) : escape c ≠ [] := by
    intro nothing
    have := isEscape_escape c
    rw [nothing] at this
    cases this
  induction a generalizing b with
  | nil =>
    cases b with
    | nil => rfl
    | cons d b => exact absurd (List.append_eq_nil_iff.1 h.symm).1 (solid d)
  | cons c a ih =>
    cases b with
    | nil => exact absurd (List.append_eq_nil_iff.1 h).1 (solid c)
    | cons d b =>
      obtain ⟨rfl, rest⟩ := (isEscape_escape c).append_inj (isEscape_escape d) h
      rw [ih rest]

theorem quote_inj {a b : String} (h : quote a = quote b) : a = b := by
  have written := List.cons.inj (String.ofList_injective h)
  exact String.toList_inj.1 (flatMap_escape_inj (List.append_cancel_right written.2))

/-- Quoted text is one line. -/
theorem newline_not_mem_quote (text : String) : '\n' ∉ (quote text).toList := by
  intro mem
  have written : (quote text).toList = '\"' :: (text.toList.flatMap escape ++ ['\"']) := by
    simp [quote]
  rw [written] at mem
  obtain ⟨c, -, mem⟩ : ∃ c ∈ text.toList, '\n' ∈ escape c := by simpa using mem
  exact (isEscape_escape c).newline_not_mem mem

end Emitter.Text
