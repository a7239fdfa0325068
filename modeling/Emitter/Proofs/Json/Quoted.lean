import Emitter.Json.Printer
import Emitter.Json.Reader
import Emitter.Proofs.Text.Units

/-! The ways to write a string. A character stands for itself, or is escaped, by a letter or by the
digits of its units in UTF-16. The reader gets the text back from each of them, and what is printed
is one of them. -/

namespace Emitter.Json

/-- The letters that escape a character. -/
def letters : List (Char × Char) :=
  [('\"', '\"'), ('\\', '\\'), ('/', '/'), ('b', '\x08'), ('f', '\x0c'), ('n', '\n'), ('r', '\r'),
    ('t', '\t')]

/-- Four hexadecimal digits, in either case, that stand for a unit. -/
def IsHex (unit : Nat) (digits : List Char) : Prop :=
  digits.length = 4 ∧ (digits.mapM Text.hexDigit?).map (Text.number 16) = some unit

inductive IsCharacter (c : Char) : List Char → Prop where
  | plain (quote : c ≠ '\"') (backslash : c ≠ '\\') (control : 0x20 ≤ c.toNat) : IsCharacter c [c]
  | letter {letter : Char} (known : (letter, c) ∈ letters) : IsCharacter c ['\\', letter]
  | single {unit : Nat} {digits : List Char} (units : Text.Utf16.units c = [unit])
      (hex : IsHex unit digits) : IsCharacter c ('\\' :: 'u' :: digits)
  | pair {high low : Nat} {first second : List Char} (units : Text.Utf16.units c = [high, low])
      (firstHex : IsHex high first) (secondHex : IsHex low second) :
      IsCharacter c ('\\' :: 'u' :: first ++ '\\' :: 'u' :: second)

/-- What stands between the quotes. -/
inductive IsBody : List Char → List Char → Prop where
  | nil : IsBody [] []
  | cons {c : Char} {text written rest : List Char} (character : IsCharacter c written)
      (more : IsBody text rest) : IsBody (c :: text) (written ++ rest)

def IsQuoted (text : String) (written : List Char) : Prop :=
  ∃ body, IsBody text.toList body ∧ written = '\"' :: (body ++ ['\"'])

namespace Reader

theorem shortEscape?_of_mem {letter c : Char} (h : (letter, c) ∈ letters) :
    shortEscape? letter = some c ∧ letter ≠ 'u' := by
  have all : ∀ p ∈ letters, shortEscape? p.1 = some p.2 ∧ p.1 ≠ 'u' := by decide
  exact all _ h

theorem pieces_letter {letter c : Char} (h : (letter, c) ∈ letters) (rest : List Char) :
    pieces ('\\' :: letter :: rest) =
      (pieces rest).map fun (ps, rest) => (.char c :: ps, rest) := by
  obtain ⟨short, other⟩ := shortEscape?_of_mem h
  rw [pieces]
  · rw [short]
    cases pieces rest <;> rfl
  · rintro _ _ _ _ _ rfl
    exact absurd rfl other

theorem pieces_unit {unit : Nat} {digits : List Char} (h : IsHex unit digits) (rest : List Char) :
    pieces ('\\' :: 'u' :: digits ++ rest) =
      (pieces rest).map fun (ps, rest) => (unitPiece unit :: ps, rest) := by
  obtain ⟨length, value⟩ := h
  obtain ⟨a, b, c, d, rfl⟩ : ∃ a b c d, digits = [a, b, c, d] := by
    rcases digits with _ | ⟨a, _ | ⟨b, _ | ⟨c, _ | ⟨d, _ | ⟨e, more⟩⟩⟩⟩⟩ <;>
      simp at length ⊢
  have unit_ : hexUnit? a b c d = some unit := value
  rw [List.cons_append, List.cons_append, List.cons_append, List.cons_append, List.cons_append,
    List.cons_append, List.nil_append, pieces, unit_]
  cases pieces rest <;> rfl

theorem pieces_plain {c : Char} (quote : c ≠ '\"') (backslash : c ≠ '\\') (control : 0x20 ≤ c.toNat)
    (rest : List Char) :
    pieces (c :: rest) = (pieces rest).map fun (ps, rest) => (.char c :: ps, rest) := by
  rw [pieces]
  · rw [if_neg]
    rintro (h | h)
    · exact backslash h
    · omega
  · exact fun h => quote h
  · exact fun _ _ _ _ _ h => absurd h backslash
  · exact fun _ _ h => absurd h backslash

/-- A character as the pieces that are read from it: one, or the halves of a pair. -/
theorem pieces_character {c : Char} {written : List Char} (h : IsCharacter c written) :
    ∃ parts : List Piece,
      (∀ rest, pieces (written ++ rest) =
        (pieces rest).map fun (ps, rest) => (parts ++ ps, rest)) ∧
      ∀ ps, assemble (parts ++ ps) = (assemble ps).map (c :: ·) := by
  have valid := Text.toNat_cases c
  have back : Char.ofNat c.toNat = c := Char.ofNat_toNat c
  cases h with
  | plain quote backslash control =>
    exact ⟨[.char c], pieces_plain quote backslash control, fun ps => rfl⟩
  | letter known => exact ⟨[.char c], pieces_letter known, fun ps => rfl⟩
  | single units hex =>
    unfold Text.Utf16.units at units
    split at units
    · cases units
      have whole : unitPiece c.toNat = .char c := by rw [unitPiece, if_neg (by omega), back]
      refine ⟨[.char c], fun rest => ?_, fun ps => rfl⟩
      rw [pieces_unit hex, whole]
      rfl
    · simp at units
  | @pair high low _ _ units firstHex secondHex =>
    unfold Text.Utf16.units at units
    split at units
    · simp at units
    · obtain ⟨highIs, lowIs⟩ : 0xD800 + (c.toNat - 0x10000) / 0x400 = high ∧
          0xDC00 + (c.toNat - 0x10000) % 0x400 = low := by simpa using units
      have number : 0x10000 + (high - 0xD800) * 0x400 + (low - 0xDC00) = c.toNat := by omega
      have firstHalf : unitPiece high = .half high := if_pos (by omega)
      have secondHalf : unitPiece low = .half low := if_pos (by omega)
      refine ⟨[.half high, .half low], fun rest => ?_, fun ps => ?_⟩
      · rw [List.append_assoc, pieces_unit firstHex, pieces_unit secondHex, firstHalf, secondHalf]
        cases pieces rest <;> rfl
      · rw [List.cons_append, List.singleton_append, assemble, if_pos (by omega), number, back]

theorem pieces_body {text written : List Char} (h : IsBody text written) (rest : List Char) :
    ∃ ps, pieces (written ++ '\"' :: rest) = some (ps, rest) ∧ assemble ps = some text := by
  induction h with
  | nil => exact ⟨[], rfl, rfl⟩
  | cons character more ih =>
    obtain ⟨ps, read, assembled⟩ := ih
    obtain ⟨parts, here, whole⟩ := pieces_character character
    refine ⟨parts ++ ps, ?_, ?_⟩
    · rw [List.append_assoc, here, read]
      rfl
    · rw [whole, assembled]
      rfl

/-- A string is read from behind its opening quote. -/
theorem string_quoted {text : String} {written : List Char} (h : IsQuoted text written) :
    ∃ body, written = '\"' :: body ∧
      ∀ rest, string (body ++ rest) = some (some text, rest) := by
  obtain ⟨body, spelled, rfl⟩ := h
  refine ⟨body ++ ['\"'], rfl, fun rest => ?_⟩
  obtain ⟨ps, read, assembled⟩ := pieces_body spelled rest
  rw [List.append_assoc, List.singleton_append, string, read, Option.map_some]
  simp [assembled]

end Reader

/-! ## Printing -/

namespace Printer

theorem isHex_control {n : Nat} (h : n < 0x20) :
    IsHex n ['0', '0', Nat.digitChar (n / 16), Nat.digitChar (n % 16)] := by
  have zero : Text.hexDigit? '0' = some 0 := by decide
  have upper := Text.hexDigit?_digitChar (n / 16) (by omega)
  have lower := Text.hexDigit?_digitChar (n % 16) (by omega)
  refine ⟨rfl, ?_⟩
  simp [zero, upper, lower, Text.number]
  omega

theorem isCharacter_escape (c : Char) : IsCharacter c (escape c) := by
  unfold escape
  split
  · next quote => exact .letter (by rw [quote]; decide)
  split
  · next backslash => exact .letter (by rw [backslash]; decide)
  split
  · next back => exact .letter (by rw [back]; decide)
  split
  · next feed => exact .letter (by rw [feed]; decide)
  split
  · next line => exact .letter (by rw [line]; decide)
  split
  · next carriage => exact .letter (by rw [carriage]; decide)
  split
  · next tab => exact .letter (by rw [tab]; decide)
  split
  · next control =>
    have units : Text.Utf16.units c = [c.toNat] := if_pos (by omega)
    exact .single units (isHex_control control)
  · next quote backslash _ _ _ _ _ control => exact .plain quote backslash (by omega)

theorem isBody_flatMap_escape (text : List Char) : IsBody text (text.flatMap escape) := by
  induction text with
  | nil => exact .nil
  | cons c rest ih => exact .cons (isCharacter_escape c) ih

theorem isQuoted_quote (text : String) : IsQuoted text (quote text) :=
  ⟨_, isBody_flatMap_escape text.toList, rfl⟩

end Printer

end Emitter.Json
