import Emitter.Json.Reader
import Emitter.Number.Fraction

/-! Numbers as they are written: the ways to write a number, the exact value of its digits, and the
reader that gets the number back however it is written. -/

namespace Emitter.Json

def digitChars (ds : List Nat) : List Char := ds.map Nat.digitChar

@[simp] theorem length_digitChars (ds : List Nat) : (digitChars ds).length = ds.length :=
  List.length_map _

@[simp] theorem digitChars_append (ds es : List Nat) :
    digitChars (ds ++ es) = digitChars ds ++ digitChars es :=
  List.map_append

@[simp] theorem digitChars_take (n : Nat) (ds : List Nat) :
    digitChars (ds.take n) = (digitChars ds).take n :=
  List.map_take

@[simp] theorem digitChars_drop (n : Nat) (ds : List Nat) :
    digitChars (ds.drop n) = (digitChars ds).drop n :=
  List.map_drop

@[simp] theorem digitChars_tail (ds : List Nat) : digitChars ds.tail = (digitChars ds).tail :=
  List.map_tail

@[simp] theorem digitChars_replicate_zero (n : Nat) :
    digitChars (List.replicate n 0) = List.replicate n '0' :=
  List.map_replicate

namespace Number

def fractionText : Option (List Nat) → List Char
  | none => []
  | some ds => '.' :: digitChars ds

def exponentText : Option (Bool × List Nat) → List Char
  | none => []
  | some (down, ds) => 'E' :: (if down then '-' else '+') :: digitChars ds

def text (n : Number) : List Char :=
  (if n.negative then ['-'] else []) ++
    (digitChars n.whole ++ (fractionText n.fraction ++ exponentText n.exponent))

/-- All digits, as if there were no point between them. -/
def coefficient (n : Number) : Nat := Text.number 10 (n.whole ++ n.fraction.getD [])

/-- The power of ten that the last digit counts. -/
def lastPlace (n : Number) : Int :=
  (match n.exponent with
    | none => 0
    | some (down, ds) => if down then -(Text.number 10 ds : Int) else Text.number 10 ds) -
    (n.fraction.getD []).length

/-- What the digits stand for, with nothing rounded. The sign is left out. -/
def exact (n : Number) : Fraction := (Fraction.ofNat n.coefficient).scale 10 n.lastPlace

/-- Digits are digits, there are some wherever there can be, and no zero leads a longer number. -/
structure WellFormed (n : Number) : Prop where
  whole : n.whole ≠ [] ∧ ∀ d ∈ n.whole, d < 10
  leading : n.whole.head? = some 0 → n.whole = [0]
  fraction : ∀ ds ∈ n.fraction, ds ≠ [] ∧ ∀ d ∈ ds, d < 10
  exponent : ∀ e ∈ n.exponent, e.2 ≠ [] ∧ ∀ d ∈ e.2, d < 10

/-- The ways to write an exponent: the letter in either case, and a sign that may be left out. -/
inductive IsExponent : Option (Bool × List Nat) → List Char → Prop where
  | none : IsExponent none []
  | unsigned {letter : Char} {ds : List Nat} (isLetter : letter = 'e' ∨ letter = 'E') :
      IsExponent (some (false, ds)) (letter :: digitChars ds)
  | signed {letter : Char} {down : Bool} {ds : List Nat} (isLetter : letter = 'e' ∨ letter = 'E') :
      IsExponent (some (down, ds)) (letter :: (if down then '-' else '+') :: digitChars ds)

/-- The ways to write a number. -/
def IsNumeral (n : Number) (written : List Char) : Prop :=
  n.WellFormed ∧ ∃ exponent, IsExponent n.exponent exponent ∧
    written = (if n.negative then ['-'] else []) ++
      (digitChars n.whole ++ (fractionText n.fraction ++ exponent))

theorem isExponent_exponentText : ∀ e, IsExponent e (exponentText e)
  | none => .none
  | some _ => .signed (.inr rfl)

theorem isNumeral_text {n : Number} (h : n.WellFormed) : n.IsNumeral n.text :=
  ⟨h, _, isExponent_exponentText n.exponent, rfl⟩

/-- A number starts with its sign or with a digit. -/
theorem IsNumeral.head {n : Number} {written : List Char} (h : n.IsNumeral written) :
    ∃ c more, written = c :: more ∧
      c ∈ ['-', '0', '1', '2', '3', '4', '5', '6', '7', '8', '9'] := by
  obtain ⟨wellFormed, exponent, -, rfl⟩ := h
  cases n.negative with
  | true => exact ⟨'-', _, rfl, List.mem_cons_self⟩
  | false =>
    have digit : ∀ d < 10,
        Nat.digitChar d ∈ ['-', '0', '1', '2', '3', '4', '5', '6', '7', '8', '9'] := by decide
    obtain ⟨d, ds, whole⟩ := List.exists_cons_of_ne_nil wellFormed.whole.1
    rw [whole]
    exact ⟨_, _, rfl, digit d (wellFormed.whole.2 d (whole ▸ List.mem_cons_self))⟩

end Number

/-- A text with which no number goes on. -/
def Ends (rest : List Char) : Prop :=
  ∀ c ∈ rest.head?, Text.digit? c = none ∧ c ≠ '.' ∧ c ≠ 'e' ∧ c ≠ 'E'

namespace Reader

theorem digit?_digitChar : ∀ d < 10, Text.digit? (Nat.digitChar d) = some d := by decide

theorem digits_append {ds : List Nat} (small : ∀ d ∈ ds, d < 10) {rest : List Char}
    (stop : ∀ c ∈ rest.head?, Text.digit? c = none) :
    digits (digitChars ds ++ rest) = (ds, rest) := by
  induction ds with
  | nil =>
    cases rest with
    | nil => rfl
    | cons c rest => simp [digitChars, digits, stop c rfl]
  | cons d ds ih =>
    rw [List.forall_mem_cons] at small
    have later : digits (ds.map Nat.digitChar ++ rest) = (ds, rest) := ih small.2
    simp [digitChars, digits, digit?_digitChar d small.1, later]

theorem someDigits_append {ds : List Nat} (some_ : ds ≠ []) (small : ∀ d ∈ ds, d < 10)
    {rest : List Char} (stop : ∀ c ∈ rest.head?, Text.digit? c = none) :
    someDigits (digitChars ds ++ rest) = some (ds, rest) := by
  cases ds with
  | nil => exact absurd rfl some_
  | cons d ds => rw [someDigits, digits_append small stop]

theorem whole_append {n : Number} (h : n.WellFormed) {rest : List Char}
    (stop : ∀ c ∈ rest.head?, Text.digit? c = none) :
    whole (digitChars n.whole ++ rest) = some (n.whole, rest) := by
  have leading := h.leading
  rw [whole, digits_append h.whole.2 stop]
  split
  · next nothing => exact absurd (Prod.mk.inj nothing).1 h.whole.1
  · next longer =>
    obtain ⟨longer, -⟩ := Prod.mk.inj longer
    rw [longer] at leading
    simp at leading
  · rfl

theorem fraction_append {n : Number} (h : n.WellFormed) {rest : List Char}
    (stop : ∀ c ∈ rest.head?, Text.digit? c = none ∧ c ≠ '.') :
    fraction (Number.fractionText n.fraction ++ rest) = some (n.fraction, rest) := by
  cases found : n.fraction with
  | none =>
    rcases rest with _ | ⟨c, rest⟩
    · rfl
    · rw [Number.fractionText, List.nil_append, fraction]
      rintro more ⟨rfl, -⟩
      exact (stop '.' rfl).2 rfl
  | some ds =>
    obtain ⟨some_, small⟩ := h.fraction ds found
    rw [Number.fractionText, List.cons_append, fraction,
      someDigits_append some_ small fun c mem => (stop c mem).1]
    rfl

theorem exponentSign_digits {ds : List Nat} (some_ : ds ≠ []) (small : ∀ d ∈ ds, d < 10)
    (rest : List Char) : exponentSign (digitChars ds ++ rest) = (false, digitChars ds ++ rest) := by
  cases ds with
  | nil => exact absurd rfl some_
  | cons d ds =>
    have digit : ∀ d < 10, Nat.digitChar d ≠ '+' ∧ Nat.digitChar d ≠ '-' := by decide
    obtain ⟨plus, minus⟩ := digit d (small d List.mem_cons_self)
    rw [exponentSign]
    · exact fun _ h => plus (List.cons.inj h).1
    · exact fun _ h => minus (List.cons.inj h).1

theorem exponent_append {n : Number} (h : n.WellFormed) {written : List Char}
    (spelled : Number.IsExponent n.exponent written) {rest : List Char} (stop : Ends rest) :
    exponent (written ++ rest) = some (n.exponent, rest) := by
  have digits := h.exponent
  generalize n.exponent = e at spelled digits
  cases spelled with
  | none =>
    rcases rest with _ | ⟨c, rest⟩
    · rfl
    · obtain ⟨-, -, lower, upper⟩ := stop c rfl
      simp [exponent, lower, upper]
  | @unsigned letter ds isLetter =>
    obtain ⟨some_, small⟩ := digits (false, ds) rfl
    have read := someDigits_append some_ small fun c mem => (stop c mem).1
    simp [exponent, isLetter, exponentSign_digits some_ small, read]
  | @signed letter down ds isLetter =>
    obtain ⟨some_, small⟩ := digits (down, ds) rfl
    have read := someDigits_append some_ small fun c mem => (stop c mem).1
    cases down <;> simp [exponent, isLetter, exponentSign, read]

/-- Neither a digit nor a point is the first character of an exponent. -/
theorem exponent_head {e : Option (Bool × List Nat)} {written : List Char}
    (h : Number.IsExponent e written) {rest : List Char} (stop : Ends rest) :
    ∀ c ∈ (written ++ rest).head?, Text.digit? c = none ∧ c ≠ '.' := by
  have letters : ∀ c : Char, c = 'e' ∨ c = 'E' → Text.digit? c = none ∧ c ≠ '.' := by
    rintro c (rfl | rfl) <;> decide
  intro c mem
  cases h with
  | none => exact ⟨(stop c mem).1, (stop c mem).2.1⟩
  | unsigned isLetter =>
    cases mem
    exact letters _ isLetter
  | signed isLetter =>
    cases mem
    exact letters _ isLetter

/-- The parts of a number in order, with and without a sign before them. -/
theorem number_of_parts {text afterWhole afterFraction rest : List Char} {whole_ : List Nat}
    {fraction_ : Option (List Nat)} {exponent_ : Option (Bool × List Nat)}
    (unsigned : ∀ more, text ≠ '-' :: more) (readWhole : whole text = some (whole_, afterWhole))
    (readFraction : fraction afterWhole = some (fraction_, afterFraction))
    (readExponent : exponent afterFraction = some (exponent_, rest)) (negative : Bool) :
    number ((if negative then ['-'] else []) ++ text) =
      some (⟨negative, whole_, fraction_, exponent_⟩, rest) := by
  cases negative with
  | true => simp [number, readWhole, readFraction, readExponent]
  | false =>
    rw [if_neg Bool.false_ne_true, List.nil_append, number]
    · simp [readWhole, readFraction, readExponent]
    · exact unsigned

/-- A number is read back however it is written, and whatever follows. -/
theorem number_append {n : Number} {written : List Char} (h : n.IsNumeral written)
    {rest : List Char} (stop : Ends rest) : number (written ++ rest) = some (n, rest) := by
  obtain ⟨wellFormed, exponent, spelled, rfl⟩ := h
  have afterFraction := exponent_head spelled stop
  have afterWhole : ∀ c ∈ (Number.fractionText n.fraction ++ (exponent ++ rest)).head?,
      Text.digit? c = none := by
    intro c mem
    cases fraction : n.fraction with
    | none =>
      rw [fraction] at mem
      exact (afterFraction c mem).1
    | some ds =>
      rw [fraction] at mem
      obtain rfl : '.' = c := by simpa [Number.fractionText] using mem
      decide
  have unsigned : ∀ more, digitChars n.whole ++
      (Number.fractionText n.fraction ++ (exponent ++ rest)) ≠ '-' :: more := by
    intro more minus
    obtain ⟨d, ds, whole⟩ := List.exists_cons_of_ne_nil wellFormed.whole.1
    have digit : ∀ d < 10, Nat.digitChar d ≠ '-' := by decide
    rw [whole, digitChars, List.map_cons, List.cons_append] at minus
    exact digit d (wellFormed.whole.2 d (whole ▸ List.mem_cons_self)) (List.cons.inj minus).1
  rw [List.append_assoc, List.append_assoc, List.append_assoc]
  exact number_of_parts unsigned (whole_append wellFormed afterWhole)
    (fraction_append wellFormed afterFraction) (exponent_append wellFormed spelled stop) n.negative

theorem number_text {n : Number} (h : n.WellFormed) : number n.text = some (n, []) := by
  have ends : Ends [] := nofun
  have read := number_append (Number.isNumeral_text h) ends
  rwa [List.append_nil] at read

end Reader

end Emitter.Json
