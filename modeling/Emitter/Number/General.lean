import Emitter.Number.Binary

/-! General notation: a number rounded to a count of significant decimal digits, written
positionally where its exponent is small and with an exponent elsewhere, without zeros at the end
of a fraction. -/

namespace Emitter.General

-- Powers are those of the core library, also where others are in scope.
attribute [local instance (high)] instPowNat

/-- A number in scientific form: the digits without a point, and the exponent of the first. -/
structure Decimal where
  digits : Nat
  exponent : Int
deriving DecidableEq, Repr

/-- `precision` significant digits of a positive fraction, halves to even. -/
def significant (precision : Nat) (x : Fraction) : Decimal :=
  let e := x.leading 10
  let n := (x.scale 10 (precision - 1 - e)).nearestEven
  if n = 10 ^ precision then ⟨10 ^ (precision - 1), e + 1⟩ else ⟨n, e⟩

/-- Zeros at the end go, but the first digit stays. -/
def trimZeros : List Char → List Char
  | [] => []
  | d :: rest => d :: (rest.reverse.dropWhile (· == '0')).reverse

def zeros (n : Nat) : List Char := List.replicate n '0'

/-- At least two digits. -/
def exponentDigits (e : Nat) : List Char :=
  let digits := Nat.toDigits 10 e
  zeros (2 - digits.length) ++ digits

def scientific (digits : List Char) (e : Int) : List Char :=
  digits.take 1 ++ (if digits.length ≤ 1 then [] else '.' :: digits.drop 1) ++
    ['E', if e < 0 then '-' else '+'] ++ exponentDigits e.natAbs

def positional (digits : List Char) (e : Int) : List Char :=
  if e < 0 then ['0', '.'] ++ zeros (e.natAbs - 1) ++ digits
  else
    let whole := e.toNat + 1
    if digits.length ≤ whole then digits ++ zeros (whole - digits.length)
    else digits.take whole ++ '.' :: digits.drop whole

def layout (precision : Nat) (d : Decimal) : List Char :=
  let digits := trimZeros (Nat.toDigits 10 d.digits)
  if d.exponent ≤ -5 ∨ precision ≤ d.exponent then scientific digits d.exponent
  else positional digits d.exponent

/-- A precision of zero counts as one, and there is no greatest: a formatter that keeps the run-time
precision in 16 bits, which takes up to 65536 digits, gives up beyond that. -/
def text (precision : Nat) : Binary.Value → String
  | .nan => "NaN"
  | .infinite negative => if negative then "-Infinity" else "Infinity"
  | .finite negative significand exponent =>
    let sign := if negative then ['-'] else []
    let precision := max precision 1
    let size := Binary.magnitude significand exponent
    String.ofList (sign ++
      if significand = 0 then ['0'] else layout precision (significant precision size))

/-- Significant digits from which every number of the format can be read back. -/
def singleDigits : Nat := 9

def doubleDigits : Nat := 17

end Emitter.General
