/-! Non-negative fractions: scaling by powers of a base, the exponent of the leading digit, and
rounding to the nearest whole number with halves going to the even one. -/

namespace Emitter

/-- `num / den`; the denominator is meant to be positive. -/
structure Fraction where
  num : Nat
  den : Nat
deriving DecidableEq, Repr

namespace Fraction

-- Powers are those of the core library, also where others are in scope.
attribute [local instance (high)] instPowNat

def ofNat (n : Nat) : Fraction := ⟨n, 1⟩

def mul (x y : Fraction) : Fraction := ⟨x.num * y.num, x.den * y.den⟩

def div (x y : Fraction) : Fraction := ⟨x.num * y.den, x.den * y.num⟩

/-- The fraction times `base ^ e`. -/
def scale (x : Fraction) (base : Nat) : Int → Fraction
  | .ofNat e => ⟨x.num * base ^ e, x.den⟩
  | .negSucc e => ⟨x.num, x.den * base ^ (e + 1)⟩

/-- The nearest whole number; of two as near, the even one. -/
def nearestEven (x : Fraction) : Nat :=
  let whole := x.num / x.den
  let rest := x.num % x.den
  if 2 * rest < x.den then whole
  else if x.den < 2 * rest then whole + 1
  else whole + whole % 2

/-- Within half a unit. -/
theorem nearestEven_close (x : Fraction) (h : 0 < x.den) :
    2 * x.num ≤ (2 * x.nearestEven + 1) * x.den ∧
      2 * x.nearestEven * x.den ≤ 2 * x.num + x.den := by
  have e : x.den * (x.num / x.den) + x.num % x.den = x.num := Nat.div_add_mod ..
  have l := Nat.mod_lt x.num h
  have m : ∀ q, (2 * q + 1) * x.den = 2 * (x.den * q) + x.den := by
    intro q; rw [Nat.add_mul, Nat.one_mul, Nat.mul_assoc, Nat.mul_comm q]
  have k : ∀ q, 2 * q * x.den = 2 * (x.den * q) := by
    intro q; rw [Nat.mul_assoc, Nat.mul_comm q]
  simp only [nearestEven, m, k]
  split
  · omega
  · split
    · rw [Nat.mul_add, Nat.mul_one]; omega
    · rcases Nat.mod_two_eq_zero_or_one (x.num / x.den) with o | o <;>
        simp only [o, Nat.mul_add, Nat.mul_one, Nat.mul_zero] <;> omega

/-- How many digits a number has in a base; zero has none. -/
def digitCount (base n : Nat) : Nat :=
  if h : n = 0 ∨ base < 2 then 0 else digitCount base (n / base) + 1
termination_by n
decreasing_by exact Nat.div_lt_self (by omega) (by omega)

/-- The exponent `e` with `base ^ e ≤ x < base ^ (e + 1)`, for a positive fraction. -/
def leading (base : Nat) (x : Fraction) : Int :=
  if x.den ≤ x.num then (digitCount base (x.num / x.den) : Int) - 1
  else -(digitCount base ((x.den - 1) / x.num) : Int)

end Fraction

end Emitter
