/-! Finite doubles as exact values. A double is a signed coefficient times a power of two; reading and scaling go
through the quotient of two naturals, rounded once to the nearest double with ties to the even coefficient. -/

set_option autoImplicit false
namespace Compendium

/-- The value is `coeff * 2 ^ (power - 1074)`, negated if `negative`. The form is canonical: the coefficient has
53 binary digits unless the power is the least one. -/
structure Binary64 where
  negative : Bool
  coeff : Nat
  power : Nat
  coeff_lt : coeff < Nat.pow 2 53
  power_le : power ≤ 2045
  canonical : power = 0 ∨ Nat.pow 2 52 ≤ coeff
  deriving DecidableEq, Repr

namespace Binary64

def zero (negative : Bool) : Binary64 :=
  ⟨negative, 0, 0, by decide, by decide, .inl rfl⟩

def isZero (x : Binary64) : Bool :=
  x.coeff == 0

/-- Refuses what is too large for a double. -/
def ofParts? (negative : Bool) (coeff power : Nat) : Option Binary64 :=
  if h : coeff < Nat.pow 2 53 ∧ power ≤ 2045 ∧ (power = 0 ∨ Nat.pow 2 52 ≤ coeff) then
    some ⟨negative, coeff, power, h.1, h.2.1, h.2.2⟩
  else none

/-- The quotient rounded to the nearest natural, a tie to the even one. -/
def roundQuotient (num den : Nat) : Nat :=
  let low := num / den
  let rest := 2 * (num % den)
  if rest < den then low
  else if den < rest then low + 1
  else if low % 2 = 0 then low else low + 1

/-- `num / den` divided by a power of two, again as a quotient. -/
def divPower (num den : Nat) (exponent : Int) : Nat × Nat :=
  (num * Nat.pow 2 (-exponent).toNat, den * Nat.pow 2 exponent.toNat)

/-- The least exponent that leaves a coefficient of at most 53 binary digits. -/
def scaleOf (num den : Nat) : Int :=
  let guess := max ((num.log2 : Int) - den.log2 - 53) (-1074)
  let (n, d) := divPower num den guess
  if Nat.pow 2 53 ≤ n / d then guess + 1 else guess

/-- The nearest double of a quotient, or nothing if that is beyond the largest double. -/
def ofQuotient? (negative : Bool) (num den : Nat) : Option Binary64 :=
  if num = 0 then some (zero negative)
  else
    let exponent := scaleOf num den
    let (n, d) := divPower num den exponent
    let coeff := roundQuotient n d
    if coeff = Nat.pow 2 53 then ofParts? negative (Nat.pow 2 52) (exponent + 1075).toNat
    else ofParts? negative coeff (exponent + 1074).toNat

/-- Numerator and denominator of the absolute value. -/
def quotient (x : Binary64) : Nat × Nat :=
  (x.coeff * Nat.pow 2 (x.power - 1074), Nat.pow 2 (1074 - x.power))

def mul? (x y : Binary64) : Option Binary64 :=
  let (a, b) := x.quotient
  let (c, d) := y.quotient
  ofQuotient? (x.negative != y.negative) (a * c) (b * d)

/-- The divisor is meant to be nonzero. -/
def div? (x y : Binary64) : Option Binary64 :=
  let (a, b) := x.quotient
  let (c, d) := y.quotient
  ofQuotient? (x.negative != y.negative) (a * d) (b * c)

/-- The integer part of the absolute value. -/
def wholePart (x : Binary64) : Nat :=
  let (a, b) := x.quotient
  a / b

/-- The value with its fraction cut off. -/
def truncate (x : Binary64) : Int :=
  if x.negative then -(x.wholePart : Int) else x.wholePart

def isWhole (x : Binary64) : Bool :=
  let (a, b) := x.quotient
  a % b == 0

/-- How many digits a decimal coefficient has; zero has one. -/
def digitCount (coeff : Nat) : Nat :=
  (Nat.toDigits 10 coeff).length

/-- The nearest double of `coeff * 10 ^ exponent`, or nothing if that is beyond the largest double. Values far
outside the range of doubles are settled by their number of digits alone. -/
def ofDecimal? (negative : Bool) (coeff : Nat) (exponent : Int) : Option Binary64 :=
  let magnitude := (digitCount coeff : Int) + exponent
  if coeff = 0 ∨ magnitude < -330 then some (zero negative)
  else if 310 < magnitude then none
  else ofQuotient? negative (coeff * Nat.pow 10 exponent.toNat) (Nat.pow 10 (-exponent).toNat)

end Binary64
end Compendium
