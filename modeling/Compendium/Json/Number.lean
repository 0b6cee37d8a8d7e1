import Compendium.Number.Basic

/-! Numbers of a JSON text. A numeral without point and exponent that fits 64 bits is an integer. Any other is a
double: as many leading digits as fit 64 bits are rounded to a double, which is then multiplied or divided by the
power of ten. Such a double may differ from the nearest one in its last digit. -/

set_option autoImplicit false
namespace Compendium.Json

/-- The parts of a numeral, digits as characters. -/
structure NumeralParts where
  negative : Bool
  whole : List Char
  fraction : Option (List Char)
  exponent : Option (Bool × List Char)

def exponentPart? : List Char → Option (Option (Bool × List Char))
  | [] => some none
  | mark :: rest =>
    let (negative, digits) := cutSign rest
    if (mark = 'e' ∨ mark = 'E') ∧ digits ≠ [] ∧ digits.all Char.isDigit then some (some (negative, digits))
    else none

/-- No leading zero, and a digit on both sides of the point. -/
def NumeralParts.ofText? (text : List Char) : Option NumeralParts :=
  let (negative, body) := match text with
    | '-' :: rest => (true, rest)
    | rest => (false, rest)
  let whole := body.takeWhile Char.isDigit
  let (fraction, tail) := match body.dropWhile Char.isDigit with
    | '.' :: rest => (some (rest.takeWhile Char.isDigit), rest.dropWhile Char.isDigit)
    | rest => (none, rest)
  if whole = [] ∨ (whole.head? = some '0' ∧ whole ≠ ['0']) ∨ fraction = some [] then none
  else (exponentPart? tail).map (⟨negative, whole, fraction, ·⟩)

def wordLimit : Nat := Nat.pow 2 64

/-- A coefficient below the word limit, and the power of ten it stands before. -/
structure Scaled where
  coeff : Nat
  exponent : Int

/-- Appends digits left of the point; those from the first that does not fit only raise the exponent. -/
def Scaled.ofWhole (coeff : Nat) : List Char → Scaled
  | [] => ⟨coeff, 0⟩
  | digit :: rest =>
    let next := coeff * 10 + (digit.toNat - '0'.toNat)
    if next < wordLimit then ofWhole next rest else ⟨coeff, rest.length + 1⟩

/-- Appends digits right of the point and ignores those from the first that does not fit. -/
def Scaled.addFraction (value : Scaled) : List Char → Scaled
  | [] => value
  | digit :: rest =>
    let next := value.coeff * 10 + (digit.toNat - '0'.toNat)
    if next < wordLimit then addFraction ⟨next, value.exponent - 1⟩ rest else value

def powerOfTen? (exponent : Nat) : Option Binary64 :=
  Binary64.ofDecimal? false 1 exponent

/-- Divides by a power of ten, by `10 ^ 308` at a time. -/
def divideByPower? (value : Binary64) (exponent : Nat) : Option Binary64 :=
  if value.isZero then some value
  else if exponent ≤ 308 then (powerOfTen? exponent).bind value.div?
  else ((powerOfTen? 308).bind value.div?).bind fun smaller => divideByPower? smaller (exponent - 308)
termination_by exponent

def Scaled.toBinary? (negative : Bool) (value : Scaled) : Option Binary64 :=
  (Binary64.ofQuotient? negative value.coeff 1).bind fun coeff =>
    if value.exponent < 0 then divideByPower? coeff value.exponent.natAbs
    else if coeff.isZero then some coeff
    else if 308 < value.exponent then none
    else (powerOfTen? value.exponent.natAbs).bind coeff.mul?

def NumeralParts.toNumber? (parts : NumeralParts) : Option Number :=
  let whole := readDigits parts.whole
  match parts.fraction, parts.exponent with
  | none, none =>
    if !parts.negative && whole < wordLimit then some (.integer whole)
    else if parts.negative && 0 < whole && whole ≤ Nat.pow 2 63 then some (.integer (-whole))
    else ((Scaled.ofWhole 0 parts.whole).toBinary? parts.negative).map .double
  | fraction, exponent =>
    let scaled := (Scaled.ofWhole 0 parts.whole).addFraction (fraction.getD [])
    let shift : Int := match exponent with
      | none => 0
      | some (negative, digits) => if negative then -(readDigits digits : Int) else readDigits digits
    ((Scaled.mk scaled.coeff (scaled.exponent + shift)).toBinary? parts.negative).map .double

def number? (text : List Char) : Option Number :=
  (NumeralParts.ofText? text).bind NumeralParts.toNumber?

end Compendium.Json
