import Compendium.Number.Binary64

/-! The fewest decimal digits that read back to a double. Candidates are the two neighbours of the value on each
decimal grid, from the coarsest grid on; the first grid with a candidate that reads back decides, and of two such
candidates the nearer. -/

set_option autoImplicit false
namespace Compendium

/-- `digits` are the decimal digits without trailing zeros, read as a number between zero and one; the value is
that number times `10 ^ point`. -/
structure ShortDecimal where
  digits : List Char
  point : Int
  deriving DecidableEq, Repr

/-- What to do when the two candidates of a grid are equally near. -/
inductive Tie where
  | toEven
  | upward
  deriving DecidableEq, Repr

namespace Binary64

/-- Whether the next double below is at half the usual distance. -/
def narrowBelow (x : Binary64) : Bool :=
  x.coeff == Nat.pow 2 52 && x.power != 0

/-- `quarters` quarters of the unit of the coefficient, divided by `10 ^ place`, as a quotient. -/
def onGrid (x : Binary64) (quarters : Nat) (place : Int) : Nat × Nat :=
  (quarters * Nat.pow 2 (x.power - 1076) * Nat.pow 10 (-place).toNat, Nat.pow 2 (1076 - x.power) * Nat.pow 10 place.toNat)

/-- Whether `candidate * 10 ^ place` rounds to the double: it lies between the midpoints towards the two
neighbours, which themselves belong to an even coefficient. -/
def readsBack (x : Binary64) (candidate : Nat) (place : Int) : Bool :=
  let (lowNum, lowDen) := x.onGrid (4 * x.coeff - if x.narrowBelow then 1 else 2) place
  let (highNum, highDen) := x.onGrid (4 * x.coeff + 2) place
  if x.coeff % 2 = 0 then lowNum ≤ candidate * lowDen && candidate * highDen ≤ highNum
  else lowNum < candidate * lowDen && candidate * highDen < highNum

/-- The candidate that represents the double on the grid of `10 ^ place`, if there is one. -/
def candidate? (x : Binary64) (tie : Tie) (place : Int) : Option Nat :=
  let (num, den) := x.onGrid (4 * x.coeff) place
  let low := num / den
  let rest := 2 * (num % den)
  match x.readsBack low place, x.readsBack (low + 1) place with
  | true, true =>
    if rest < den then some low
    else if den < rest then some (low + 1)
    else match tie with
      | .toEven => some (if low % 2 = 0 then low else low + 1)
      | .upward => some (low + 1)
  | true, false => some low
  | false, true => some (low + 1)
  | false, false => none

/-- The least power of ten above the value. Every positive double has a digit within 400 places of the point. -/
def pointOf (x : Binary64) : Int :=
  let (num, den) := x.quotient
  (digitCount (num * Nat.pow 10 400 / den) : Int) - 400

/-- Tries the next `fuel` grids, each ten times finer than the one before. -/
def searchGrids (x : Binary64) (tie : Tie) (place : Int) : Nat → Nat × Int
  | 0 => (0, place)
  | fuel + 1 =>
    match x.candidate? tie place with
    | some candidate => (candidate, place)
    | none => x.searchGrids tie (place - 1) fuel

/-- The shortest decimal of the absolute value. Seventeen digits are always enough. -/
def shortest (x : Binary64) (tie : Tie) : ShortDecimal :=
  let (candidate, place) := x.searchGrids tie (x.pointOf - 1) 17
  let digits := Nat.toDigits 10 candidate
  ⟨(digits.reverse.dropWhile (· == '0')).reverse, digits.length + place⟩

end Binary64
end Compendium
