import Compendium.Number.Binary64
import Compendium.Text.Occurrence

/-! Decimal numerals as free text writes them: an optional sign, digits with an optional point among them, an
optional exponent, or one of the names of infinity and of the undefined value. -/

set_option autoImplicit false
namespace Compendium

/-- The number written by decimal digits. -/
def readDigits (digits : List Char) : Nat :=
  digits.foldl (fun value digit => value * 10 + (digit.toNat - '0'.toNat)) 0

/-- Cuts a sign off. -/
def cutSign : List Char → Bool × List Char
  | '-' :: rest => (true, rest)
  | '+' :: rest => (false, rest)
  | text => (false, text)

/-- What a numeral denotes. -/
inductive Numeral where
  | finite (value : Binary64)
  | notFinite
  deriving DecidableEq, Repr

namespace Numeral

def names : List (List Char) :=
  [['i', 'n', 'f'], ['i', 'n', 'f', 'i', 'n', 'i', 't', 'y'], ['n', 'a', 'n']]

/-- The exponent part, which must use up the text. -/
def exponent? : List Char → Option Int
  | [] => some 0
  | mark :: rest =>
    let (negative, digits) := cutSign rest
    if (mark = 'e' ∨ mark = 'E') ∧ digits ≠ [] ∧ digits.all Char.isDigit then
      some (if negative then -(readDigits digits : Int) else readDigits digits)
    else none

/-- Reads the whole text as one numeral, correctly rounded. -/
def ofText? (text : List Char) : Option Numeral :=
  let (negative, body) := cutSign text
  if names.contains (body.map Char.toLower) then some .notFinite
  else
    let whole := body.takeWhile Char.isDigit
    let (fraction, tail) :=
      match body.dropWhile Char.isDigit with
      | '.' :: rest => (rest.takeWhile Char.isDigit, rest.dropWhile Char.isDigit)
      | rest => ([], rest)
    if whole ++ fraction = [] then none
    else (exponent? tail).map fun exponent =>
      match Binary64.ofDecimal? negative (readDigits (whole ++ fraction)) (exponent - fraction.length) with
      | some value => .finite value
      | none => .notFinite

end Numeral
end Compendium
