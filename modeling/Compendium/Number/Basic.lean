import Compendium.Number.Layout
import Compendium.Number.Numeral

/-! Numbers of a document: integers of at most 64 bits, and doubles. -/

set_option autoImplicit false
namespace Compendium

inductive Number where
  | integer (value : Int)
  | double (value : Binary64)
  deriving DecidableEq, Repr

namespace Number

/-- The form a number has in a written document. -/
def documentText : Number → String
  | .integer value => toString value
  | .double value => value.documentText

/-- The form shown to a reader: a whole double below a quadrillion is written as an integer. -/
def displayText : Number → String
  | .integer value => toString value
  | .double value =>
    if value.isWhole && value.wholePart < Nat.pow 10 15 then toString value.truncate else value.plainText

def isZero : Number → Bool
  | .integer value => value == 0
  | .double value => value.isZero

def leastInteger : Int := -(Nat.pow 2 63 : Int)
def greatestInteger : Int := Nat.pow 2 63 - 1

/-- The number as a signed 64-bit integer: fractions are cut off, and what does not fit becomes the nearer end of
the range. -/
def toInteger : Number → Int
  | .integer value => min value greatestInteger
  | .double value => max leastInteger (min value.truncate greatestInteger)

/-- A number from free text: an integer if the numeral is whole and below a quadrillion, a double otherwise. -/
def ofText? (text : List Char) : Option Number :=
  match Numeral.ofText? text with
  | some (.finite value) =>
    if value.isWhole && value.wholePart < Nat.pow 10 15 then some (.integer value.truncate) else some (.double value)
  | some .notFinite | none => none

end Number
end Compendium
