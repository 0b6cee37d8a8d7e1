import Compendium.Number.Shortest

/-! The two written forms of a double. The document form is positional from a hundred-thousandth up to ten
quadrillion and has an exponent elsewhere; a whole value keeps `.0`. The plain form is always positional and writes
a whole value like an integer. -/

set_option autoImplicit false
namespace Compendium

namespace ShortDecimal

def zeros (count : Int) : List Char :=
  List.replicate count.toNat '0'

/-- Positional notation; `whole` is what follows the digits of a value without fraction. -/
def positional (d : ShortDecimal) (whole : List Char) : List Char :=
  if d.point ≤ 0 then '0' :: '.' :: (zeros (-d.point) ++ d.digits)
  else if (d.digits.length : Int) ≤ d.point then
    d.digits ++ zeros (d.point - d.digits.length) ++ whole
  else d.digits.take d.point.toNat ++ '.' :: d.digits.drop d.point.toNat

/-- One digit before the point, and the exponent with its sign. -/
def scientific (d : ShortDecimal) : List Char :=
  let exponent := d.point - 1
  let sign := if exponent < 0 then '-' else '+'
  let mantissa :=
    match d.digits with
    | [] => ['0']
    | [digit] => [digit]
    | digit :: rest => digit :: '.' :: rest
  mantissa ++ 'e' :: sign :: Nat.toDigits 10 exponent.natAbs

end ShortDecimal

namespace Binary64

def signed (x : Binary64) (text : List Char) : String :=
  String.ofList (if x.negative then '-' :: text else text)

def documentText (x : Binary64) : String :=
  if x.isZero then x.signed ['0', '.', '0']
  else
    let d := x.shortest .toEven
    x.signed (if -5 < d.point ∧ d.point ≤ 16 then d.positional ['.', '0'] else d.scientific)

def plainText (x : Binary64) : String :=
  if x.isZero then x.signed ['0']
  else x.signed ((x.shortest .upward).positional [])

end Binary64
end Compendium
