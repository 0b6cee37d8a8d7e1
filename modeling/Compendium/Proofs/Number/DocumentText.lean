import Compendium.Number.Basic

/-! The characters of a number in a written document: digits, a sign, a point and the mark of the exponent. -/

set_option autoImplicit false
namespace Compendium

def isNumeralChar (c : Char) : Bool :=
  c.isDigit || c == '-' || c == '+' || c == '.' || c == 'e'

/-- Only characters of a numeral. -/
def OfNumeral (text : List Char) : Prop :=
  ∀ c ∈ text, isNumeralChar c = true

namespace OfNumeral

theorem nil : OfNumeral [] := by
  intro c member
  cases member

theorem cons {c : Char} {rest : List Char} (first : isNumeralChar c = true) (numeral : OfNumeral rest) :
    OfNumeral (c :: rest) := by
  intro other member
  rcases List.mem_cons.mp member with rfl | later
  · exact first
  · exact numeral other later

theorem append {first second : List Char} (left : OfNumeral first) (right : OfNumeral second) :
    OfNumeral (first ++ second) := by
  intro c member
  rcases List.mem_append.mp member with here | later
  · exact left c here
  · exact right c later

theorem of_subset {text whole : List Char} (numeral : OfNumeral whole) (subset : text ⊆ whole) : OfNumeral text :=
  fun c member => numeral c (subset member)

theorem digits (value : Nat) : OfNumeral (Nat.toDigits 10 value) := by
  intro c member
  have digit := Nat.isDigit_of_mem_toDigits (by decide) (by decide) member
  simp [isNumeralChar, digit]

theorem zeros (count : Int) : OfNumeral (ShortDecimal.zeros count) := by
  intro c member
  rw [List.eq_of_mem_replicate member]
  rfl

theorem shortest (x : Binary64) (tie : Tie) : OfNumeral (x.shortest tie).digits := by
  have all := digits (x.searchGrids tie (x.pointOf - 1) 17).1
  apply all.of_subset
  intro c member
  rw [Binary64.shortest, List.mem_reverse] at member
  exact List.mem_reverse.mp (List.dropWhile_subset _ member)

theorem positional {d : ShortDecimal} {whole : List Char} (decimals : OfNumeral d.digits) (ending : OfNumeral whole) :
    OfNumeral (d.positional whole) := by
  unfold ShortDecimal.positional
  split
  · exact .cons rfl (.cons rfl ((zeros _).append decimals))
  split
  · exact (decimals.append (zeros _)).append ending
  · exact (decimals.of_subset (List.take_subset _ _)).append (.cons rfl (decimals.of_subset (List.drop_subset _ _)))

theorem scientific {d : ShortDecimal} (decimals : OfNumeral d.digits) : OfNumeral d.scientific := by
  unfold ShortDecimal.scientific
  refine append ?_ (.cons rfl (.cons ?_ (digits _)))
  · split
    · exact .cons rfl .nil
    · next single =>
      rw [single] at decimals
      exact decimals
    · next digit rest _ several =>
      rw [several] at decimals
      have first : isNumeralChar digit = true := decimals digit List.mem_cons_self
      exact .cons first (.cons rfl (decimals.of_subset (List.subset_cons_self _ _)))
  · split <;> rfl

theorem signed (x : Binary64) {text : List Char} (numeral : OfNumeral text) : OfNumeral (x.signed text).toList := by
  rw [Binary64.signed, String.toList_ofList]
  split
  · exact .cons rfl numeral
  · exact numeral

end OfNumeral

theorem Binary64.ofNumeral_documentText (x : Binary64) : OfNumeral x.documentText.toList := by
  unfold documentText
  split
  · exact OfNumeral.signed x (.cons rfl (.cons rfl (.cons rfl .nil)))
  · apply OfNumeral.signed
    split
    · exact (OfNumeral.shortest x .toEven).positional (.cons rfl (.cons rfl .nil))
    · exact (OfNumeral.shortest x .toEven).scientific

theorem Number.ofNumeral_documentText (number : Number) : OfNumeral number.documentText.toList := by
  cases number with
  | double value => exact value.ofNumeral_documentText
  | integer value =>
    cases value with
    | ofNat magnitude =>
      change OfNumeral (toString magnitude).toList
      rw [Nat.toString_eq_ofList_toDigits, String.toList_ofList]
      exact OfNumeral.digits magnitude
    | negSucc magnitude =>
      change OfNumeral ("-" ++ toString (magnitude + 1)).toList
      have sign : OfNumeral "-".toList := .cons rfl .nil
      rw [Nat.toString_eq_ofList_toDigits, String.toList_append]
      apply sign.append
      rw [String.toList_ofList]
      exact OfNumeral.digits (magnitude + 1)

end Compendium
