import Compendium.Catalog.Script
import Compendium.Proofs.Tooltip.Numerals
import Mathlib

/-! Integers at the start of a text. One is read whenever its digits by themselves are an integer of 64 bits, so of all
integers of 64 bits only the least one is not read from a text. -/

set_option autoImplicit false
namespace Compendium

theorem Text.isBlank_of_isDigit {c : Char} (digit : c.isDigit = true) : isBlank c = false := by
  rw [Char.isDigit, Bool.and_eq_true, decide_eq_true_eq, decide_eq_true_eq] at digit
  have low : 48 ≤ c.toNat := UInt32.le_iff_toNat_le.mp digit.1
  have high : c.toNat ≤ 57 := UInt32.le_iff_toNat_le.mp digit.2
  apply Bool.eq_false_iff.mpr
  intro blank
  obtain ⟨range, member, first, last⟩ := (Ranges.contains_iff _ _).mp blank
  have apart : blankRanges.all (fun range => Nat.blt range.2 48 || Nat.blt 57 range.1) = true := by decide
  have here := List.all_eq_true.mp apart range member
  simp only [Bool.or_eq_true, Nat.blt_eq] at here
  omega

/-- Reading on never makes a number less. -/
theorem readDigits_le_append (before after : List Char) : readDigits before ≤ readDigits (before ++ after) := by
  rw [readDigits, readDigits, List.foldl_append]
  generalize before.foldl (fun value digit => value * 10 + (digit.toNat - '0'.toNat)) 0 = value
  -- the digits behind are read on from any value
  induction after generalizing value with
  | nil => exact Nat.le_refl _
  | cons digit rest ih =>
    have more : value ≤ value * 10 + (digit.toNat - '0'.toNat) := by omega
    rw [List.foldl_cons]
    exact more.trans (ih _)

theorem exists_sign (text : List Char) :
    ∃ sign : Option Char, (∀ c ∈ sign, c = '+' ∨ c = '-') ∧ text = sign.toList ++ (cutSign text).2 := by
  unfold cutSign
  split
  · exact ⟨some '-', by simp, rfl⟩
  · exact ⟨some '+', by simp, rfl⟩
  · exact ⟨none, by simp, rfl⟩

namespace Script

/-- White space, a sign or none, and digits. -/
structure LeadingNumeral where
  blanks : List Char
  sign : Option Char
  digits : List Char
  blanks_known : ∀ c ∈ blanks, Text.isBlank c = true
  sign_known : ∀ c ∈ sign, c = '+' ∨ c = '-'
  digits_ne_nil : digits ≠ []
  digits_known : ∀ c ∈ digits, c.isDigit = true

namespace LeadingNumeral

def text (numeral : LeadingNumeral) : List Char :=
  numeral.blanks ++ (numeral.sign.toList ++ numeral.digits)

def value (numeral : LeadingNumeral) : Int :=
  if numeral.sign = some '-' then -(readDigits numeral.digits : Int) else readDigits numeral.digits

/-- The text starts with the numeral, and no digit follows it there. -/
def Opens (numeral : LeadingNumeral) (text : String) : Prop :=
  ∃ rest, text.toList = numeral.text ++ rest ∧ ∀ c ∈ rest.head?, c.isDigit = false

section
variable (numeral : LeadingNumeral)

theorem trimStart_append (rest : List Char) :
    Text.trimStart (numeral.text ++ rest) = numeral.sign.toList ++ (numeral.digits ++ rest) := by
  obtain ⟨c, digits, spelled⟩ := List.exists_cons_of_ne_nil numeral.digits_ne_nil
  have digit : c.isDigit = true := numeral.digits_known c (by simp [spelled])
  rw [Text.trimStart, text, List.append_assoc, List.append_assoc, List.dropWhile_append_of_pos numeral.blanks_known]
  cases signed : numeral.sign with
  | none => simp [spelled, Text.isBlank_of_isDigit digit]
  | some sign =>
    rcases numeral.sign_known sign signed with rfl | rfl
    · rfl
    · rfl

theorem cutSign_append (rest : List Char) : cutSign (numeral.sign.toList ++ (numeral.digits ++ rest)) =
    (decide (numeral.sign = some '-'), numeral.digits ++ rest) := by
  obtain ⟨c, digits, spelled⟩ := List.exists_cons_of_ne_nil numeral.digits_ne_nil
  have digit : c.isDigit = true := numeral.digits_known c (by simp [spelled])
  cases signed : numeral.sign with
  | none => simp [spelled, DecimalNumeral.cutSign_of_isDigit digit]
  | some sign =>
    rcases numeral.sign_known sign signed with rfl | rfl
    · rfl
    · rfl

theorem takeWhile_append {rest : List Char} (ends : ∀ c ∈ rest.head?, c.isDigit = false) :
    (numeral.digits ++ rest).takeWhile Char.isDigit = numeral.digits := by
  rw [List.takeWhile_append_of_pos numeral.digits_known]
  cases rest with
  | nil => simp
  | cons c rest => rw [List.takeWhile_cons_of_neg (by simp [ends c rfl]), List.append_nil]

/-- The sign is out of account where the size of a number is looked at. -/
theorem bounds_value_iff (bound : Int) :
    -bound ≤ numeral.value ∧ numeral.value ≤ bound ↔ (readDigits numeral.digits : Int) ≤ bound := by
  rw [value]
  split <;> omega

end

/-- What is read of a text is up to the numeral that opens it, whatever follows. -/
theorem Opens.leadingDigits? {numeral : LeadingNumeral} {text : String} (opens : numeral.Opens text) :
    leadingDigits? text =
      if (readDigits numeral.digits : Int) ≤ Number.greatestInteger then some numeral.value else none := by
  obtain ⟨rest, spelled, ends⟩ := opens
  simp only [Script.leadingDigits?, spelled, trimStart_append, cutSign_append, takeWhile_append numeral ends, digitsValue?,
    numeral.digits_ne_nil, false_or, decide_eq_true_eq, value]
  by_cases small : (readDigits numeral.digits : Int) ≤ Number.greatestInteger
  · rw [if_neg (Int.not_lt.mpr small), if_pos small]
    rfl
  · rw [if_pos (Int.not_le.mp small), if_neg small]
    rfl

end LeadingNumeral

/-- A text of which an integer is read starts with a numeral. -/
theorem exists_opens {text : String} {value : Int} (read : leadingDigits? text = some value) :
    ∃ numeral : LeadingNumeral, numeral.Opens text := by
  obtain ⟨sign, known, signed⟩ := exists_sign (Text.trimStart text.toList)
  obtain ⟨unsigned, digits, -⟩ := Option.map_eq_some_iff.mp read
  change digitsValue? ((cutSign (Text.trimStart text.toList)).2.takeWhile Char.isDigit) = some unsigned at digits
  generalize (cutSign (Text.trimStart text.toList)).2 = body at signed digits
  have nonempty : body.takeWhile Char.isDigit ≠ [] := by
    intro empty
    rw [empty, digitsValue?, if_pos (.inl rfl)] at digits
    cases digits
  refine ⟨⟨text.toList.takeWhile Text.isBlank, sign, body.takeWhile Char.isDigit, fun _ => List.mem_takeWhile_imp, known,
    nonempty, fun _ => List.mem_takeWhile_imp⟩, body.dropWhile Char.isDigit, ?_, ?_⟩
  · rw [LeadingNumeral.text, List.append_assoc, List.append_assoc, List.takeWhile_append_dropWhile, ← signed]
    exact List.takeWhile_append_dropWhile.symm
  · intro c first
    have other := List.head?_dropWhile_not Char.isDigit body
    rw [Option.mem_def.mp first] at other
    exact other

/-- A text starts with an integer. -/
def StartsWith (text : String) (value : Int) : Prop :=
  ∃ numeral : LeadingNumeral, numeral.Opens text ∧ numeral.value = value

theorem leadingDigits?_eq_some_iff (text : String) (value : Int) : leadingDigits? text = some value ↔
    StartsWith text value ∧ -Number.greatestInteger ≤ value ∧ value ≤ Number.greatestInteger := by
  constructor
  · intro read
    obtain ⟨numeral, opens⟩ := exists_opens read
    rw [opens.leadingDigits?] at read
    split at read
    · next small =>
      obtain rfl := Option.some.inj read
      exact ⟨⟨numeral, opens, rfl⟩, (numeral.bounds_value_iff _).mpr small⟩
    · cases read
  · rintro ⟨⟨numeral, opens, rfl⟩, bounds⟩
    rw [opens.leadingDigits?, if_pos ((numeral.bounds_value_iff _).mp bounds)]

/-- Whether a value is an integer of 64 bits. -/
def Fits (value : Int) : Prop :=
  Number.leastInteger ≤ value ∧ value ≤ Number.greatestInteger

/-- A text is read as the integer that it starts with, just as long as the digits of that alone fit into 64 bits, and so
does every number on the way to it. What follows the digits is of no account. All integers of 64 bits are read, unless
the text starts with the least one. -/
theorem leadingInteger?_text_iff (text : String) :
    (∀ value, leadingInteger? (.text text) = some value ↔
      StartsWith text value ∧ -Number.greatestInteger ≤ value ∧ value ≤ Number.greatestInteger) ∧
    ((∀ value, leadingInteger? (.text text) = some value ↔ StartsWith text value ∧ Fits value) ↔
      ¬ StartsWith text Number.leastInteger) ∧
    (∀ numeral : LeadingNumeral, numeral.Opens text → ∀ other, numeral.Opens other →
      leadingInteger? (.text other) = leadingInteger? (.text text)) ∧
    ∀ numeral : LeadingNumeral, numeral.Opens text → (leadingInteger? (.text text)).isSome →
      ∀ before, before <+: numeral.digits → Fits (readDigits before) ∧ Fits (-readDigits before) := by
  have read := leadingDigits?_eq_some_iff text
  -- the range that is read ends one above the least integer, and nowhere else does it differ from that of 64 bits
  have least : Number.leastInteger = -Number.greatestInteger - 1 := by decide
  refine ⟨read, ?_, ?_, ?_⟩
  · constructor
    · intro all starts
      have missed := (read _).mp ((all _).mpr ⟨starts, le_refl _, by decide⟩)
      omega
    · intro other value
      rw [leadingInteger?, read, Fits]
      constructor
      · rintro ⟨starts, bounds⟩
        exact ⟨starts, by omega, bounds.2⟩
      · rintro ⟨starts, low, high⟩
        have apart : value ≠ Number.leastInteger := fun same => other (same ▸ starts)
        exact ⟨starts, by omega, high⟩
  · intro numeral opens other also
    rw [leadingInteger?, leadingInteger?, opens.leadingDigits?, also.leadingDigits?]
  · rintro numeral opens some before ⟨after, whole⟩
    rw [leadingInteger?, opens.leadingDigits?] at some
    have small : (readDigits numeral.digits : Int) ≤ Number.greatestInteger := by
      by_contra large
      rw [if_neg large] at some
      cases some
    have less := readDigits_le_append before after
    rw [whole] at less
    constructor
    · constructor <;> omega
    · constructor <;> omega

/-- White space that is not ASCII, a sign, zeros in front of the number, and more text. -/
theorem leadingInteger?_text_iff_padded : ∃ numeral : LeadingNumeral,
    numeral.Opens "\u3000 -0042.5s" ∧ numeral.Opens "\u3000 -0042" ∧ numeral.value = -42 ∧
    leadingInteger? (.text "\u3000 -0042.5s") = some (-42) ∧ leadingInteger? (.text "\u3000 -0042") = some (-42) ∧
    (∀ value, leadingInteger? (.text "\u3000 -0042.5s") = some value ↔
      StartsWith "\u3000 -0042.5s" value ∧ Fits value) ∧
    Fits (readDigits ['0', '0', '4']) ∧ Fits (-readDigits ['0', '0', '4']) := by
  obtain ⟨read, all, same, steps⟩ := leadingInteger?_text_iff "\u3000 -0042.5s"
  let numeral : LeadingNumeral := ⟨['\u3000', ' '], some '-', ['0', '0', '4', '2'], List.all_eq_true.mp (by decide), by simp,
    by simp, List.all_eq_true.mp (by decide)⟩
  have opens : numeral.Opens "\u3000 -0042.5s" := ⟨['.', '5', 's'], rfl, by simp⟩
  have also : numeral.Opens "\u3000 -0042" := ⟨[], rfl, by simp⟩
  have found : leadingInteger? (.text "\u3000 -0042.5s") = some (-42) :=
    (read _).mpr ⟨⟨numeral, opens, rfl⟩, by decide, by decide⟩
  have apart : ¬ StartsWith "\u3000 -0042.5s" Number.leastInteger := by
    rintro ⟨other, starts, least⟩
    have small : ¬ (readDigits other.digits : Int) ≤ Number.greatestInteger := by
      rw [← other.bounds_value_iff, least]
      decide
    rw [leadingInteger?, starts.leadingDigits?, if_neg small] at found
    cases found
  exact ⟨numeral, opens, also, rfl, found, (same numeral opens _ also).trans found, all.mpr apart,
    steps numeral opens (by rw [found]; rfl) ['0', '0', '4'] ⟨['2'], rfl⟩⟩

/-- The least integer is read of a number but not of a text: its digits by themselves are one too many. -/
theorem leadingInteger?_leastInteger : StartsWith "-9223372036854775808" Number.leastInteger ∧ Fits Number.leastInteger ∧
    leadingInteger? (.integer Number.leastInteger) = some Number.leastInteger ∧
    leadingInteger? (.text "-9223372036854775808") = none := by
  refine ⟨?_, ⟨le_refl _, by decide⟩, by decide, rfl⟩
  refine ⟨⟨[], some '-', "9223372036854775808".toList, by simp, by simp, by decide, ?_⟩, ⟨[], rfl, by simp⟩, rfl⟩
  exact List.all_eq_true.mp (by decide)

end Script
end Compendium
