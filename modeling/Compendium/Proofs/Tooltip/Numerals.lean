import Mathlib
import Compendium.Number.Numeral
import Compendium.Proofs.Tooltip.ZeroFractions

/-! Levels that are decimal numerals. Cleaning drops a fraction that is all zeros and no other, so every level denotes the
number it denoted before. -/

set_option autoImplicit false
namespace Compendium

/-- A sign or none, digits, and a point with more digits or nothing. -/
structure DecimalNumeral where
  sign : Option Char
  whole : List Char
  fraction : List Char
  sign_known : ∀ c ∈ sign, c = '+' ∨ c = '-'
  whole_ne_nil : whole ≠ []
  digits : (whole ++ fraction).all Char.isDigit = true

namespace DecimalNumeral

/-- The fraction with its point. -/
def pointed (numeral : DecimalNumeral) : List Char :=
  if numeral.fraction = [] then [] else '.' :: numeral.fraction

def text (numeral : DecimalNumeral) : String :=
  String.ofList (numeral.sign.toList ++ (numeral.whole ++ numeral.pointed))

def value (numeral : DecimalNumeral) : ℚ :=
  (if numeral.sign = some '-' then -1 else 1) *
    (readDigits numeral.whole + readDigits numeral.fraction / 10 ^ numeral.fraction.length)

/-- The text is a numeral, and this is its value. -/
def Denotes (text : String) (value : ℚ) : Prop :=
  ∃ numeral : DecimalNumeral, numeral.text = text ∧ numeral.value = value

/-- How a numeral is shown: as a numeral of the same value, which has a fraction only if that is not all zeros. Then it is the
numeral itself. -/
structure ShownAs (numeral : DecimalNumeral) (level : String) : Prop where
  denotes : ∀ value, Denotes level value ↔ value = numeral.value
  point : '.' ∈ level.toList ↔ ∃ c ∈ numeral.fraction, c ≠ '0'
  unchanged : '.' ∈ level.toList → level = numeral.text

/-- Reads the value of a numeral off its text. -/
def readValue (text : List Char) : ℚ :=
  let (negative, body) := cutSign text
  let fraction := (body.dropWhile Char.isDigit).drop 1
  (if negative then -1 else 1) * (readDigits (body.takeWhile Char.isDigit) + readDigits fraction / 10 ^ fraction.length)

theorem cutSign_of_isDigit {c : Char} (digit : c.isDigit = true) (text : List Char) :
    cutSign (c :: text) = (false, c :: text) := by
  unfold cutSign
  split
  · next same => cases same; cases digit
  · next same => cases same; cases digit
  · rfl

theorem isDigit_of_mem (numeral : DecimalNumeral) {c : Char} (member : c ∈ numeral.whole ++ numeral.fraction) :
    c.isDigit = true :=
  List.all_eq_true.mp numeral.digits c member

theorem isDigit_of_mem_whole (numeral : DecimalNumeral) : ∀ c ∈ numeral.whole, c.isDigit = true :=
  fun _ member => numeral.isDigit_of_mem (List.mem_append_left _ member)

theorem cutSign_text (numeral : DecimalNumeral) : cutSign numeral.text.toList =
    (decide (numeral.sign = some '-'), numeral.whole ++ numeral.pointed) := by
  obtain ⟨c, whole, spelled⟩ := List.exists_cons_of_ne_nil numeral.whole_ne_nil
  have digit : c.isDigit = true := numeral.isDigit_of_mem (by simp [spelled])
  rw [text, String.toList_ofList]
  cases signed : numeral.sign with
  | none => simp [spelled, cutSign_of_isDigit digit]
  | some sign =>
    rcases numeral.sign_known sign signed with rfl | rfl
    · rfl
    · rfl

theorem takeWhile_digits (numeral : DecimalNumeral) :
    (numeral.whole ++ numeral.pointed).takeWhile Char.isDigit = numeral.whole := by
  rw [List.takeWhile_append_of_pos numeral.isDigit_of_mem_whole, pointed]
  split
  · simp
  · rw [List.takeWhile_cons_of_neg (by decide), List.append_nil]

theorem dropWhile_digits (numeral : DecimalNumeral) :
    (numeral.whole ++ numeral.pointed).dropWhile Char.isDigit = numeral.pointed := by
  rw [List.dropWhile_append_of_pos numeral.isDigit_of_mem_whole, pointed]
  split
  · rfl
  · rw [List.dropWhile_cons_of_neg (by decide)]

theorem drop_pointed (numeral : DecimalNumeral) : numeral.pointed.drop 1 = numeral.fraction := by
  unfold pointed
  split
  · next empty => rw [empty]; rfl
  · rfl

theorem readValue_text (numeral : DecimalNumeral) : readValue numeral.text.toList = numeral.value := by
  simp only [readValue, cutSign_text, takeWhile_digits, dropWhile_digits, drop_pointed, value, decide_eq_true_eq]

/-- A text denotes at most one number. -/
theorem denotes_text_iff (numeral : DecimalNumeral) (value : ℚ) : Denotes numeral.text value ↔ value = numeral.value := by
  constructor
  · rintro ⟨other, same, rfl⟩
    rw [← readValue_text, same, readValue_text]
  · rintro rfl
    exact ⟨numeral, rfl, rfl⟩

def withoutFraction (numeral : DecimalNumeral) : DecimalNumeral where
  sign := numeral.sign
  whole := numeral.whole
  fraction := []
  sign_known := numeral.sign_known
  whole_ne_nil := numeral.whole_ne_nil
  digits := by
    have digits := numeral.digits
    rw [List.all_append, Bool.and_eq_true] at digits
    rw [List.append_nil]
    exact digits.1

theorem readDigits_zeros {zeros : List Char} (each : ∀ c ∈ zeros, c = '0') : readDigits zeros = 0 := by
  unfold readDigits
  induction zeros with
  | nil => rfl
  | cons c zeros ih =>
    rw [List.forall_mem_cons] at each
    obtain ⟨rfl, later⟩ := each
    exact ih later

theorem value_withoutFraction {numeral : DecimalNumeral} (zeros : ∀ c ∈ numeral.fraction, c = '0') :
    numeral.withoutFraction.value = numeral.value := by
  have bare : numeral.withoutFraction.value = (if numeral.sign = some '-' then -1 else 1) *
      (readDigits numeral.whole + (0 : ℕ) / 10 ^ 0) := rfl
  rw [bare, value, readDigits_zeros zeros, Nat.cast_zero, zero_div, zero_div]

theorem ne_point_of_isDigit {c : Char} (digit : c.isDigit = true) : c ≠ '.' := by
  rintro rfl
  cases digit

theorem pointless_front (numeral : DecimalNumeral) : '.' ∉ numeral.sign.toList ++ numeral.whole := by
  rw [List.mem_append, not_or]
  constructor
  · intro member
    rcases numeral.sign_known '.' (by simpa using member) with same | same <;> cases same
  · intro member
    exact ne_point_of_isDigit (numeral.isDigit_of_mem_whole '.' member) rfl

theorem pointless_fraction (numeral : DecimalNumeral) : '.' ∉ numeral.fraction :=
  fun member => ne_point_of_isDigit (numeral.isDigit_of_mem (List.mem_append_right _ member)) rfl

theorem point_mem_text_iff (numeral : DecimalNumeral) : '.' ∈ numeral.text.toList ↔ numeral.fraction ≠ [] := by
  rw [text, String.toList_ofList, ← List.append_assoc, List.mem_append, or_iff_right numeral.pointless_front, pointed]
  split
  · next empty => simp [empty]
  · next nonempty => simp [nonempty]

end DecimalNumeral

namespace Levels

theorem dropZeroFractions_zeros {zeros : List Char} (nonempty : zeros ≠ []) (each : ∀ c ∈ zeros, c = '0') :
    dropZeroFractions ('.' :: zeros) = [] := by
  have zero : zeros.head? = some '0' := by
    obtain ⟨c, others, rfl⟩ := List.exists_cons_of_ne_nil nonempty
    exact congrArg some (each c List.mem_cons_self)
  have all : zeros.dropWhile (· == '0') = [] := by simpa using each
  rw [dropZeroFractions_point zero, all]

open DecimalNumeral

/-- The digits after a point are no fraction of zeros if another digit is among them. -/
theorem not_holdsZeroFraction_of_nonzero {numeral : DecimalNumeral} {c : Char} (member : c ∈ numeral.fraction)
    (nonzero : c ≠ '0') : ¬ HoldsZeroFraction ('.' :: numeral.fraction) := by
  rw [HoldsZeroFraction, exists_suffix_cons_iff, not_or]
  refine ⟨?_, not_exists_suffix_of_pointless numeral.pointless_fraction⟩
  rintro ⟨zeros, rest, same, -, each, lacks⟩
  have parted : numeral.fraction = zeros ++ rest := (List.cons.inj same).2
  cases rest with
  | nil =>
    rw [List.append_nil] at parted
    exact nonzero (each c (parted ▸ member))
  | cons d rest =>
    have digit : d.isDigit = true := numeral.isDigit_of_mem (by simp [parted])
    have noDigit := lacks d rfl
    rw [Text.isDigitOfAnyScript_of_isDigit digit] at noDigit
    cases noDigit

theorem clean_text (numeral : DecimalNumeral) : clean numeral.text =
    if ∀ c ∈ numeral.fraction, c = '0' then numeral.withoutFraction.text else numeral.text := by
  rw [clean, DecimalNumeral.text, String.toList_ofList, ← List.append_assoc,
    dropZeroFractions_append numeral.pointless_front]
  split
  · next zeros =>
    have nothing : dropZeroFractions numeral.pointed = [] := by
      unfold pointed
      split
      · simp [dropZeroFractions]
      · next nonempty => exact dropZeroFractions_zeros nonempty zeros
    rw [nothing]
    simp [DecimalNumeral.text, withoutFraction, pointed]
  · next other =>
    obtain ⟨c, member, nonzero⟩ : ∃ c ∈ numeral.fraction, c ≠ '0' := by simpa using other
    rw [pointed, if_neg (List.ne_nil_of_mem member), (dropZeroFractions_eq_self_iff _).mpr (not_holdsZeroFraction_of_nonzero member nonzero)]

theorem shownAs_clean (numeral : DecimalNumeral) : numeral.ShownAs (clean numeral.text) := by
  rw [clean_text]
  split
  · next zeros =>
    have pointless : '.' ∉ numeral.withoutFraction.text.toList := by
      rw [point_mem_text_iff]
      exact not_not_intro rfl
    refine ⟨fun value => ?_, iff_of_false pointless ?_, fun point => absurd point pointless⟩
    · rw [denotes_text_iff, value_withoutFraction zeros]
    · rintro ⟨c, member, nonzero⟩
      exact nonzero (zeros c member)
  · next other =>
    have nonzero : ∃ c ∈ numeral.fraction, c ≠ '0' := by simpa using other
    refine ⟨numeral.denotes_text_iff, iff_of_true ?_ nonzero, fun _ => rfl⟩
    obtain ⟨c, member, -⟩ := nonzero
    exact numeral.point_mem_text_iff.mpr (List.ne_nil_of_mem member)

theorem not_mem_text {c : Char} (noSign : c ≠ '+' ∧ c ≠ '-') (noPoint : c ≠ '.') (noDigit : c.isDigit = false)
    (numeral : DecimalNumeral) : c ∉ numeral.text.toList := by
  have digits : ∀ d ∈ numeral.whole ++ numeral.fraction, d ≠ c := by
    rintro d member rfl
    simp [numeral.isDigit_of_mem member] at noDigit
  rw [DecimalNumeral.text, String.toList_ofList, List.mem_append, List.mem_append]
  rintro (signed | inWhole | inFraction)
  · rcases numeral.sign_known c (by simpa using signed) with same | same
    · exact noSign.1 same
    · exact noSign.2 same
  · exact digits c (List.mem_append_left _ inWhole) rfl
  · unfold pointed at inFraction
    split at inFraction
    · cases inFraction
    · rcases List.mem_cons.mp inFraction with same | behind
      · exact noPoint same
      · exact digits c (List.mem_append_right _ behind) rfl

/-- Formatting numerals keeps their number, their order and what each of them denotes. -/
theorem formatText_numerals {numerals : List DecimalNumeral} (nonempty : numerals ≠ []) :
    ∃ levels, List.Forall₂ DecimalNumeral.ShownAs numerals levels ∧
      ((∃ text, ∀ numeral ∈ numerals, numeral.text = text) →
        ∀ level ∈ levels, formatText (Text.join " " (numerals.map DecimalNumeral.text)) false = .single level) ∧
      ((¬ ∃ text, ∀ numeral ∈ numerals, numeral.text = text) →
        formatText (Text.join " " (numerals.map DecimalNumeral.text)) false = .many levels) := by
  have cut : tokens (.text (Text.join " " (numerals.map DecimalNumeral.text))) = numerals.map DecimalNumeral.text := by
    apply tokens_join (by simpa using nonempty)
    simp only [List.forall_mem_map]
    exact fun numeral _ => not_mem_text (by decide) (by decide) (by decide) numeral
  have slashFree : ∀ text ∈ numerals.map DecimalNumeral.text, '/' ∉ text.toList := by
    simp only [List.forall_mem_map]
    exact fun numeral _ => not_mem_text (by decide) (by decide) (by decide) numeral
  have inside : ∀ numeral ∈ numerals, numeral.text ∈ tokens (.text (Text.join " " (numerals.map DecimalNumeral.text))) := by
    rw [cut]
    exact fun numeral => List.mem_map_of_mem
  refine ⟨numerals.map fun numeral => clean numeral.text, ?_, ?_, ?_⟩
  · rw [List.forall₂_map_right_iff, List.forall₂_same]
    exact fun numeral _ => shownAs_clean numeral
  · rintro ⟨text, equal⟩ level shown
    obtain ⟨numeral, member, rfl⟩ := List.mem_map.mp shown
    apply format_of_equal (by decide) false (inside numeral member)
    rw [cut]
    simp only [List.forall_mem_map]
    exact fun other also => (equal other also).trans (equal numeral member).symm
  · intro unequal
    obtain ⟨first, member⟩ := List.exists_mem_of_ne_nil numerals nonempty
    obtain ⟨other, also, different⟩ : ∃ other ∈ numerals, other.text ≠ first.text := by
      by_contra none
      exact unequal ⟨first.text, fun other also => by_contra fun different => none ⟨other, also, different⟩⟩
    rw [formatText_of_different (inside other also) (inside first member) different (by rwa [cut]), cut, List.map_map]
    rfl

/-- Of three levels one keeps its fraction, one loses it, and one has none. -/
theorem formatText_numerals_signed : ∃ numerals : List DecimalNumeral,
    numerals.map DecimalNumeral.text = ["-1.50", "+2.00", "007"] ∧ numerals.map DecimalNumeral.value = [-3 / 2, 2, 7] ∧
    List.Forall₂ DecimalNumeral.ShownAs numerals ["-1.50", "+2", "007"] ∧
    formatText "-1.50 +2.00 007" false = .many ["-1.50", "+2", "007"] := by
  let numerals : List DecimalNumeral := [
    ⟨some '-', ['1'], ['5', '0'], by simp, by simp, by decide⟩,
    ⟨some '+', ['2'], ['0', '0'], by simp, by simp, by decide⟩,
    ⟨none, ['0', '0', '7'], [], by simp, by simp, by decide⟩]
  have texts : numerals.map DecimalNumeral.text = ["-1.50", "+2.00", "007"] := by decide
  have shown : formatText "-1.50 +2.00 007" false = .many ["-1.50", "+2", "007"] := by decide +kernel
  obtain ⟨levels, each, -, many⟩ := formatText_numerals (List.cons_ne_nil _ _ : numerals ≠ [])
  have unequal : ¬ ∃ text, ∀ numeral ∈ numerals, numeral.text = text := by
    rintro ⟨text, equal⟩
    have all : ∀ level ∈ numerals.map DecimalNumeral.text, level = text := by simpa using equal
    rw [texts] at all
    exact absurd ((all "-1.50" (by simp)).trans (all "007" (by simp)).symm) (by decide)
  have joined : Text.join " " ["-1.50", "+2.00", "007"] = "-1.50 +2.00 007" := by decide +kernel
  rw [texts, joined, shown] at many
  obtain rfl := Levels.many.inj (many unequal)
  have read : readDigits ['1'] = 1 ∧ readDigits ['5', '0'] = 50 ∧ readDigits ['2'] = 2 ∧ readDigits ['0', '0'] = 0 ∧
      readDigits ['0', '0', '7'] = 7 ∧ readDigits [] = 0 := ⟨rfl, rfl, rfl, rfl, rfl, rfl⟩
  have signs : ¬ some '+' = some '-' ∧ ¬ (none : Option Char) = some '-' := by simp
  refine ⟨numerals, texts, ?_, each, shown⟩
  norm_num [numerals, DecimalNumeral.value, read, signs]

end Levels
end Compendium
