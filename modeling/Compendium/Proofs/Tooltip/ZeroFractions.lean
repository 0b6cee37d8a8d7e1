import Compendium.Proofs.Tooltip.LevelTokens
import Mathlib.Data.List.TakeWhile

/-! Fractions of zeros, and what is left of them. Dropping one passes over the character behind its zeros. If that is the
point of a second fraction of zeros, the second one stays, and is dropped only when the text is cleaned again. -/

set_option autoImplicit false
namespace Compendium.Levels

/-- No digit stands at the start, be it that another character does or that the text is empty. -/
def LacksDigit (text : List Char) : Prop :=
  ∀ c ∈ text.head?, Text.isDigitOfAnyScript c = false

/-- A point and zeros, with something that has the property behind them. -/
def ZerosBefore (property : List Char → Prop) (text : List Char) : Prop :=
  ∃ zeros rest, text = '.' :: (zeros ++ rest) ∧ zeros ≠ [] ∧ (∀ c ∈ zeros, c = '0') ∧ property rest

/-- A fraction of zeros is at the start: no digit goes on with it. -/
def StartsZeroFraction : List Char → Prop :=
  ZerosBefore LacksDigit

/-- Two fractions of zeros are at the start, the second one right behind the first. -/
def StartsTwinFractions : List Char → Prop :=
  ZerosBefore StartsZeroFraction

def HoldsZeroFraction (text : List Char) : Prop :=
  ∃ tail, tail <:+ text ∧ StartsZeroFraction tail

def HoldsTwinFractions (text : List Char) : Prop :=
  ∃ tail, tail <:+ text ∧ StartsTwinFractions tail

section
variable {property : List Char → Prop}

theorem not_zerosBefore_nil : ¬ ZerosBefore property [] := by
  rintro ⟨zeros, rest, same, -⟩
  cases same

theorem not_zerosBefore_cons {c : Char} (noPoint : c ≠ '.') (text : List Char) : ¬ ZerosBefore property (c :: text) := by
  rintro ⟨zeros, rest, same, -⟩
  exact noPoint (List.cons.inj same).1

theorem exists_suffix_cons_iff (c : Char) (text : List Char) : (∃ tail, tail <:+ c :: text ∧ property tail) ↔
    property (c :: text) ∨ ∃ tail, tail <:+ text ∧ property tail := by
  simp only [List.suffix_cons_iff, or_and_right, exists_or, exists_eq_left]

theorem not_exists_suffix_of_pointless {text : List Char} (pointless : '.' ∉ text) :
    ¬ ∃ tail, tail <:+ text ∧ ZerosBefore property tail := by
  rintro ⟨tail, suffix, zeros, rest, rfl, -⟩
  exact pointless (suffix.subset List.mem_cons_self)

theorem exists_suffix_append_iff {before : List Char} (pointless : '.' ∉ before) (text : List Char) :
    (∃ tail, tail <:+ before ++ text ∧ ZerosBefore property tail) ↔ ∃ tail, tail <:+ text ∧ ZerosBefore property tail := by
  induction before with
  | nil => rfl
  | cons c before ih =>
    rw [List.mem_cons, not_or] at pointless
    rw [List.cons_append, exists_suffix_cons_iff, ih pointless.2]
    exact or_iff_right (not_zerosBefore_cons (Ne.symm pointless.1) _)

end

theorem LacksDigit.head?_ne {text : List Char} (lacks : LacksDigit text) : text.head? ≠ some '0' := by
  intro zero
  exact absurd (lacks '0' zero) (by decide)

theorem StartsZeroFraction.lacksDigit {text : List Char} (starts : StartsZeroFraction text) : LacksDigit text := by
  obtain ⟨zeros, rest, rfl, -⟩ := starts
  intro c point
  obtain rfl := Option.some.inj point
  decide

theorem dropWhile_zeros {text : List Char} (noZero : text.head? ≠ some '0') : text.dropWhile (· == '0') = text := by
  cases text with
  | nil => rfl
  | cons c text =>
    have other : c ≠ '0' := by simpa using noZero
    rw [List.dropWhile_cons_of_neg]
    simpa using other

theorem eq_zero_of_mem_takeWhile {text : List Char} : ∀ c ∈ text.takeWhile (· == '0'), c = '0' := by
  intro c member
  simpa using List.mem_takeWhile_imp member

theorem pointless_of_zeros {zeros : List Char} (each : ∀ c ∈ zeros, c = '0') : '.' ∉ zeros := by
  intro point
  exact absurd (each '.' point) (by decide)

/-- The zeros are all that stand there, if no zero can be part of what is behind them. -/
theorem zerosBefore_cons_iff {property : List Char → Prop} (apart : ∀ rest, property rest → LacksDigit rest) (c : Char)
    (text : List Char) : ZerosBefore property (c :: text) ↔
      c = '.' ∧ text.head? = some '0' ∧ property (text.dropWhile (· == '0')) := by
  constructor
  · rintro ⟨zeros, rest, same, some, each, behind⟩
    obtain ⟨rfl, rfl⟩ := List.cons.inj same
    have passed : (zeros ++ rest).dropWhile (· == '0') = rest := by
      rw [List.dropWhile_append_of_pos (by simpa using each), dropWhile_zeros (apart rest behind).head?_ne]
    obtain ⟨zero, others, rfl⟩ := List.exists_cons_of_ne_nil some
    exact ⟨rfl, congrArg Option.some (each zero List.mem_cons_self), passed.symm ▸ behind⟩
  · rintro ⟨rfl, zero, behind⟩
    refine ⟨text.takeWhile (· == '0'), text.dropWhile (· == '0'), by rw [List.takeWhile_append_dropWhile], ?_,
      eq_zero_of_mem_takeWhile, behind⟩
    cases text with
    | nil => cases zero
    | cons d text =>
      obtain rfl := Option.some.inj zero
      simp

theorem startsZeroFraction_cons_iff (c : Char) (text : List Char) : StartsZeroFraction (c :: text) ↔
    c = '.' ∧ text.head? = some '0' ∧ LacksDigit (text.dropWhile (· == '0')) :=
  zerosBefore_cons_iff (fun _ lacks => lacks) c text

theorem startsTwinFractions_cons_iff (c : Char) (text : List Char) : StartsTwinFractions (c :: text) ↔
    c = '.' ∧ text.head? = some '0' ∧ StartsZeroFraction (text.dropWhile (· == '0')) :=
  zerosBefore_cons_iff (fun _ starts => starts.lacksDigit) c text

theorem StartsTwinFractions.startsZeroFraction {text : List Char} (starts : StartsTwinFractions text) :
    StartsZeroFraction text := by
  obtain ⟨zeros, rest, same, some, each, behind⟩ := starts
  exact ⟨zeros, rest, same, some, each, behind.lacksDigit⟩

/-- What cleaning does to a text, character by character. -/
inductive Cleans : List Char → List Char → Prop where
  | done : Cleans [] []
  | dropped {text shown : List Char} : StartsZeroFraction ('.' :: text) →
      Cleans ((text.dropWhile (· == '0')).drop 1) shown →
      Cleans ('.' :: text) ((text.dropWhile (· == '0')).take 1 ++ shown)
  | kept {c : Char} {text shown : List Char} : ¬ StartsZeroFraction (c :: text) → Cleans text shown →
      Cleans (c :: text) (c :: shown)

theorem cleans_dropZeroFractions (text : List Char) : Cleans text (dropZeroFractions text) := by
  fun_induction dropZeroFractions text with
  | case1 => exact .done
  | case2 c rest fraction zeros =>
    obtain ⟨rfl, zero⟩ := fraction
    have starts : StartsZeroFraction ('.' :: rest) :=
      (startsZeroFraction_cons_iff _ _).mpr ⟨rfl, zero, by simp [zeros, LacksDigit]⟩
    simpa [zeros] using Cleans.dropped starts (by simpa [zeros] using Cleans.done)
  | case3 c rest fraction d after zeros digit ih =>
    refine .kept ?_ ih
    rw [startsZeroFraction_cons_iff, zeros]
    rintro ⟨-, -, lacks⟩
    simp [lacks d rfl] at digit
  | case4 c rest fraction d after zeros noDigit ih =>
    obtain ⟨rfl, zero⟩ := fraction
    have starts : StartsZeroFraction ('.' :: rest) :=
      (startsZeroFraction_cons_iff _ _).mpr ⟨rfl, zero, by simpa [zeros, LacksDigit] using noDigit⟩
    simpa [zeros] using Cleans.dropped starts (by simpa [zeros] using ih)
  | case5 c rest noFraction ih =>
    refine .kept ?_ ih
    rw [startsZeroFraction_cons_iff]
    rintro ⟨point, zero, -⟩
    exact noFraction ⟨point, zero⟩

namespace Cleans

variable {text shown : List Char}

theorem length_le (cleans : Cleans text shown) : shown.length ≤ text.length := by
  induction cleans with
  | done => exact Nat.le_refl _
  | @dropped text shown starts cleans ih =>
    have shorter := (List.dropWhile_suffix (l := text) (· == '0')).length_le
    simp only [List.length_append, List.length_take, List.length_drop, List.length_cons] at ih ⊢
    omega
  | kept _ _ ih => exact Nat.succ_le_succ ih

/-- A text without fractions of zeros is left as it is. -/
theorem eq_self_iff (cleans : Cleans text shown) : shown = text ↔ ¬ HoldsZeroFraction text := by
  induction cleans with
  | done => simp [HoldsZeroFraction, StartsZeroFraction, not_zerosBefore_nil]
  | @dropped text shown starts cleans ih =>
    have holds : HoldsZeroFraction ('.' :: text) := ⟨_, List.suffix_refl _, starts⟩
    refine iff_of_false (fun same => ?_) (not_not_intro holds)
    -- at least the point is missing
    have shorter := (List.dropWhile_suffix (l := text) (· == '0')).length_le
    have lengths := congrArg List.length same
    have rest := cleans.length_le
    simp only [List.length_append, List.length_take, List.length_drop, List.length_cons] at lengths rest
    omega
  | @kept c text shown none cleans ih =>
    have later : HoldsZeroFraction (c :: text) ↔ HoldsZeroFraction text := by
      rw [HoldsZeroFraction, exists_suffix_cons_iff, or_iff_right none]
      rfl
    rw [List.cons_inj_right, ih, later]

/-- Cleaning changes no first character but for one that is no digit. -/
theorem head?_cases (cleans : Cleans text shown) : shown.head? = text.head? ∨ LacksDigit shown ∧ LacksDigit text := by
  cases cleans with
  | done => exact .inl rfl
  | kept => exact .inl rfl
  | @dropped text shown starts cleans =>
    refine .inr ⟨?_, starts.lacksDigit⟩
    have lacks := ((startsZeroFraction_cons_iff _ _).mp starts).2.2
    cases behind : text.dropWhile (· == '0') with
    | nil =>
      rw [behind] at cleans
      cases cleans
      simp [LacksDigit]
    | cons d after =>
      rw [behind] at lacks
      simpa [LacksDigit] using lacks

theorem lacksDigit_iff (cleans : Cleans text shown) : LacksDigit shown ↔ LacksDigit text := by
  rcases cleans.head?_cases with same | ⟨after, before⟩
  · rw [LacksDigit, same]; rfl
  · exact iff_of_true after before

theorem head?_eq_zero_iff (cleans : Cleans text shown) : shown.head? = some '0' ↔ text.head? = some '0' := by
  rcases cleans.head?_cases with same | ⟨after, before⟩
  · rw [same]
  · exact iff_of_false after.head?_ne before.head?_ne

theorem dropWhile (cleans : Cleans text shown) :
    Cleans (text.dropWhile (· == '0')) (shown.dropWhile (· == '0')) := by
  induction text generalizing shown with
  | nil =>
    cases cleans
    exact .done
  | cons c text ih =>
    by_cases zero : c = '0'
    · subst zero
      cases cleans with
      | kept none cleans => simpa using ih cleans
    · have noZero : (c :: text).head? ≠ some '0' := by simpa using zero
      rwa [dropWhile_zeros noZero, dropWhile_zeros (mt cleans.head?_eq_zero_iff.mp noZero)]

/-- A text that is cleaned behind a character starts a fraction of zeros with it if it did so before. -/
theorem startsZeroFraction_cons_iff (cleans : Cleans text shown) (c : Char) :
    StartsZeroFraction (c :: shown) ↔ StartsZeroFraction (c :: text) := by
  rw [Levels.startsZeroFraction_cons_iff, Levels.startsZeroFraction_cons_iff, cleans.head?_eq_zero_iff,
    cleans.dropWhile.lacksDigit_iff]

/-- A fraction of zeros is left just where one stood right behind another. -/
theorem holdsZeroFraction_iff (cleans : Cleans text shown) : HoldsZeroFraction shown ↔ HoldsTwinFractions text := by
  induction cleans with
  | done => simp [HoldsZeroFraction, HoldsTwinFractions, StartsZeroFraction, StartsTwinFractions, not_zerosBefore_nil]
  | @kept c text shown none cleans ih =>
    have noTwins : ¬ StartsTwinFractions (c :: text) := fun twins => none twins.startsZeroFraction
    rw [← cleans.startsZeroFraction_cons_iff] at none
    rw [HoldsZeroFraction, HoldsTwinFractions, exists_suffix_cons_iff, exists_suffix_cons_iff, or_iff_right none,
      or_iff_right noTwins]
    exact ih
  | @dropped text shown starts cleans ih =>
    obtain ⟨-, zero, lacks⟩ := (Levels.startsZeroFraction_cons_iff _ _).mp starts
    have zeros : '.' ∉ text.takeWhile (· == '0') := pointless_of_zeros eq_zero_of_mem_takeWhile
    -- the zeros hold no fraction, so that only what is behind them counts
    have twins : HoldsTwinFractions ('.' :: text) ↔
        StartsZeroFraction (text.dropWhile (· == '0')) ∨ HoldsTwinFractions (text.dropWhile (· == '0')) := by
      have behind : HoldsTwinFractions (text.takeWhile (· == '0') ++ text.dropWhile (· == '0')) ↔
          HoldsTwinFractions (text.dropWhile (· == '0')) := exists_suffix_append_iff zeros _
      rw [List.takeWhile_append_dropWhile] at behind
      rw [HoldsTwinFractions, exists_suffix_cons_iff, startsTwinFractions_cons_iff]
      exact or_congr (by simp [zero]) behind
    rw [twins]
    cases behind : text.dropWhile (· == '0') with
    | nil =>
      rw [behind] at cleans
      cases cleans
      simp [HoldsZeroFraction, HoldsTwinFractions, StartsZeroFraction, StartsTwinFractions, not_zerosBefore_nil]
    | cons d after =>
      rw [behind] at cleans ih
      simp only [List.take_succ_cons, List.take_zero, List.singleton_append, List.drop_succ_cons, List.drop_zero] at *
      rw [HoldsZeroFraction, HoldsTwinFractions, exists_suffix_cons_iff, exists_suffix_cons_iff,
        cleans.startsZeroFraction_cons_iff, ← or_assoc, or_iff_left_of_imp StartsTwinFractions.startsZeroFraction]
      exact or_congr Iff.rfl ih

end Cleans

theorem dropZeroFractions_eq_self_iff (text : List Char) : dropZeroFractions text = text ↔ ¬ HoldsZeroFraction text :=
  (cleans_dropZeroFractions text).eq_self_iff

theorem dropZeroFractions_again_eq_iff (text : List Char) :
    dropZeroFractions (dropZeroFractions text) = dropZeroFractions text ↔ ¬ HoldsTwinFractions text := by
  rw [dropZeroFractions_eq_self_iff, (cleans_dropZeroFractions text).holdsZeroFraction_iff]

theorem formatText_of_unspaced {text : String} (unspaced : ' ' ∉ text.toList) :
    formatText text false = .single (clean text) := by
  have cut : tokens (.text (Text.join " " [text])) = [text] := tokens_join (by simp) (by simpa using unspaced)
  rw [Text.join, String.intercalate_singleton] at cut
  exact format_of_equal (by decide) false (by simp [cut]) (by simp [cut])

theorem unspaced_clean {text : String} (unspaced : ' ' ∉ text.toList) : ' ' ∉ (clean text).toList :=
  not_mem_clean_mark (by decide) false unspaced

/-- A text without spaces is one level. Formatting that level once more changes it just where two fractions of zeros stood
side by side in the text. -/
theorem formatText_again_eq_iff {text : String} (unspaced : ' ' ∉ text.toList) :
    ∃ once, formatText text false = .single once ∧
      (formatText once false = .single once ↔ ¬ HoldsTwinFractions text.toList) := by
  refine ⟨clean text, formatText_of_unspaced unspaced, ?_⟩
  rw [formatText_of_unspaced (unspaced_clean unspaced), Levels.single.injEq, ← dropZeroFractions_again_eq_iff, clean, clean,
    String.toList_ofList, String.ofList_inj]

/-- Fractions of zeros that have other characters between them are all dropped at once. -/
theorem formatText_again_eq_apart : ' ' ∉ "v2.0.1.00s".toList ∧ formatText "v2.0.1.00s" false = .single "v2.1s" ∧
    formatText "v2.1s" false = .single "v2.1s" := by
  have unspaced : ' ' ∉ "v2.0.1.00s".toList := by decide
  have shown : formatText "v2.0.1.00s" false = .single "v2.1s" := by
    rw [formatText_of_unspaced unspaced]
    decide +kernel
  obtain ⟨once, first, again⟩ := formatText_again_eq_iff unspaced
  have apart : ¬ HoldsTwinFractions "v2.0.1.00s".toList := by
    rw [← dropZeroFractions_again_eq_iff]
    decide +kernel
  rw [shown, Levels.single.injEq] at first
  subst first
  exact ⟨unspaced, shown, again.mpr apart⟩

/-- The point behind the first zeros is passed over, and the fraction that it starts is left for the second time. -/
theorem formatText_again_ne_of_twins : ' ' ∉ "1.0.0".toList ∧ formatText "1.0.0" false = .single "1.0" ∧
    formatText "1.0" false = .single "1" := by
  have unspaced : ' ' ∉ "1.0.0".toList := by decide
  have fewer : ' ' ∉ "1.0".toList := by decide
  refine ⟨unspaced, ?_, ?_⟩
  · rw [formatText_of_unspaced unspaced]
    decide +kernel
  · rw [formatText_of_unspaced fewer]
    decide +kernel

end Compendium.Levels
