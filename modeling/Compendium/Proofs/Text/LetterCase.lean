import Compendium.Text.Blank
import Compendium.Text.LetterCase
import Mathlib.Data.List.Basic
import Mathlib.Data.List.TakeWhile

/-! Texts compared without white space and letter case. Lower case is reached in one step: no run of the table maps to
a code that a run of it maps on. -/

set_option autoImplicit false
namespace Compendium.Text

namespace CaseRun

def lowest (run : CaseRun) : Nat :=
  ((run.first : Int) + run.shift).toNat

def highest (run : CaseRun) : Nat :=
  ((run.last : Int) + run.shift).toNat

/-- The codes that the run maps to lie before the range or behind it. -/
def staysOff (run : CaseRun) (range : Nat × Nat) : Bool :=
  Nat.blt run.highest range.1 || Nat.blt range.2 run.lowest

/-- The run maps to no code that the other one maps: they lie apart, or the other one has only every second code and
passes over these. -/
def avoids (run other : CaseRun) : Bool :=
  run.staysOff (other.first, other.last) ||
    (Nat.beq other.stride 2 && (Nat.beq run.stride 2 || Nat.beq run.first run.last) &&
      (Nat.blt 0 run.lowest && Nat.beq ((run.lowest + other.first) % 2) 1))

variable {run other : CaseRun} {code image : Nat}

theorem apply?_eq_some_iff : run.apply? code = some image ↔ run.first ≤ code ∧ code ≤ run.last ∧
    (code - run.first) % run.stride = 0 ∧ image = ((code : Int) + run.shift).toNat := by
  rw [ CaseRun.apply?]
  split
  · next inside => simp [inside, eq_comm]
  · next outside =>
    constructor
    · intro mapped
      cases mapped
    · rintro ⟨lower, upper, met, -⟩
      exact absurd ⟨lower, upper, met⟩ outside

theorem bounds_of_apply? (mapped : run.apply? code = some image) : run.lowest ≤ image ∧ image ≤ run.highest := by
  obtain ⟨lower, upper, -, rfl⟩ := apply?_eq_some_iff.mp mapped
  rw [lowest, highest]
  omega

theorem outside_of_staysOff {range : Nat × Nat} (off : run.staysOff range = true) (mapped : run.apply? code = some image) :
    image < range.1 ∨ range.2 < image := by
  obtain ⟨lower, upper⟩ := bounds_of_apply? mapped
  simp only [staysOff, Bool.or_eq_true, Nat.blt_eq] at off
  omega

theorem apply?_eq_none_of_avoids (avoids : run.avoids other = true) (mapped : run.apply? code = some image) :
    other.apply? image = none := by
  rw [CaseRun.avoids, Bool.or_eq_true] at avoids
  apply Option.eq_none_iff_forall_ne_some.mpr
  intro next again
  obtain ⟨above, below, met, -⟩ := apply?_eq_some_iff.mp again
  rcases avoids with off | between
  · have outside := outside_of_staysOff off mapped
    simp only at outside
    omega
  · -- every code that the run maps to is one that the other run passes over
    simp only [Bool.and_eq_true, Bool.or_eq_true, Nat.beq_eq, Nat.blt_eq] at between
    obtain ⟨⟨second, strided⟩, positive, parity⟩ := between
    rw [second] at met
    obtain ⟨lower, upper, taken, rfl⟩ := apply?_eq_some_iff.mp mapped
    rw [lowest] at positive parity
    rcases strided with double | single
    · rw [double] at taken
      omega
    · omega

end CaseRun

theorem lowerRuns_avoid : lowerRuns.all (fun run => lowerRuns.all run.avoids) = true := by
  decide +kernel

/-- Codes that no other character has in its lower case. The letters from `a` to `z` are the only ones of ASCII that are
not among them. -/
def unreachedRanges : Ranges :=
  blankRanges ++ [(0x0, 0x60), (0x7B, 0x7F), (0x130, 0x130), (0x3C2, 0x3C2), (0xD800, 0xDFFF)]

theorem lowerRuns_stayOff : lowerRuns.all (fun run =>
    unreachedRanges.all run.staysOff && Nat.blt run.highest 0x110000) = true := by
  decide +kernel

theorem forall_ascii {P : Char → Prop} (checked : ∀ code < 0x80, P (Char.ofNat code)) (c : Char)
    (ascii : c.toNat < 0x80) : P c := by
  have here := checked c.toNat ascii
  rwa [Char.ofNat_toNat] at here

theorem toNat_ofNat {code : Nat} (valid : code < 0xD800 ∨ 0xDFFF < code) (small : code < 0x110000) :
    (Char.ofNat code).toNat = code := by
  have isValid : code.isValidChar := by
    rw [Nat.isValidChar]
    omega
  rw [Char.ofNat, dif_pos isValid]
  rfl

/-- A character that lower case may bring in. -/
structure Settled (c : Char) : Prop where
  lower : lowerChar c = [c]
  reached : unreachedRanges.contains c = false

theorem lowerChar_of_unmapped {c : Char} (other : 0x80 ≤ c.toNat) (single : c.toNat ≠ 0x130)
    (unmapped : ∀ run ∈ lowerRuns, run.apply? c.toNat = none) : lowerChar c = [c] := by
  have unexpanded : lowerExpansions.find? (fun entry => entry.1 == c.toNat) = none := by
    simp [lowerExpansions, Ne.symm single]
  have kept : lowerRuns.findSome? (fun run => run.apply? c.toNat) = none :=
    List.findSome?_eq_none_iff.mpr unmapped
  rw [lowerChar, if_neg (by omega), mapCase, unexpanded, kept]
  rfl

theorem lowerRuns_apart : lowerRuns.all (fun run => blankRanges.all fun range =>
    Nat.blt run.last range.1 || Nat.blt range.2 run.first) = true := by
  decide +kernel

theorem lowerChar_of_isBlank {c : Char} (blank : isBlank c = true) : lowerChar c = [c] := by
  obtain ⟨range, member, lower, upper⟩ := (Ranges.contains_iff _ c).mp blank
  by_cases ascii : c.toNat < 0x80
  · have checked : ∀ code < 0x80, isBlank (Char.ofNat code) = true → lowerChar (Char.ofNat code) = [Char.ofNat code] := by
      decide +kernel
    exact forall_ascii (P := fun c => isBlank c = true → lowerChar c = [c]) checked c ascii blank
  · apply lowerChar_of_unmapped (by omega)
    · rintro expanded
      rw [isBlank, Ranges.contains, expanded] at blank
      exact absurd blank (by decide)
    · intro run table
      have apart := List.all_eq_true.mp (List.all_eq_true.mp lowerRuns_apart run table) range member
      rw [Bool.or_eq_true, Nat.blt_eq, Nat.blt_eq] at apart
      rw [ CaseRun.apply?, if_neg (by omega)]

theorem lowerChar_small (code : Nat) (lower : 0x61 ≤ code) (upper : code ≤ 0x7A) :
    lowerChar (Char.ofNat code) = [Char.ofNat code] := by
  have checked : ∀ offset < 26, lowerChar (Char.ofNat (0x61 + offset)) = [Char.ofNat (0x61 + offset)] := by
    decide +kernel
  have here := checked (code - 0x61) (by omega)
  rwa [Nat.add_sub_cancel' lower] at here

theorem settled_of_apply? {run : CaseRun} {code image : Nat} (table : run ∈ lowerRuns)
    (mapped : run.apply? code = some image) : Settled (Char.ofNat image) := by
  have off := List.all_eq_true.mp lowerRuns_stayOff run table
  rw [Bool.and_eq_true, List.all_eq_true, Nat.blt_eq] at off
  have outside : ∀ low high, (low, high) ∈ unreachedRanges → image < low ∨ high < image :=
    fun low high member => CaseRun.outside_of_staysOff (off.1 (low, high) member) mapped
  have bounded := (CaseRun.bounds_of_apply? mapped).2
  have same : (Char.ofNat image).toNat = image :=
    toNat_ofNat (outside 0xD800 0xDFFF (by decide)) (by omega)
  constructor
  · have below := outside 0x0 0x60 (by decide)
    have behind := outside 0x7B 0x7F (by decide)
    have single := outside 0x130 0x130 (by decide)
    -- of ASCII the ranges leave the small letters only
    by_cases ascii : image < 0x80
    · exact lowerChar_small image (by omega) (by omega)
    · apply lowerChar_of_unmapped (by omega) (by omega)
      intro other member
      have avoids := List.all_eq_true.mp (List.all_eq_true.mp lowerRuns_avoid run table) other member
      rw [same]
      exact CaseRun.apply?_eq_none_of_avoids avoids mapped
  · rw [Bool.eq_false_iff, ne_eq, Ranges.contains_iff, same]
    rintro ⟨⟨low, high⟩, member, lower, upper⟩
    have := outside low high member
    simp only at lower upper
    omega

theorem settled_of_mem_lowerChar {c d : Char} (changed : lowerChar c ≠ [c]) (member : d ∈ lowerChar c) : Settled d := by
  by_cases ascii : c.toNat < 0x80
  · have checked : ∀ code < 0x80, lowerChar (Char.ofNat code) ≠ [Char.ofNat code] →
        (lowerChar (Char.ofNat code)).all (fun d => lowerChar d == [d] && !unreachedRanges.contains d) = true := by
      decide +kernel
    have settled := forall_ascii (P := fun c => lowerChar c ≠ [c] →
      (lowerChar c).all (fun d => lowerChar d == [d] && !unreachedRanges.contains d) = true) checked c ascii changed
    have here := List.all_eq_true.mp settled d member
    rw [Bool.and_eq_true, beq_iff_eq, Bool.not_eq_true'] at here
    exact ⟨here.1, here.2⟩
  · rw [lowerChar, if_neg ascii, mapCase] at changed member
    split at member
    · next entry codes found =>
      have known := List.mem_of_find?_eq_some found
      rw [lowerExpansions, List.mem_singleton] at known
      obtain ⟨-, rfl⟩ := Prod.mk.inj known
      have checked : ∀ code ∈ [0x69, 0x307], lowerChar (Char.ofNat code) = [Char.ofNat code] ∧
          unreachedRanges.contains (Char.ofNat code) = false := by
        decide +kernel
      obtain ⟨code, inside, rfl⟩ := List.mem_map.mp member
      exact ⟨(checked code inside).1, (checked code inside).2⟩
    · next none =>
      rw [none] at changed
      cases found : lowerRuns.findSome? fun run => run.apply? c.toNat with
      | none => exact absurd (by rw [found]; rfl) changed
      | some image =>
        rw [found] at member
        obtain ⟨run, table, mapped⟩ := List.exists_of_findSome?_eq_some found
        obtain rfl := List.mem_singleton.mp member
        exact settled_of_apply? table mapped

theorem lowerChar_of_mem_lowerChar {c d : Char} (member : d ∈ lowerChar c) : lowerChar d = [d] := by
  by_cases same : lowerChar c = [c]
  · rw [same, List.mem_singleton] at member
    rw [member, same]
  · exact (settled_of_mem_lowerChar same member).lower

theorem eq_of_mem_lowerChar {c d : Char} (unreached : unreachedRanges.contains d = true) (member : d ∈ lowerChar c) :
    d = c := by
  by_cases same : lowerChar c = [c]
  · rw [same] at member
    exact List.mem_singleton.mp member
  · have reached := (settled_of_mem_lowerChar same member).reached
    rw [unreached] at reached
    cases reached

theorem unreached_of_isBlank {c : Char} (blank : isBlank c = true) : unreachedRanges.contains c = true := by
  obtain ⟨range, member, inside⟩ := (Ranges.contains_iff _ c).mp blank
  exact (Ranges.contains_iff _ c).mpr ⟨range, List.mem_append_left _ member, inside⟩

theorem toLower_of_not_ascii {c : Char} (other : 0x80 ≤ c.toNat) : c.toLower = c := by
  have outside : ¬ (c.val ≥ 'A'.val ∧ c.val ≤ 'Z'.val) := by
    rintro ⟨-, upper⟩
    have bound : c.toNat ≤ 'Z'.toNat := UInt32.le_iff_toNat_le.mp upper
    have last : 'Z'.toNat = 0x5A := rfl
    omega
  exact dif_neg outside

/-- Only letters change in lower case, and only to letters. -/
theorem eq_of_toLower_eq {c d : Char} (unreached : unreachedRanges.contains d = true) (same : c.toLower = d) : c = d := by
  by_cases ascii : c.toNat < 0x80
  · have lower : lowerChar c = [d] := by rw [lowerChar, if_pos ascii, same]
    exact (eq_of_mem_lowerChar unreached (lower ▸ List.mem_singleton_self d)).symm
  · rw [← same, toLower_of_not_ascii (by omega)]

theorem eqIgnoringAsciiCase_iff (first second : List Char) :
    eqIgnoringAsciiCase first second = true ↔ first.map Char.toLower = second.map Char.toLower := by
  rw [eqIgnoringAsciiCase, beq_iff_eq]

/-- A capital letter of ASCII. -/
def IsCapital (code : Nat) : Prop :=
  0x41 ≤ code ∧ code ≤ 0x5A

instance decidableIsCapital : DecidablePred IsCapital := fun code =>
  inferInstanceAs (Decidable (0x41 ≤ code ∧ code ≤ 0x5A))

theorem not_mem_lowerChar_of_isCapital {c : Char} (capital : IsCapital c.toNat) (d : Char) : c ∉ lowerChar d := by
  unfold IsCapital at capital
  have unreached : unreachedRanges.contains c = true :=
    (Ranges.contains_iff _ c).mpr ⟨(0x0, 0x60), by decide, Nat.zero_le _, by omega⟩
  intro member
  obtain rfl := eq_of_mem_lowerChar unreached member
  have checked : ∀ code < 0x80, IsCapital code → Char.ofNat code ∉ lowerChar (Char.ofNat code) := by
    decide +kernel
  have here := checked c.toNat (by omega) capital
  rw [Char.ofNat_toNat] at here
  exact here member

/-- Lower case has no capital letters of ASCII. -/
theorem not_mem_lower_of_isCapital {c : Char} (capital : IsCapital c.toNat) (text : String) : c ∉ (lower text).toList := by
  rw [lower, String.toList_ofList]
  generalize ([] : List Char) = before
  induction text.toList generalizing before with
  | nil => exact List.not_mem_nil
  | cons d rest ih =>
    rw [lowerFrom, List.mem_append, not_or]
    refine ⟨?_, ih (d :: before)⟩
    split
    · -- a sigma stays one, in either form
      have sigmas : ¬ IsCapital 'ς'.toNat ∧ ¬ IsCapital 'σ'.toNat := by decide
      rw [List.mem_singleton, lowerSigma]
      rintro rfl
      split at capital
      · exact sigmas.1 capital
      · exact sigmas.2 capital
    · exact not_mem_lowerChar_of_isCapital capital d

theorem lowerChar_of_mem_lowerFrom {before text : List Char} {d : Char} (member : d ∈ lowerFrom before text) :
    lowerChar d = [d] := by
  induction text generalizing before with
  | nil => cases member
  | cons c rest ih =>
    rw [lowerFrom, List.mem_append] at member
    rcases member with here | later
    · split at here
      · -- both forms of a sigma are in lower case
        have forms : lowerChar 'σ' = ['σ'] ∧ lowerChar 'ς' = ['ς'] := by decide +kernel
        rw [List.mem_singleton, lowerSigma] at here
        split at here
        · exact here ▸ forms.2
        · exact here ▸ forms.1
      · exact lowerChar_of_mem_lowerChar here
    · exact ih later

theorem lowerFrom_of_unchanged {text : List Char} (unchanged : ∀ c ∈ text, lowerChar c = [c]) (before : List Char) :
    lowerFrom before text = text := by
  induction text generalizing before with
  | nil => rfl
  | cons c rest ih =>
    rw [List.forall_mem_cons] at unchanged
    have small : c ≠ 'Σ' := by
      rintro rfl
      exact absurd unchanged.1 (by decide +kernel)
    rw [lowerFrom, if_neg small, unchanged.1, ih unchanged.2, List.singleton_append]

theorem lower_lower (text : String) : lower (lower text) = lower text := by
  have unchanged : ∀ c ∈ lowerFrom [] text.toList, lowerChar c = [c] := fun _ member => lowerChar_of_mem_lowerFrom member
  rw [lower, lower, String.toList_ofList, lowerFrom_of_unchanged unchanged]

/-- What is compared of a character: nothing of white space, and of others the lower case, with one sigma only. -/
def letter (c : Char) : List Char :=
  if isBlank c then [] else if c = 'ς' then ['σ'] else lowerChar c

theorem letter_of_isBlank {c : Char} (blank : isBlank c = true) : letter c = [] := by
  rw [letter, if_pos blank]

theorem Settled.letter_eq {c : Char} (settled : Settled c) : letter c = [c] := by
  have unreached {d : Char} (member : unreachedRanges.contains d = true) : d ≠ c := by
    rintro rfl
    exact Bool.false_ne_true (settled.reached.symm.trans member)
  have blank : isBlank c ≠ true := fun blank => unreached (unreached_of_isBlank blank) rfl
  have final : c ≠ 'ς' := (unreached (by decide)).symm
  rw [letter, if_neg blank, if_neg final, settled.lower]

theorem flatMap_letter_lowerChar (c : Char) : (lowerChar c).flatMap letter = letter c := by
  by_cases same : lowerChar c = [c]
  · rw [same]
    simp
  · have settled := fun d member => (settled_of_mem_lowerChar (d := d) same member).letter_eq
    have blank : isBlank c ≠ true := fun blank => same (lowerChar_of_isBlank blank)
    have final : c ≠ 'ς' := by
      rintro rfl
      exact same (by decide +kernel)
    rw [List.flatMap_congr settled, letter, if_neg blank, if_neg final]
    simp

/-- Lower case changes no letter, whichever form a sigma gets. -/
theorem flatMap_letter_lowerFrom (before text : List Char) :
    (lowerFrom before text).flatMap letter = text.flatMap letter := by
  induction text generalizing before with
  | nil => rfl
  | cons c rest ih =>
    rw [lowerFrom, List.flatMap_append, ih, List.flatMap_cons]
    congr 1
    split
    · next sigma =>
      -- the form depends on the characters around it, what is compared does not
      have forms : letter 'σ' = letter 'Σ' ∧ letter 'ς' = letter 'Σ' := by decide +kernel
      rw [sigma, lowerSigma]
      split
      · simp [forms.2]
      · simp [forms.1]
    · exact flatMap_letter_lowerChar c

theorem eq_of_mem_letter {c d : Char} (unreached : unreachedRanges.contains d = true) (member : d ∈ letter c) : d = c := by
  rw [letter] at member
  split at member
  · cases member
  · split at member
    · obtain rfl := List.mem_singleton.mp member
      exact absurd unreached (by decide)
    · exact eq_of_mem_lowerChar unreached member

theorem exists_trim (text : List Char) : ∃ front back, text = front ++ (trim text ++ back) ∧
    (∀ c ∈ front, isBlank c = true) ∧ (∀ c ∈ back, isBlank c = true) := by
  have start : text = text.takeWhile isBlank ++ trimStart text := List.takeWhile_append_dropWhile.symm
  have ending : trimStart text = trim text ++ ((trimStart text).reverse.takeWhile isBlank).reverse := by
    rw [trim, trimEnd, ← List.reverse_append, List.takeWhile_append_dropWhile, List.reverse_reverse]
  refine ⟨text.takeWhile isBlank, ((trimStart text).reverse.takeWhile isBlank).reverse, ?_, ?_, ?_⟩
  · rw [← ending]
    exact start
  · exact fun c member => List.mem_takeWhile_imp member
  · exact fun c member => List.mem_takeWhile_imp (List.mem_reverse.mp member)

theorem flatMap_letter_blank {text : List Char} (blank : ∀ c ∈ text, isBlank c = true) : text.flatMap letter = [] :=
  List.flatMap_eq_nil_iff.mpr fun c member => letter_of_isBlank (blank c member)

theorem flatMap_letter_trim (text : List Char) : (trim text).flatMap letter = text.flatMap letter := by
  obtain ⟨front, back, same, before, behind⟩ := exists_trim text
  conv_rhs => rw [same]
  rw [List.flatMap_append, List.flatMap_append, flatMap_letter_blank before, flatMap_letter_blank behind,
    List.nil_append, List.append_nil]

theorem infix_dropWhile {p : Char → Bool} {part text : List Char} (inside : part <:+: text)
    (stays : ∀ c ∈ part, p c = false) : part <:+: text.dropWhile p := by
  obtain ⟨front, back, rfl⟩ := inside
  cases part with
  | nil => exact List.nil_infix
  | cons c rest =>
    have stop : (c :: rest ++ back).dropWhile p = c :: rest ++ back := by
      rw [List.cons_append, List.dropWhile_cons, stays c List.mem_cons_self]
      rfl
    rw [List.append_assoc, List.dropWhile_append, stop]
    split
    · exact (List.prefix_append _ _).isInfix
    · exact ⟨front.dropWhile p, back, by simp⟩

theorem infix_trim {part text : List Char} (inside : part <:+: text) (stays : ∀ c ∈ part, isBlank c = false) :
    part <:+: trim text := by
  have started : part <:+: trimStart text := infix_dropWhile inside stays
  have ended : part.reverse <:+: (trimStart text).reverse.dropWhile isBlank :=
    infix_dropWhile (List.reverse_infix.mpr started) fun c member => stays c (List.mem_reverse.mp member)
  rw [trim, trimEnd, ← List.reverse_infix, List.reverse_reverse]
  exact ended

theorem infix_lowerFrom {part text : List Char} (inside : part <:+: text) (ascii : ∀ c ∈ part, c.toNat < 0x80)
    (before : List Char) : part.map Char.toLower <:+: lowerFrom before text := by
  obtain ⟨front, back, rfl⟩ := inside
  induction front generalizing before with
  | nil =>
    -- a character of ASCII is no sigma, so what stands around it does not matter
    suffices start : part.map Char.toLower <+: lowerFrom before (part ++ back) from start.isInfix
    induction part generalizing before with
    | nil => exact List.nil_prefix
    | cons c rest ih =>
      have small := ascii c List.mem_cons_self
      have single : c ≠ 'Σ' := by
        rintro rfl
        exact absurd small (by decide)
      rw [List.cons_append, lowerFrom, if_neg single, lowerChar, if_pos small, List.map_cons]
      exact (List.prefix_cons_inj _).mpr (ih (fun d member => ascii d (List.mem_cons_of_mem _ member)) _)
  | cons c front ih =>
    rw [List.cons_append, List.cons_append, lowerFrom]
    exact (ih (c :: before)).trans (List.suffix_append _ _).isInfix

theorem trimStart_append_cons {c : Char} (solid : isBlank c = false) (before after : List Char) :
    trimStart (before ++ c :: after) = trimStart before ++ c :: after := by
  induction before with
  | nil => simp [trimStart, solid]
  | cons d rest ih =>
    unfold trimStart at ih ⊢
    simp only [List.cons_append, List.dropWhile_cons]
    split
    · exact ih
    · rfl

theorem trimEnd_append_cons {c : Char} (solid : isBlank c = false) (before after : List Char) :
    trimEnd (before ++ c :: after) = before ++ c :: trimEnd after := by
  have reversed := trimStart_append_cons solid after.reverse before.reverse
  simpa [trimEnd, trimStart] using congrArg List.reverse reversed

section
variable {c d : Char} {text other : List Char}

def IsAsciiLetter (code : Nat) : Prop :=
  0x41 ≤ code ∧ code ≤ 0x5A ∨ 0x61 ≤ code ∧ code ≤ 0x7A

instance decidableIsAsciiLetter : DecidablePred IsAsciiLetter := fun code =>
  inferInstanceAs (Decidable (0x41 ≤ code ∧ code ≤ 0x5A ∨ 0x61 ≤ code ∧ code ≤ 0x7A))

theorem toLower_eq_or (c : Char) : c.toLower = c ∨ IsAsciiLetter c.toNat ∧ IsAsciiLetter c.toLower.toNat := by
  by_cases ascii : c.toNat < 0x80
  · exact forall_ascii (P := fun c => c.toLower = c ∨ IsAsciiLetter c.toNat ∧ IsAsciiLetter c.toLower.toNat)
      (by decide +kernel) c ascii
  · exact .inl (toLower_of_not_ascii (by omega))

theorem IsAsciiLetter.lt {code : Nat} (letter : IsAsciiLetter code) : code < 0x80 := by
  unfold IsAsciiLetter at letter
  omega

theorem ascii_or_eq_of_toLower_eq (same : c.toLower = d.toLower) : c.toNat < 0x80 ∧ d.toNat < 0x80 ∨ c = d := by
  rcases toLower_eq_or c with first | ⟨first, lower⟩
  · rcases toLower_eq_or d with second | ⟨second, lower⟩
    · exact .inr (first.symm.trans (same.trans second))
    · rw [← same, first] at lower
      exact .inl ⟨lower.lt, second.lt⟩
  · rcases toLower_eq_or d with second | ⟨second, -⟩
    · rw [same, second] at lower
      exact .inl ⟨first.lt, lower.lt⟩
    · exact .inl ⟨first.lt, second.lt⟩

theorem lowerChar_congr (same : c.toLower = d.toLower) : lowerChar c = lowerChar d := by
  rcases ascii_or_eq_of_toLower_eq same with ⟨first, second⟩ | rfl
  · simp only [lowerChar, if_pos first, if_pos second, same]
  · rfl

theorem caseIgnorable_apart : caseIgnorableRanges.all (fun range =>
    Nat.blt range.2 0x41 || (Nat.blt 0x5A range.1 && Nat.blt range.2 0x61) || Nat.blt 0x7A range.1) = true := by
  decide +kernel

/-- No letter of ASCII is passed over where letter case is looked for, and all of them have letter case. -/
theorem contains_of_isAsciiLetter (letter : IsAsciiLetter c.toNat) :
    caseIgnorableRanges.contains c = false ∧ casedRanges.contains c = true := by
  unfold IsAsciiLetter at letter
  constructor
  · apply Bool.eq_false_iff.mpr
    intro ignorable
    obtain ⟨range, member, lower, upper⟩ := (Ranges.contains_iff _ c).mp ignorable
    have apart := List.all_eq_true.mp caseIgnorable_apart range member
    simp only [Bool.or_eq_true, Bool.and_eq_true, Nat.blt_eq] at apart
    omega
  · apply (Ranges.contains_iff _ c).mpr
    rcases letter with great | small
    · exact ⟨(0x41, 0x5A), .head _, great⟩
    · exact ⟨(0x61, 0x7A), .tail _ (.head _), small⟩

theorem contains_toLower (c : Char) : caseIgnorableRanges.contains c.toLower = caseIgnorableRanges.contains c ∧
    casedRanges.contains c.toLower = casedRanges.contains c := by
  rcases toLower_eq_or c with same | ⟨letter, lower⟩
  · rw [same]
    exact ⟨rfl, rfl⟩
  · have here := contains_of_isAsciiLetter letter
    have there := contains_of_isAsciiLetter lower
    exact ⟨there.1.trans here.1.symm, there.2.trans here.2.symm⟩

theorem startsCased_toLower (text : List Char) : startsCased (text.map Char.toLower) = startsCased text := by
  have passed : caseIgnorableRanges.contains ∘ Char.toLower = caseIgnorableRanges.contains :=
    funext fun c => (contains_toLower c).1
  unfold startsCased
  rw [List.dropWhile_map, passed]
  cases text.dropWhile caseIgnorableRanges.contains with
  | nil => rfl
  | cons c rest => exact (contains_toLower c).2

/-- Texts that are the same up to the case of the ASCII letters have the same lower case, whichever forms their sigmas get. -/
theorem lowerFrom_congr {before earlier : List Char} (same : text.map Char.toLower = other.map Char.toLower)
    (passed : before.map Char.toLower = earlier.map Char.toLower) : lowerFrom before text = lowerFrom earlier other := by
  induction text generalizing other before earlier with
  | nil =>
    rw [List.map_eq_nil_iff.mp same.symm]
    rfl
  | cons c rest ih =>
    obtain ⟨d, others, rfl, first, later⟩ := List.map_eq_cons_iff.mp same.symm
    have next := ih later.symm (show (c :: before).map Char.toLower = (d :: earlier).map Char.toLower by
      simp [first, passed])
    have sigma : lowerSigma before rest = lowerSigma earlier others := by
      unfold lowerSigma
      rw [← startsCased_toLower before, ← startsCased_toLower rest, passed, ← later, startsCased_toLower, startsCased_toLower]
    have single : c = 'Σ' ↔ d = 'Σ' := by
      rcases ascii_or_eq_of_toLower_eq first with ⟨small, also⟩ | rfl
      · constructor
        · rintro rfl
          exact absurd also (by decide)
        · rintro rfl
          exact absurd small (by decide)
      · rfl
    simp only [lowerFrom, next, sigma, single, lowerChar_congr first]

end

end Compendium.Text
