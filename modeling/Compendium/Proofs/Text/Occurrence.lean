import Compendium.Text.Occurrence
import Mathlib.Data.List.Infix

/-! Occurrences as parts of a text: where the search finds a pattern, and what replacing it can bring in. -/

set_option autoImplicit false
namespace Compendium.Text

theorem after?_eq_some_iff (first : Char) (others text rest : List Char) :
    after? first others text = some rest ↔ text = first :: (others ++ rest) := by
  cases text with
  | nil => simp [after?]
  | cons c text =>
    by_cases same : c = first
    · simp [after?, same, eq_comm]
    · simp [after?, same]

theorem after?_isSome_iff (first : Char) (others text : List Char) :
    (after? first others text).isSome = true ↔ (first :: others) <+: text := by
  rw [Option.isSome_iff_exists]
  constructor
  · rintro ⟨rest, found⟩
    rw [after?_eq_some_iff] at found
    exact ⟨rest, found.symm⟩
  · rintro ⟨rest, same⟩
    exact ⟨rest, (after?_eq_some_iff _ _ _ _).mpr same.symm⟩

theorem occursChars_iff (first : Char) (others text : List Char) :
    occursChars first others text = true ↔ (first :: others) <:+: text := by
  induction text with
  | nil => simp [occursChars]
  | cons c text ih => rw [occursChars, Bool.or_eq_true, ih, after?_isSome_iff, List.infix_cons_iff]

theorem occursIn_iff (pattern text : String) : occursIn pattern text = true ↔ pattern.toList <:+: text.toList := by
  rw [occursIn]
  cases pattern.toList with
  | nil => simp
  | cons first others => exact occursChars_iff first others text.toList

theorem dropStart?_eq_some_iff (start text rest : String) : dropStart? start text = some rest ↔ text = start ++ rest := by
  rw [dropStart?, Option.map_eq_some_iff]
  simp only [List.isPrefixOf?_eq_some_iff_append_eq, ← String.toList_inj, String.toList_append]
  constructor
  · rintro ⟨behind, same, spelled⟩
    rw [← spelled, String.toList_ofList, same]
  · rintro same
    exact ⟨rest.toList, same.symm, String.toList_ofList⟩

theorem dropEnd?_eq_some_iff (ending text rest : String) : dropEnd? ending text = some rest ↔ text = rest ++ ending := by
  rw [dropEnd?, Option.map_eq_some_iff]
  simp only [List.isPrefixOf?_eq_some_iff_append_eq, ← String.toList_inj, String.toList_append]
  constructor
  · rintro ⟨before, same, spelled⟩
    rw [← spelled, String.toList_ofList, ← List.reverse_reverse text.toList, ← same, List.reverse_append,
      List.reverse_reverse]
  · rintro same
    exact ⟨rest.toList.reverse, by rw [same, List.reverse_append], by rw [String.toList_ofList, List.reverse_reverse]⟩

theorem dropStart?_eq_none_iff (start text : String) : dropStart? start text = none ↔ ¬ start.toList <+: text.toList := by
  rw [← Option.not_isSome_iff_eq_none, not_iff_not, Option.isSome_iff_exists]
  simp only [dropStart?_eq_some_iff, ← String.toList_inj, String.toList_append]
  constructor
  · rintro ⟨rest, same⟩
    exact ⟨rest.toList, same.symm⟩
  · rintro ⟨rest, same⟩
    exact ⟨String.ofList rest, by rw [String.toList_ofList, same]⟩

section
variable {first : Char} {others : List Char}

theorem suffix_of_after? {text rest : List Char} (found : after? first others text = some rest) : rest <:+ text := by
  rw [(after?_eq_some_iff _ _ _ _).mp found, ← List.cons_append]
  exact List.suffix_append _ _

/-- Replacing brings in no characters but those of the new text. -/
theorem filter_replaceAllChars_sublist (keep : Char → Bool) {new : List Char} (silent : new.filter keep = [])
    (text : List Char) : ((replaceAllChars first others new text).filter keep).Sublist (text.filter keep) := by
  fun_induction replaceAllChars first others new text with
  | case1 text rest found ih =>
    rw [List.filter_append, silent, List.nil_append]
    exact ih.trans ((suffix_of_after? found).sublist.filter keep)
  | case2 => exact List.Sublist.refl _
  | case3 c text none ih =>
    rw [List.filter_cons, List.filter_cons]
    split
    · exact ih.cons_cons c
    · exact ih

/-- What starts the result without the character that the new text begins with stood there before. -/
theorem prefix_of_prefix_replaceAllChars {new : Char} {more part : List Char} (absent : new ∉ part) (text : List Char)
    (start : part <+: replaceAllChars first others (new :: more) text) : part <+: text := by
  fun_induction replaceAllChars first others (new :: more) text generalizing part with
  | case1 text rest found ih =>
    rcases List.prefix_cons_iff.mp start with rfl | ⟨tail, rfl, -⟩
    · exact List.nil_prefix
    · exact absurd List.mem_cons_self absent
  | case2 => exact start
  | case3 c text none ih =>
    rcases List.prefix_cons_iff.mp start with rfl | ⟨tail, rfl, before⟩
    · exact List.nil_prefix
    · rw [List.mem_cons, not_or] at absent
      exact (List.prefix_cons_inj c).mpr (ih absent.2 before)

theorem infix_of_infix_replaceAllChars {new : Char} {part : List Char} (absent : new ∉ part) (text : List Char)
    (inside : part <:+: replaceAllChars first others [new] text) : part <:+: text := by
  fun_induction replaceAllChars first others [new] text with
  | case1 text rest found ih =>
    rcases List.infix_cons_iff.mp inside with start | later
    · rcases List.prefix_cons_iff.mp start with rfl | ⟨tail, rfl, -⟩
      · exact List.nil_infix
      · exact absurd List.mem_cons_self absent
    · exact (ih later).trans (suffix_of_after? found).isInfix
  | case2 => exact inside
  | case3 c text none ih =>
    rcases List.infix_cons_iff.mp inside with start | later
    · rcases List.prefix_cons_iff.mp start with rfl | ⟨tail, rfl, before⟩
      · exact List.nil_infix
      · rw [List.mem_cons, not_or] at absent
        have prefixes := prefix_of_prefix_replaceAllChars absent.2 text before
        exact ((List.prefix_cons_inj c).mpr prefixes).isInfix
    · exact (ih later).trans (List.suffix_cons c text).isInfix

theorem after?_eq_none_iff (text : List Char) : after? first others text = none ↔ ¬ (first :: others) <+: text := by
  rw [← after?_isSome_iff, Option.not_isSome_iff_eq_none]

theorem replaceAllChars_of_after? {new text rest : List Char} (found : after? first others text = some rest) :
    replaceAllChars first others new text = new ++ replaceAllChars first others new rest := by
  rw [replaceAllChars]
  split
  · next other same => rw [Option.some.inj (found.symm.trans same)]
  · next none =>
    rw [found] at none
    cases none

theorem replaceAllChars_cons {new : List Char} {c : Char} {text : List Char}
    (none : ¬ (first :: others) <+: c :: text) :
    replaceAllChars first others new (c :: text) = c :: replaceAllChars first others new text := by
  rw [replaceAllChars]
  split
  · next rest found =>
    rw [(after?_eq_none_iff (c :: text)).mpr none] at found
    cases found
  · rfl

theorem prefix_of_prefix_append_cons {part text after : List Char} {c : Char} (absent : c ∉ part)
    (start : part <+: text ++ c :: after) : part <+: text := by
  obtain ⟨rest, same⟩ := start
  rcases List.append_eq_append_iff.mp same with ⟨more, rfl, -⟩ | ⟨more, rfl, behind⟩
  · exact List.prefix_append _ _
  · cases more with
    | nil => simp
    | cons d more =>
      obtain ⟨rfl, -⟩ := List.cons.inj behind
      exact absurd (List.mem_append_right _ List.mem_cons_self) absent

/-- A character that is not in the pattern is between two texts in which it is replaced separately. -/
theorem replaceAllChars_append_cons {new : List Char} {c : Char} (absent : c ∉ first :: others) (before after : List Char) :
    replaceAllChars first others new (before ++ c :: after) =
      replaceAllChars first others new before ++ c :: replaceAllChars first others new after := by
  fun_induction replaceAllChars first others new before with
  | case1 text rest found ih =>
    rw [after?_eq_some_iff] at found
    have longer : after? first others (text ++ c :: after) = some (rest ++ c :: after) := by
      rw [after?_eq_some_iff, found]
      simp
    rw [replaceAllChars_of_after? longer, ih, List.append_assoc]
  | case2 =>
    apply replaceAllChars_cons
    rw [List.prefix_cons_iff]
    rintro (empty | ⟨tail, same, -⟩)
    · cases empty
    · exact absent ((List.cons.inj same).1 ▸ List.mem_cons_self)
  | case3 d text none ih =>
    rw [List.cons_append, replaceAllChars_cons, ih, List.cons_append]
    rw [after?_eq_none_iff] at none
    intro start
    rw [← List.cons_append] at start
    exact none (prefix_of_prefix_append_cons absent start)

/-- Where no pattern can start, nothing is replaced. -/
theorem replaceAllChars_append_of_not_mem {new before : List Char} (absent : first ∉ before) (text : List Char) :
    replaceAllChars first others new (before ++ text) = before ++ replaceAllChars first others new text := by
  induction before with
  | nil => rfl
  | cons c before ih =>
    rw [List.mem_cons, not_or] at absent
    have none : ¬ (first :: others) <+: c :: (before ++ text) :=
      fun start => absent.1 (List.cons_prefix_cons.mp start).1
    rw [List.cons_append, replaceAllChars_cons none, ih absent.2, List.cons_append]

theorem mem_of_mem_replaceAllChars {new text : List Char} {c : Char} (absent : c ∉ new)
    (member : c ∈ replaceAllChars first others new text) : c ∈ text := by
  have silent : new.filter (fun d => d == c) = [] := by
    rw [List.filter_eq_nil_iff]
    intro d inside same
    exact absent (beq_iff_eq.mp same ▸ inside)
  have kept : c ∈ (replaceAllChars first others new text).filter fun d => d == c :=
    List.mem_filter.mpr ⟨member, beq_self_eq_true c⟩
  exact (List.mem_filter.mp ((filter_replaceAllChars_sublist _ silent text).subset kept)).1

theorem replaceAllChars_of_not_infix {new text : List Char} (none : ¬ (first :: others) <:+: text) :
    replaceAllChars first others new text = text := by
  induction text with
  | nil =>
    rw [replaceAllChars]
    rfl
  | cons c text ih =>
    rw [List.infix_cons_iff, not_or] at none
    rw [replaceAllChars_cons none.1, ih none.2]

/-- A single character may be dropped by replacing it. -/
theorem replaceAllChars_single (text : List Char) : replaceAllChars first [] [] text = text.filter (· != first) := by
  induction text with
  | nil =>
    rw [replaceAllChars]
    rfl
  | cons c text ih =>
    by_cases same : c = first
    · subst same
      have found : after? c [] (c :: text) = some text := (after?_eq_some_iff _ _ _ _).mpr rfl
      rw [replaceAllChars_of_after? found, ih, List.filter_cons_of_neg (by simp)]
      rfl
    · have none : ¬ [first] <+: c :: text := fun start => same (List.cons_prefix_cons.mp start).1.symm
      rw [replaceAllChars_cons none, ih, List.filter_cons_of_pos (by simp [same])]

theorem toList_replaceAll {pattern : String} (spelled : pattern.toList = first :: others) (text new : String) :
    (replaceAll text pattern new).toList = replaceAllChars first others new.toList text.toList := by
  rw [replaceAll, spelled]
  exact String.toList_ofList

theorem replaceFirstChars_of_after? {new text rest : List Char} (found : after? first others text = some rest) :
    replaceFirstChars first others new text = new ++ rest := by
  cases text with
  | nil => cases found
  | cons c text => simp only [replaceFirstChars, found]

theorem replaceFirstChars_cons {new : List Char} {c : Char} {text : List Char}
    (none : ¬ (first :: others) <+: c :: text) :
    replaceFirstChars first others new (c :: text) = c :: replaceFirstChars first others new text := by
  simp only [replaceFirstChars, (after?_eq_none_iff (c :: text)).mpr none]

theorem replaceFirstChars_of_not_infix {new text : List Char} (none : ¬ (first :: others) <:+: text) :
    replaceFirstChars first others new text = text := by
  induction text with
  | nil => rfl
  | cons c text ih =>
    simp only [List.infix_cons_iff, not_or] at none
    simp only [replaceFirstChars_cons none.1, ih none.2]

/-- A pattern that follows the text does not stand there any earlier, not even by its own first characters. -/
def FirstBehind (pattern before : List Char) : Prop :=
  ¬ pattern <:+: before ++ pattern.dropLast

theorem prefix_dropLast_append (before rest : List Char) :
    before ++ (first :: others).dropLast <+: before ++ first :: (others ++ rest) :=
  (List.prefix_append_right_inj before).mpr
    ((List.dropLast_prefix (first :: others)).trans (List.prefix_append (first :: others) rest))

theorem replaceFirstChars_append {new before : List Char} (behind : FirstBehind (first :: others) before)
    (rest : List Char) :
    replaceFirstChars first others new (before ++ first :: (others ++ rest)) = before ++ (new ++ rest) := by
  induction before with
  | nil => exact replaceFirstChars_of_after? ((after?_eq_some_iff _ _ _ _).mpr rfl)
  | cons c before ih =>
    have here : ¬ (first :: others) <+: c :: before ++ first :: (others ++ rest) := by
      intro start
      have short : (first :: others).length ≤ (c :: before ++ (first :: others).dropLast).length := by
        simp only [List.length_cons, List.length_append, List.length_dropLast]
        omega
      exact behind (List.prefix_of_prefix_length_le start (prefix_dropLast_append _ _) short).isInfix
    have later : FirstBehind (first :: others) before := fun inside => behind (inside.trans (List.suffix_cons _ _).isInfix)
    simp only [List.cons_append] at here ⊢
    simp only [replaceFirstChars_cons here, ih later]

theorem exists_firstBehind {text : List Char} (inside : (first :: others) <:+: text) :
    ∃ before rest, text = before ++ first :: (others ++ rest) ∧ FirstBehind (first :: others) before := by
  induction text with
  | nil => cases List.infix_nil.mp inside
  | cons c text ih =>
    by_cases start : (first :: others) <+: c :: text
    · obtain ⟨rest, same⟩ := start
      refine ⟨[], rest, same.symm, fun inside => ?_⟩
      have shorter := inside.length_le
      simp only [List.nil_append, List.length_dropLast, List.length_cons] at shorter
      omega
    · obtain ⟨before, rest, rfl, behind⟩ := ih ((List.infix_cons_iff.mp inside).resolve_left start)
      refine ⟨c :: before, rest, rfl, fun inside => ?_⟩
      rcases List.infix_cons_iff.mp inside with here | later
      · exact start (here.trans (prefix_dropLast_append (c :: before) rest))
      · exact behind later

end

/-- Two places of a text are the same one, or one of them comes first. -/
theorem prefix_concat_cases {first second text : List Char} {c d : Char} (one : first ++ [c] <+: text)
    (other : second ++ [d] <+: text) :
    first = second ∧ c = d ∨ first ++ [c] <+: second ∨ second ++ [d] <+: first := by
  rcases List.prefix_or_prefix_of_prefix one other with shorter | shorter
  · rcases List.prefix_concat_iff.mp shorter with same | before
    · exact .inl (List.append_singleton_inj.mp same)
    · exact .inr (.inl before)
  · rcases List.prefix_concat_iff.mp shorter with same | before
    · exact .inl (List.append_singleton_inj.mp same.symm)
    · exact .inr (.inr before)

theorem prefix_of_prefix_append {front back part : List Char} {mark : Char} (absent : mark ∉ back)
    (start : part ++ [mark] <+: front ++ back) : part ++ [mark] <+: front := by
  rcases List.prefix_or_prefix_of_prefix start (List.prefix_append front back) with inside | beyond
  · exact inside
  · rcases List.prefix_concat_iff.mp beyond with same | ⟨more, rfl⟩
    · exact same ▸ List.prefix_refl _
    · have later : more ++ [mark] <+: back := by
        rwa [List.append_assoc, List.prefix_append_right_inj] at start
      exact absurd (later.subset (by simp)) absent

theorem infix_iff_starts {pattern text : List Char} (nonempty : pattern ≠ []) :
    pattern <:+: text ↔ ∃ tail, tail ≠ [] ∧ tail <:+ text ∧ pattern <+: tail := by
  rw [List.infix_iff_prefix_suffix]
  constructor
  · rintro ⟨tail, start, suffix⟩
    refine ⟨tail, ?_, suffix, start⟩
    rintro rfl
    exact nonempty (List.prefix_nil.mp start)
  · rintro ⟨tail, -, suffix, start⟩
    exact ⟨tail, start, suffix⟩

theorem suffix_append_cases {front back tail : List Char} (suffix : tail <:+ front ++ back) :
    tail <:+ back ∨ ∃ more, more ≠ [] ∧ more <:+ front ∧ tail = more ++ back := by
  obtain ⟨passed, same⟩ := suffix
  rcases List.append_eq_append_iff.mp same with ⟨more, rfl, rfl⟩ | ⟨more, -, rfl⟩
  · by_cases nonempty : more = []
    · exact .inl (by simp [nonempty])
    · exact .inr ⟨more, nonempty, List.suffix_append _ _, rfl⟩
  · exact .inl (List.suffix_append _ _)

/-- What stands in two texts starts in the second one, or in the first one and may reach over. -/
theorem infix_append_cases {pattern front back : List Char} (nonempty : pattern ≠ []) (inside : pattern <:+: front ++ back) :
    (∃ tail, tail ≠ [] ∧ tail <:+ back ∧ pattern <+: tail) ∨
      ∃ more, more ≠ [] ∧ more <:+ front ∧ pattern <+: more ++ back := by
  obtain ⟨tail, starts, suffix, start⟩ := (infix_iff_starts nonempty).mp inside
  rcases suffix_append_cases suffix with within | ⟨more, some, within, rfl⟩
  · exact .inl ⟨tail, starts, within, start⟩
  · exact .inr ⟨more, some, within, start⟩

section
variable {first : Char} {others : List Char}

/-- A pattern does not come back where it is replaced by a text at no place of which it can start, and whose first character
it cannot go on with. -/
theorem not_infix_replaceAllChars_of_apart {new : Char} {more : List Char} (late : new ∉ others)
    (apart : ∀ tail, tail ≠ [] → tail <:+ new :: more → ∀ rest, ¬ (first :: others) <+: tail ++ rest) (text : List Char) :
    ¬ (first :: others) <:+: replaceAllChars first others (new :: more) text := by
  fun_induction replaceAllChars first others (new :: more) text with
  | case1 text rest found ih =>
    intro inside
    rcases infix_append_cases (List.cons_ne_nil _ _) inside with ⟨tail, -, behind, start⟩ | ⟨tail, some, within, start⟩
    · exact ih (start.isInfix.trans behind.isInfix)
    · exact apart tail some within _ start
  | case2 => simp
  | case3 c text none ih =>
    rw [List.infix_cons_iff, not_or]
    refine ⟨?_, ih⟩
    rw [after?_eq_none_iff] at none
    intro start
    obtain ⟨rfl, behind⟩ := List.cons_prefix_cons.mp start
    exact none ((List.prefix_cons_inj _).mpr (prefix_of_prefix_replaceAllChars late text behind))

/-- Where a pattern is replaced by a character that is not in it, it occurs no more. -/
theorem not_infix_replaceAllChars {new : Char} (absent : new ∉ first :: others) (text : List Char) :
    ¬ (first :: others) <:+: replaceAllChars first others [new] text := by
  rw [List.mem_cons, not_or] at absent
  apply not_infix_replaceAllChars_of_apart absent.2
  intro tail some within rest start
  rcases List.suffix_cons_iff.mp within with rfl | empty
  · exact absent.1 (List.cons_prefix_cons.mp start).1.symm
  · exact some (List.suffix_nil.mp empty)

/-- A pattern whose first character is nowhere else in it is gone where another text of the same kind replaces it. -/
theorem not_infix_replaceAllChars_of_once {more : List Char} (once : first ∉ others) (also : first ∉ more)
    (short : others.length ≤ more.length) (differ : ¬ others <+: more) (text : List Char) :
    ¬ (first :: others) <:+: replaceAllChars first others (first :: more) text := by
  apply not_infix_replaceAllChars_of_apart once
  intro tail some within rest start
  rcases List.suffix_cons_iff.mp within with rfl | later
  · have longer : others <+: more ++ rest := (List.cons_prefix_cons.mp start).2
    exact differ (List.prefix_of_prefix_length_le longer (List.prefix_append _ _) short)
  · -- a later start would need the first character again
    cases tail with
    | nil => exact some rfl
    | cons c tail =>
      obtain ⟨rfl, -⟩ := List.cons_prefix_cons.mp start
      exact also (later.subset List.mem_cons_self)

end

end Compendium.Text
