import Compendium.Text.Occurrence
import Compendium.Proofs.Text.Occurrence

/-! Texts joined with a separator and split at it again. The separator has a character that is in none of the texts, so
that every occurrence of it is one of those that joining put in. -/

set_option autoImplicit false
namespace Compendium.Text

section
variable {first : Char} {others : List Char}

theorem splitChars_of_after? {text rest : List Char} (found : after? first others text = some rest) :
    splitChars first others text = [] :: splitChars first others rest := by
  rw [splitChars]
  split
  · next other same => rw [Option.some.inj (found.symm.trans same)]
  · next none =>
    rw [found] at none
    cases none

theorem splitChars_ne_nil (text : List Char) : splitChars first others text ≠ [] := by
  fun_induction splitChars first others text <;> simp

theorem splitChars_cons {c : Char} {text : List Char} (none : ¬ (first :: others) <+: c :: text) :
    splitChars first others (c :: text) =
      match splitChars first others text with
      | [] => [[c]]
      | piece :: pieces => (c :: piece) :: pieces := by
  rw [splitChars]
  split
  · next rest found =>
    rw [(after?_eq_none_iff (c :: text)).mpr none] at found
    cases found
  · rfl

theorem splitChars_of_not_mem {mark : Char} (marked : mark ∈ first :: others) {text : List Char} (absent : mark ∉ text) :
    splitChars first others text = [text] := by
  induction text with
  | nil => simp [splitChars, after?]
  | cons c text ih =>
    rw [splitChars_cons fun start => absent (start.subset marked), ih fun inside => absent (List.mem_cons_of_mem c inside)]

/-- The first mark of a text that starts with the separator is that of the separator. -/
theorem eq_nil_of_prefix_append {mark : Char} {before after piece rest : List Char} (early : mark ∉ before)
    (absent : mark ∉ piece) (start : (before ++ mark :: after) <+: piece ++ (before ++ mark :: rest)) : piece = [] := by
  have unmarked : ∀ text : List Char, mark ∉ text → ∀ c ∈ text, (c != mark) = true :=
    fun text none c member => bne_iff_ne.mpr fun same => none (same ▸ member)
  have upTo : ∀ text behind : List Char, mark ∉ text → (text ++ mark :: behind).takeWhile (· != mark) = text := by
    intro text behind none
    rw [List.takeWhile_append_of_pos (unmarked text none), List.takeWhile_cons_of_neg (by simp), List.append_nil]
  obtain ⟨more, same⟩ := start
  have firsts := congrArg (List.takeWhile (· != mark)) same
  rw [List.append_assoc, List.cons_append, upTo _ _ early, ← List.append_assoc, upTo _ _ (by simp [absent, early])] at firsts
  have lengths := congrArg List.length firsts
  rw [List.length_append] at lengths
  exact List.eq_nil_of_length_eq_zero (by omega)

/-- What is before the separator and without its mark is a piece of its own. -/
theorem splitChars_append {mark : Char} {before after : List Char} (parted : first :: others = before ++ mark :: after)
    (early : mark ∉ before) {piece : List Char} (absent : mark ∉ piece) (rest : List Char) :
    splitChars first others (piece ++ (first :: others ++ rest)) = piece :: splitChars first others rest := by
  induction piece with
  | nil =>
    apply splitChars_of_after?
    rw [after?_eq_some_iff, List.nil_append, List.cons_append]
  | cons c piece ih =>
    have none : ¬ (first :: others) <+: c :: (piece ++ (first :: others ++ rest)) := by
      intro start
      rw [parted, List.append_assoc, List.cons_append, ← List.cons_append] at start
      cases eq_nil_of_prefix_append early absent start
    rw [List.cons_append, splitChars_cons none, ih fun inside => absent (List.mem_cons_of_mem c inside)]

theorem splitChars_intercalate {mark : Char} {before after : List Char} (parted : first :: others = before ++ mark :: after)
    (early : mark ∉ before) {pieces : List (List Char)} (nonempty : pieces ≠ []) (absent : ∀ piece ∈ pieces, mark ∉ piece) :
    splitChars first others ((first :: others).intercalate pieces) = pieces := by
  have marked : mark ∈ first :: others := parted ▸ List.mem_append_right before List.mem_cons_self
  induction pieces with
  | nil => exact absurd rfl nonempty
  | cons piece rest ih =>
    rw [List.forall_mem_cons] at absent
    cases rest with
    | nil => rw [List.intercalate_singleton, splitChars_of_not_mem marked absent.1]
    | cons next rest =>
      rw [List.intercalate_cons_cons, List.append_assoc, splitChars_append parted early absent.1,
        ih (List.cons_ne_nil _ _) absent.2]

/-- What a text is split into is joined to that text again. -/
theorem intercalate_splitChars (text : List Char) :
    (first :: others).intercalate (splitChars first others text) = text := by
  fun_induction splitChars first others text with
  | case1 text rest found ih =>
    obtain ⟨piece, pieces, same⟩ := List.exists_cons_of_ne_nil (@splitChars_ne_nil first others rest)
    rw [same] at ih ⊢
    rw [List.intercalate_cons_cons, List.nil_append, ih, (after?_eq_some_iff _ _ _ _).mp found, List.cons_append]
  | case2 => rfl
  | case3 c text none nothing ih => exact absurd nothing (splitChars_ne_nil text)
  | case4 c text none piece pieces same ih =>
    rw [same] at ih
    cases pieces with
    | nil => simpa using ih
    | cons next pieces => simpa [List.intercalate_cons_cons] using ih

end

section
variable {mark : Char}

theorem splitChars_mark_append (before after : List Char) :
    splitChars mark [] (before ++ mark :: after) = splitChars mark [] before ++ splitChars mark [] after := by
  induction before with
  | nil =>
    have nothing : splitChars mark [] [] = [[]] := by simp [splitChars, after?]
    rw [nothing]
    exact splitChars_of_after? (by simp [after?])
  | cons c before ih =>
    by_cases same : c = mark
    · subst same
      have found : ∀ text, splitChars c [] (c :: text) = [] :: splitChars c [] text :=
        fun text => splitChars_of_after? (by simp [after?])
      rw [List.cons_append, found, found, ih, List.cons_append]
    · have none : ∀ text, ¬ [mark] <+: c :: text := by simp [Ne.symm same]
      rw [List.cons_append, splitChars_cons (none _), splitChars_cons (none _), ih]
      obtain ⟨piece, pieces, split⟩ := List.exists_cons_of_ne_nil (@splitChars_ne_nil mark [] before)
      rw [split]
      rfl

theorem not_mem_of_mem_splitChars (text : List Char) : ∀ piece ∈ splitChars mark [] text, mark ∉ piece := by
  fun_induction splitChars mark [] text with
  | case1 text rest found ih => simpa using ih
  | case2 => simp
  | case3 c text none nothing ih => exact absurd nothing (splitChars_ne_nil text)
  | case4 c text none piece pieces same ih =>
    have other : c ≠ mark := by
      rintro rfl
      simp [after?, List.isPrefixOf?] at none
    rw [same] at ih
    simpa [Ne.symm other] using ih

end

/-- Joined texts are split into what was joined, if the separator has a mark that is in none of them. -/
theorem splitOn_join {separator : String} {mark : Char} {before after : List Char}
    (parted : separator.toList = before ++ mark :: after) (early : mark ∉ before) {pieces : List String}
    (nonempty : pieces ≠ []) (absent : ∀ piece ∈ pieces, mark ∉ piece.toList) :
    splitOn (join separator pieces) separator = pieces := by
  rw [splitOn, join, String.toList_intercalate]
  cases spelled : separator.toList with
  | nil =>
    rw [spelled] at parted
    cases before <;> cases parted
  | cons first others =>
    rw [spelled] at parted
    have split : splitChars first others ((first :: others).intercalate (pieces.map String.toList)) =
        pieces.map String.toList :=
      splitChars_intercalate parted early (by simpa using nonempty) (by simpa using absent)
    change (splitChars first others _).map String.ofList = pieces
    rw [split, List.map_map]
    exact (List.map_congr_left fun piece _ => String.ofList_toList).trans (List.map_id pieces)

theorem splitOn_ne_nil (text separator : String) : splitOn text separator ≠ [] := by
  rw [splitOn]
  split <;> simp [splitChars_ne_nil]

/-- Joining brings in no characters but those of the separator. -/
theorem not_mem_join {separator : String} {c : Char} (apart : c ∉ separator.toList) {pieces : List String}
    (absent : ∀ piece ∈ pieces, c ∉ piece.toList) : c ∉ (join separator pieces).toList := by
  induction pieces with
  | nil => simp [join]
  | cons piece rest ih =>
    obtain ⟨first, later⟩ := List.forall_mem_cons.mp absent
    cases rest with
    | nil => simpa [join] using first
    | cons next rest =>
      have behind := ih later
      simp only [join] at behind
      simp only [join, String.intercalate_cons_cons, String.toList_append, List.mem_append, not_or]
      exact ⟨⟨first, apart⟩, behind⟩

theorem join_splitOn (text separator : String) : join separator (splitOn text separator) = text := by
  rw [join, splitOn]
  split
  · simp
  · next first others spelled =>
    apply String.toList_inj.mp
    rw [String.toList_intercalate, spelled, List.map_map]
    have back : String.toList ∘ String.ofList = id := funext fun piece => String.toList_ofList
    rw [back, List.map_id, intercalate_splitChars]

end Compendium.Text
