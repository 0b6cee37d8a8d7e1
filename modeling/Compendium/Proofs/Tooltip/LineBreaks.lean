import Compendium.Proofs.Text.LetterCase
import Compendium.Tooltip.Markup

/-! Line break tags. Each becomes a new line, from the left, and since no such tag holds a new line, none comes about where
two parts of the text are joined by one. -/

set_option autoImplicit false
namespace Compendium.Markup

/-- The name `br` in any letter case between brackets, with at most one space and one slash behind it. -/
def IsLineBreak (tag : List Char) : Prop :=
  ∃ b ∈ ['b', 'B'], ∃ r ∈ ['r', 'R'], ∃ space ∈ [[], [' ']], ∃ slash ∈ [[], ['/']],
    tag = '<' :: b :: r :: (space ++ (slash ++ ['>']))

def LineBreakFree (text : List Char) : Prop :=
  ∀ tag, IsLineBreak tag → ¬ tag <:+: text

/-- A text with a new line for each of its line break tags. -/
inductive Breaks : List Char → List Char → Prop where
  | nil : Breaks [] []
  | lineBreak {tag rest shown : List Char} : IsLineBreak tag → Breaks rest shown → Breaks (tag ++ rest) ('\n' :: shown)
  | char {c : Char} {rest shown : List Char} : (∀ tag, IsLineBreak tag → ¬ tag <+: c :: rest) → Breaks rest shown →
      Breaks (c :: rest) (c :: shown)

theorem exists_dropOptional (optional : Char) (text : List Char) :
    ∃ front ∈ [[], [optional]], text = front ++ dropOptional optional text := by
  cases text with
  | nil => exact ⟨[], by simp, rfl⟩
  | cons c rest =>
    rw [dropOptional]
    split
    · next same => exact ⟨[optional], by simp, by rw [same]; rfl⟩
    · exact ⟨[], by simp, rfl⟩

theorem afterBreakName?_eq_some_iff (text after : List Char) : afterBreakName? text = some after ↔
    ∃ space ∈ [[], [' ']], ∃ slash ∈ [[], ['/']], text = space ++ (slash ++ '>' :: after) := by
  constructor
  · intro found
    obtain ⟨space, spaces, first⟩ := exists_dropOptional ' ' text
    obtain ⟨slash, slashes, second⟩ := exists_dropOptional '/' (dropOptional ' ' text)
    rw [afterBreakName?] at found
    split at found
    · next rest closed =>
      obtain rfl := Option.some.inj found
      exact ⟨space, spaces, slash, slashes, by rw [← closed, ← second, ← first]⟩
    · cases found
  · rintro ⟨space, spaces, slash, slashes, rfl⟩
    simp only [List.mem_cons, List.not_mem_nil, or_false] at spaces slashes
    rcases spaces with rfl | rfl <;> rcases slashes with rfl | rfl <;> rfl

/-- A letter has two spellings, if the characters of ASCII are looked through. -/
theorem toLower_eq_iff {letter capital : Char} (small : letter.toNat < 0x80 ∧ capital.toNat < 0x80)
    (checked : ∀ code < 0x80, (Char.ofNat code).toLower = letter ↔ Char.ofNat code ∈ [letter, capital]) (c : Char) :
    c.toLower = letter ↔ c ∈ [letter, capital] := by
  by_cases ascii : c.toNat < 0x80
  · exact Text.forall_ascii (P := fun c => c.toLower = letter ↔ c ∈ [letter, capital]) checked c ascii
  · rw [Text.toLower_of_not_ascii (by omega), List.mem_pair]
    constructor
    · exact .inl
    · rintro (same | rfl)
      · exact same
      · exact absurd small.2 ascii

theorem afterLineBreak?_eq_some_iff (text after : List Char) :
    afterLineBreak? text = some after ↔ ∃ tag, IsLineBreak tag ∧ text = tag ++ after := by
  have b_iff (c : Char) : c.toLower = 'b' ↔ c ∈ ['b', 'B'] := toLower_eq_iff (by decide) (by decide +kernel) c
  have r_iff (c : Char) : c.toLower = 'r' ↔ c ∈ ['r', 'R'] := toLower_eq_iff (by decide) (by decide +kernel) c
  constructor
  · intro found
    unfold afterLineBreak? at found
    split at found
    · next b r rest =>
      split at found
      · next named =>
        obtain ⟨space, spaces, slash, slashes, rfl⟩ := (afterBreakName?_eq_some_iff rest after).mp found
        refine ⟨_, ⟨b, (b_iff b).mp named.1, r, (r_iff r).mp named.2, space, spaces, slash, slashes, rfl⟩, ?_⟩
        simp
      · cases found
    · cases found
  · rintro ⟨tag, ⟨b, bs, r, rs, space, spaces, slash, slashes, rfl⟩, rfl⟩
    have rest := (afterBreakName?_eq_some_iff _ after).mpr ⟨space, spaces, slash, slashes, rfl⟩
    simpa [afterLineBreak?, (b_iff b).mpr bs, (r_iff r).mpr rs] using rest

theorem afterLineBreak?_eq_none_iff (text : List Char) :
    afterLineBreak? text = none ↔ ∀ tag, IsLineBreak tag → ¬ tag <+: text := by
  constructor
  · rintro none tag known ⟨after, same⟩
    rw [(afterLineBreak?_eq_some_iff text after).mpr ⟨tag, known, same.symm⟩] at none
    cases none
  · intro apart
    cases found : afterLineBreak? text with
    | none => rfl
    | some after =>
      obtain ⟨tag, known, rfl⟩ := (afterLineBreak?_eq_some_iff text after).mp found
      exact absurd (List.prefix_append tag after) (apart tag known)

theorem breakLineChars_lineBreak {tag : List Char} (known : IsLineBreak tag) (rest : List Char) :
    breakLineChars (tag ++ rest) = '\n' :: breakLineChars rest := by
  have found := (afterLineBreak?_eq_some_iff (tag ++ rest) rest).mpr ⟨tag, known, rfl⟩
  rw [breakLineChars]
  split
  · next other same => rw [Option.some.inj (found.symm.trans same)]
  · next none =>
    rw [found] at none
    cases none

theorem breakLineChars_char {c : Char} {rest : List Char} (apart : ∀ tag, IsLineBreak tag → ¬ tag <+: c :: rest) :
    breakLineChars (c :: rest) = c :: breakLineChars rest := by
  have none := (afterLineBreak?_eq_none_iff (c :: rest)).mpr apart
  rw [breakLineChars]
  split
  · next after found =>
    rw [none] at found
    cases found
  · rfl

theorem breakLineChars_eq_iff (text shown : List Char) : breakLineChars text = shown ↔ Breaks text shown := by
  constructor
  · rintro rfl
    fun_induction breakLineChars text with
    | case1 text after found ih =>
      obtain ⟨tag, known, rfl⟩ := (afterLineBreak?_eq_some_iff text after).mp found
      exact .lineBreak known ih
    | case2 => exact .nil
    | case3 c rest none ih => exact .char ((afterLineBreak?_eq_none_iff _).mp none) ih
  · intro breaks
    induction breaks with
    | nil =>
      rw [breakLineChars]
      rfl
    | lineBreak known _ ih => rw [breakLineChars_lineBreak known, ih]
    | char apart _ ih => rw [breakLineChars_char apart, ih]

section
variable {text shown tag : List Char}

theorem Breaks.mem (breaks : Breaks text shown) {c : Char} (member : c ∈ shown) : c = '\n' ∨ c ∈ text := by
  induction breaks with
  | nil => cases member
  | lineBreak _ _ ih =>
    rcases List.mem_cons.mp member with rfl | later
    · exact .inl rfl
    · exact (ih later).imp_right (List.mem_append_right _)
  | char _ _ ih =>
    rcases List.mem_cons.mp member with rfl | later
    · exact .inr List.mem_cons_self
    · exact (ih later).imp_right (List.mem_cons_of_mem _)

/-- What starts with no new line in it stood there before. -/
theorem Breaks.starts (breaks : Breaks text shown) {part : List Char} (flat : '\n' ∉ part) (start : part <+: shown) :
    part <+: text := by
  induction breaks generalizing part with
  | nil => exact start
  | lineBreak _ _ _ =>
    rcases List.prefix_cons_iff.mp start with rfl | ⟨tail, rfl, -⟩
    · exact List.nil_prefix
    · exact absurd List.mem_cons_self flat
  | @char c rest shown _ _ ih =>
    rcases List.prefix_cons_iff.mp start with rfl | ⟨tail, rfl, before⟩
    · exact List.nil_prefix
    · rw [List.mem_cons, not_or] at flat
      exact (List.prefix_cons_inj c).mpr (ih flat.2 before)

theorem IsLineBreak.exists_body (known : IsLineBreak tag) : ∃ body, tag = '<' :: body ∧ '\n' ∉ body := by
  obtain ⟨b, bs, r, rs, space, spaces, slash, slashes, rfl⟩ := known
  refine ⟨_, rfl, ?_⟩
  simp only [List.mem_cons, List.not_mem_nil, or_false] at bs rs spaces slashes
  rcases bs with rfl | rfl <;> rcases rs with rfl | rfl <;> rcases spaces with rfl | rfl <;>
    rcases slashes with rfl | rfl <;> decide

/-- No line break tag is left, and none comes about. -/
theorem Breaks.lineBreakFree (breaks : Breaks text shown) : LineBreakFree shown := by
  intro tag known
  obtain ⟨body, rfl, flat⟩ := known.exists_body
  induction breaks with
  | nil => exact fun inside => List.cons_ne_nil _ _ (List.infix_nil.mp inside)
  | lineBreak _ _ ih =>
    rw [List.infix_cons_iff, not_or]
    refine ⟨?_, ih⟩
    intro start
    exact absurd (List.cons_prefix_cons.mp start).1 (by decide)
  | char apart later ih =>
    rw [List.infix_cons_iff, not_or]
    refine ⟨?_, ih⟩
    intro start
    -- the rest of such a tag has no new line in it, so the whole tag stood in the text before
    obtain ⟨rfl, before⟩ := List.cons_prefix_cons.mp start
    exact apart _ known ((List.prefix_cons_inj _).mpr (later.starts flat before))

end

end Compendium.Markup
