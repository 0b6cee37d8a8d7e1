import Compendium.Proofs.Text.LetterCase
import Compendium.Proofs.Tooltip.Markup

/-! Texts read as symbols: characters that show, and tags. Reading takes a text apart, and writing puts it together again;
a list of symbols that no text is read as is not legible. -/

set_option autoImplicit false
namespace Compendium.Markup

inductive Symbol where
  | char (c : Char)
  | tag (inner : List Char)
  deriving DecidableEq, Repr

namespace Symbol

def written : Symbol → List Char
  | .char c => [c]
  | .tag inner => '<' :: (inner ++ ['>'])

def shown? : Symbol → Option Char
  | .char c => some c
  | .tag _ => none

def isTag : Symbol → Bool
  | .char _ => false
  | .tag _ => true

end Symbol

def write (symbols : List Symbol) : List Char :=
  symbols.flatMap Symbol.written

/-- The characters that show. -/
def shown (symbols : List Symbol) : List Char :=
  symbols.filterMap Symbol.shown?

def read (text : List Char) : List Symbol :=
  match text with
  | [] => []
  | c :: rest =>
    if c = '<' then
      match _found : afterClose? rest with
      | some after => .tag (rest.takeWhile fun c => c ≠ '>') :: read after
      | none => .char c :: read rest
    else .char c :: read rest
termination_by text.length
decreasing_by
  · exact Nat.lt_succ_of_lt (length_afterClose? _found)
  · exact Nat.lt_succ_self _
  · exact Nat.lt_succ_self _

/-- A bracket is a character only where nothing closes it, and nothing closes a tag before its end. -/
def Legible : List Symbol → Prop
  | [] => True
  | .char c :: rest => (c = '<' → '>' ∉ write rest) ∧ Legible rest
  | .tag inner :: rest => '>' ∉ inner ∧ Legible rest

@[simp] theorem write_nil : write [] = [] := rfl

@[simp] theorem write_char (c : Char) (rest : List Symbol) : write (.char c :: rest) = c :: write rest := rfl

@[simp] theorem write_tag (inner : List Char) (rest : List Symbol) :
    write (.tag inner :: rest) = '<' :: (inner ++ '>' :: write rest) := by
  simp [write, Symbol.written]

@[simp] theorem write_append (first second : List Symbol) : write (first ++ second) = write first ++ write second :=
  List.flatMap_append

@[simp] theorem shown_nil : shown [] = [] := rfl

@[simp] theorem shown_char (c : Char) (rest : List Symbol) : shown (.char c :: rest) = c :: shown rest := rfl

@[simp] theorem shown_tag (inner : List Char) (rest : List Symbol) : shown (.tag inner :: rest) = shown rest := rfl

@[simp] theorem shown_append (first second : List Symbol) : shown (first ++ second) = shown first ++ shown second :=
  List.filterMap_append

theorem afterClose?_eq_some_iff (text after : List Char) :
    afterClose? text = some after ↔ ∃ inner, '>' ∉ inner ∧ text = inner ++ '>' :: after := by
  induction text with
  | nil => simp [afterClose?]
  | cons c rest ih =>
    by_cases close : c = '>'
    · subst close
      rw [afterClose?, if_pos rfl, Option.some.injEq]
      constructor
      · rintro rfl
        exact ⟨[], List.not_mem_nil, rfl⟩
      · rintro ⟨_ | ⟨first, inner⟩, absent, same⟩
        · exact (List.cons.inj same).2
        · exact absurd ((List.cons.inj same).1 ▸ List.mem_cons_self) absent
    · rw [afterClose?, if_neg close, ih]
      constructor
      · rintro ⟨inner, absent, rfl⟩
        refine ⟨c :: inner, ?_, rfl⟩
        rw [List.mem_cons, not_or]
        exact ⟨Ne.symm close, absent⟩
      · rintro ⟨_ | ⟨first, inner⟩, absent, same⟩
        · exact absurd (List.cons.inj same).1 close
        · exact ⟨inner, fun member => absent (List.mem_cons_of_mem _ member), (List.cons.inj same).2⟩

theorem takeWhile_inner {inner : List Char} (absent : '>' ∉ inner) (after : List Char) :
    (inner ++ '>' :: after).takeWhile (fun c => c ≠ '>') = inner := by
  have inside : ∀ c ∈ inner, (decide (c ≠ '>')) = true := by
    intro c member
    rw [decide_eq_true_eq]
    rintro rfl
    exact absent member
  rw [List.takeWhile_append_of_pos inside]
  simp

theorem read_tag {inner : List Char} (absent : '>' ∉ inner) (after : List Char) :
    read ('<' :: (inner ++ '>' :: after)) = .tag inner :: read after := by
  have found := (afterClose?_eq_some_iff _ after).mpr ⟨inner, absent, rfl⟩
  rw [read, if_pos rfl]
  split
  · next other same =>
    obtain rfl := Option.some.inj (found.symm.trans same)
    rw [takeWhile_inner absent]
  · next none =>
    rw [found] at none
    cases none

theorem read_char {c : Char} {rest : List Char} (literal : c = '<' → '>' ∉ rest) :
    read (c :: rest) = .char c :: read rest := by
  rw [read]
  split
  · next bracket =>
    have none := (afterClose?_eq_none_iff rest).mpr (literal bracket)
    split
    · next after found =>
      rw [none] at found
      cases found
    · rfl
  · rfl

theorem write_read_legible (text : List Char) : write (read text) = text ∧ Legible (read text) := by
  fun_induction read text with
  | case1 => exact ⟨rfl, trivial⟩
  | case2 rest after found ih =>
    obtain ⟨inner, absent, rfl⟩ := (afterClose?_eq_some_iff rest after).mp found
    rw [takeWhile_inner absent, write_tag, ih.1]
    exact ⟨rfl, absent, ih.2⟩
  | case3 rest none ih =>
    rw [write_char, ih.1]
    refine ⟨rfl, fun _ => ?_, ih.2⟩
    rw [ih.1]
    exact (afterClose?_eq_none_iff rest).mp none
  | case4 c rest other ih =>
    rw [write_char, ih.1]
    exact ⟨rfl, fun bracket => absurd bracket other, ih.2⟩

theorem write_read (text : List Char) : write (read text) = text :=
  (write_read_legible text).1

theorem legible_read (text : List Char) : Legible (read text) :=
  (write_read_legible text).2

/-- A tag behind a text is read as a tag, if none is open there, and else as the end of the open one. -/
theorem read_append_tag (before : List Char) : ∃ front opened, ∀ inner after, '>' ∉ inner →
    read (before ++ '<' :: (inner ++ '>' :: after)) = front ++ .tag (opened ++ inner) :: read after := by
  fun_induction read before with
  | case1 => exact ⟨[], [], fun inner after absent => read_tag absent after⟩
  | case2 rest later found ih =>
    obtain ⟨passed, absent, rfl⟩ := (afterClose?_eq_some_iff rest later).mp found
    obtain ⟨front, opened, tag⟩ := ih
    refine ⟨.tag passed :: front, opened, fun inner after free => ?_⟩
    have step := read_tag absent (later ++ '<' :: (inner ++ '>' :: after))
    rw [tag inner after free] at step
    simpa using step
  | case3 rest none ih =>
    have unclosed := (afterClose?_eq_none_iff rest).mp none
    refine ⟨[], rest ++ ['<'], fun inner after free => ?_⟩
    have absent : '>' ∉ rest ++ '<' :: inner := by simp [unclosed, free]
    simpa using read_tag absent after
  | case4 c rest other ih =>
    obtain ⟨front, opened, tag⟩ := ih
    refine ⟨.char c :: front, opened, fun inner after free => ?_⟩
    rw [List.cons_append, read_char fun bracket => absurd bracket other, tag inner after free]
    rfl

theorem write_sublist {part symbols : List Symbol} (sublist : part.Sublist symbols) :
    (write part).Sublist (write symbols) := by
  induction sublist with
  | slnil => exact List.Sublist.refl _
  | @cons part rest symbol _ ih => exact ih.trans (List.sublist_append_right symbol.written (write rest))
  | @cons_cons part rest symbol _ ih => exact (List.Sublist.refl symbol.written).append ih

theorem Legible.sublist {part symbols : List Symbol} (legible : Legible symbols) (sublist : part.Sublist symbols) :
    Legible part := by
  induction sublist with
  | slnil => trivial
  | @cons part rest symbol _ ih =>
    cases symbol with
    | char c => exact ih legible.2
    | tag inner => exact ih legible.2
  | @cons_cons part rest symbol inside ih =>
    cases symbol with
    | char c => exact ⟨fun bracket close => legible.1 bracket ((write_sublist inside).subset close), ih legible.2⟩
    | tag inner => exact ⟨legible.1, ih legible.2⟩

theorem stripTagChars_tag {inner : List Char} (absent : '>' ∉ inner) (after : List Char) :
    stripTagChars ('<' :: (inner ++ '>' :: after)) = stripTagChars after := by
  have found := (afterClose?_eq_some_iff _ after).mpr ⟨inner, absent, rfl⟩
  rw [stripTagChars, if_pos rfl]
  split
  · next other same => rw [Option.some.inj (found.symm.trans same)]
  · next none =>
    rw [found] at none
    cases none

theorem stripTagChars_char {c : Char} {rest : List Char} (literal : c = '<' → '>' ∉ rest) :
    stripTagChars (c :: rest) = c :: stripTagChars rest := by
  rw [stripTagChars]
  split
  · next bracket =>
    have none := (afterClose?_eq_none_iff rest).mpr (literal bracket)
    split
    · next after found =>
      rw [none] at found
      cases found
    · rfl
  · rfl

theorem stripTagChars_write {symbols : List Symbol} (legible : Legible symbols) :
    stripTagChars (write symbols) = shown symbols := by
  induction symbols with
  | nil => rw [write_nil, stripTagChars, shown_nil]
  | cons symbol rest ih =>
    cases symbol with
    | char c => rw [write_char, shown_char, stripTagChars_char legible.1, ih legible.2]
    | tag inner => rw [write_tag, shown_tag, stripTagChars_tag legible.1, ih legible.2]

theorem stripTagChars_eq (text : List Char) : stripTagChars text = shown (read text) := by
  rw [← stripTagChars_write (legible_read text), write_read]

section
variable {c : Char}

theorem unreached_of_isBracket (bracket : isBracket c = true) : Text.unreachedRanges.contains c = true := by
  rw [isBracket, Bool.or_eq_true, beq_iff_eq, beq_iff_eq] at bracket
  rcases bracket with rfl | rfl
  · decide
  · decide

theorem letter_of_isBracket (bracket : isBracket c = true) : Text.letter c = [c] := by
  rw [isBracket, Bool.or_eq_true, beq_iff_eq, beq_iff_eq] at bracket
  rcases bracket with rfl | rfl
  · decide +kernel
  · decide +kernel

/-- Comparing letters neither moves a bracket nor brings one in. -/
theorem filter_isBracket_letters (text : List Char) :
    (text.flatMap Text.letter).filter isBracket = text.filter isBracket := by
  induction text with
  | nil => rfl
  | cons c rest ih =>
    rw [List.flatMap_cons, List.filter_append, ih]
    by_cases bracket : isBracket c = true
    · rw [letter_of_isBracket bracket, List.filter_cons_of_pos bracket, List.filter_cons_of_pos bracket]
      rfl
    · have none : (Text.letter c).filter isBracket = [] := by
        rw [List.filter_eq_nil_iff]
        intro d member found
        rw [Text.eq_of_mem_letter (unreached_of_isBracket found) member] at found
        exact bracket found
      rw [none, List.filter_cons_of_neg bracket, List.nil_append]

/-- Texts with the same letters have tags in both or in none. -/
theorem tagFree_of_letters {first second : List Char}
    (same : first.flatMap Text.letter = second.flatMap Text.letter) (free : TagFree second) : TagFree first := by
  apply free.of_brackets
  rw [← filter_isBracket_letters first, same, filter_isBracket_letters]

theorem mem_letters_iff (bracket : isBracket c = true) (text : List Char) : c ∈ text.flatMap Text.letter ↔ c ∈ text := by
  have same := congrArg (c ∈ ·) (filter_isBracket_letters text)
  simpa [List.mem_filter, bracket] using same

end

theorem stripTagChars_append {plain : List Char} (absent : '<' ∉ plain) (rest : List Char) :
    stripTagChars (plain ++ rest) = plain ++ stripTagChars rest := by
  induction plain with
  | nil => rfl
  | cons c plain ih =>
    rw [List.mem_cons, not_or] at absent
    rw [List.cons_append, stripTagChars_char fun bracket => absurd bracket (Ne.symm absent.1), ih absent.2,
      List.cons_append]

/-- Letters may be compared before the tags are taken out or after. -/
theorem stripTagChars_letters (text : List Char) :
    stripTagChars (text.flatMap Text.letter) = (stripTagChars text).flatMap Text.letter := by
  have opening : Text.letter '<' = ['<'] := letter_of_isBracket (by decide)
  have closing : Text.letter '>' = ['>'] := letter_of_isBracket (by decide)
  fun_induction stripTagChars text with
  | case1 => rw [List.flatMap_nil, stripTagChars]
  | case2 rest after found ih =>
    obtain ⟨inner, absent, rfl⟩ := (afterClose?_eq_some_iff rest after).mp found
    have inside : '>' ∉ inner.flatMap Text.letter := (mem_letters_iff (by decide) inner).not.mpr absent
    rw [List.flatMap_cons, List.flatMap_append, List.flatMap_cons, opening, closing, List.singleton_append,
      List.singleton_append, stripTagChars_tag inside, ih]
  | case3 rest none ih =>
    have literal : '>' ∉ rest.flatMap Text.letter :=
      (mem_letters_iff (by decide) rest).not.mpr ((afterClose?_eq_none_iff rest).mp none)
    rw [List.flatMap_cons, List.flatMap_cons, opening, List.singleton_append, List.singleton_append,
      stripTagChars_char fun _ => literal, ih]
  | case4 c rest other ih =>
    have absent : '<' ∉ Text.letter c := fun member => other (Text.eq_of_mem_letter (by decide) member).symm
    rw [List.flatMap_cons, List.flatMap_cons, stripTagChars_append absent, ih]

end Compendium.Markup
