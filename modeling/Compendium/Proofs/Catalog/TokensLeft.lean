import Compendium.Proofs.Catalog.TokenFilling
import Compendium.Proofs.Text.Joining

/-! Which tokens are left in a filled description. None is that has the name of a value, as long as the names are made of
letters, the values show something else than letters, and no token without a value takes a percent sign of another one. -/

set_option autoImplicit false
namespace Compendium.Upgrade
open TokenGrammar

variable {values : List SpecialValue} {before rest : List Char}

theorem written_ne_nil (name : String) : written name ≠ [] :=
  List.cons_ne_nil _ _

/-- In front of the rest, no token starts that a value has the name of. -/
def Clear (values : List SpecialValue) (before rest : List Char) : Prop :=
  ∀ value ∈ values, ∀ tail, tail <:+ before → tail ≠ [] → ¬ written value.name <+: tail ++ rest

/-- No token without a value is followed by the rest of one with a value, which would share its percent sign. -/
def SharesNoSign (values : List SpecialValue) (last : List Char) : List (List Char × String) → Prop
  | [] => True
  | (_, name) :: rest =>
    (¬ Known values name →
      ∀ value ∈ values, ¬ value.name.toList ++ ['%'] <+: Parts.filled kept ⟨rest, last⟩) ∧
      SharesNoSign values last rest

/-- A value that cannot be taken for a part of a token. -/
structure StandsOut (text : String) : Prop where
  unmarked : '%' ∉ text.toList
  other : text.toList.all isNameChar = false

theorem Clear.nil (rest : List Char) : Clear values [] rest := by
  intro value _ tail suffix nonempty
  exact absurd (List.suffix_nil.mp suffix) nonempty

/-- The literal text before a token is passed over. -/
theorem Clear.literal {literal : List Char} (clear : Clear values before (literal ++ rest))
    (named : ∀ value ∈ values, nameToken.IsName value.name.toList)
    (free : ∀ tail, tail <:+ literal → tail ≠ [] → ¬ nameToken.StartsToken (tail ++ rest)) :
    Clear values (before ++ literal) rest := by
  intro value member tail suffix nonempty start
  rcases Text.suffix_append_cases suffix with inside | ⟨more, some, inside, rfl⟩
  · obtain ⟨after, same⟩ := start
    exact free tail inside nonempty ⟨value.name, after, named value member, same.symm⟩
  · rw [List.append_assoc] at start
    exact clear value member more inside some start

/-- A token is the first of its name where none starts before it. -/
theorem Clear.firstBehind {name : String} (clear : Clear values before (written name ++ rest)) {value : SpecialValue}
    (member : value ∈ values) (same : value.name = name) : Text.FirstBehind (written name) before := by
  subst same
  intro inside
  rw [dropLast_written] at inside
  rcases Text.infix_append_cases (written_ne_nil _) inside with ⟨tail, -, inside, start⟩ | ⟨more, some, inside, start⟩
  · have lengths := start.length_le.trans inside.length_le
    simp only [written, List.length_cons, List.length_append] at lengths
    omega
  · have shorter : more ++ '%' :: value.name.toList <+: more ++ (written value.name ++ rest) := by
      simp [written]
    exact clear value member more inside some (start.trans shorter)

/-- A name does not reach over a value that stands out. -/
theorem prefix_of_prefix_value {name front : List Char} {value : String} (named : nameToken.IsName name)
    (out : StandsOut value) (start : name ++ ['%'] <+: front ++ (value.toList ++ rest)) : name ++ ['%'] <+: front := by
  obtain ⟨c, member, other⟩ := List.all_eq_false.mp out.other
  obtain ⟨first, second, parted⟩ := List.append_of_mem member
  have unmarked := out.unmarked
  simp only [parted, List.mem_append, not_or] at unmarked
  have place : (front ++ first) ++ [c] <+: front ++ (value.toList ++ rest) := by simp [parted]
  rcases Text.prefix_concat_cases start place with ⟨-, rfl⟩ | within | beyond
  · exact absurd List.mem_cons_self unmarked.2
  · exact Text.prefix_of_prefix_append unmarked.1 within
  · have inName : nameToken.inName c = true := named.1 c (beyond.subset (by simp))
    exact absurd inName other

theorem percent_of_starts {name : String} {c : Char} {text : List Char} (start : written name <+: c :: text) :
    c = '%' ∧ name.toList ++ ['%'] <+: text := by
  obtain ⟨same, behind⟩ := List.cons_prefix_cons.mp start
  exact ⟨same.symm, behind⟩

theorem not_mem_of_isName {name : List Char} (named : nameToken.IsName name) : '%' ∉ name := by
  intro member
  exact absurd (named.1 '%' member) (by decide)

/-- A token that is filled by something that stands out leaves no other one. -/
theorem Clear.filled {name value : String} (clear : Clear values before (written name ++ rest))
    (named : ∀ value ∈ values, nameToken.IsName value.name.toList) (out : StandsOut value) :
    Clear values (before ++ value.toList) rest := by
  intro other member tail suffix nonempty start
  rcases Text.suffix_append_cases suffix with inside | ⟨more, some, inside, rfl⟩
  · obtain ⟨c, others, rfl⟩ := List.exists_cons_of_ne_nil nonempty
    obtain ⟨rfl, -⟩ := percent_of_starts start
    exact out.unmarked (inside.subset List.mem_cons_self)
  · obtain ⟨c, others, rfl⟩ := List.exists_cons_of_ne_nil some
    have text : c :: others ++ value.toList ++ rest = c :: (others ++ (value.toList ++ rest)) := by simp
    obtain ⟨rfl, behind⟩ := percent_of_starts (text ▸ start)
    have within := prefix_of_prefix_value (named other member) out behind
    have sooner : written other.name <+: '%' :: others := List.cons_prefix_cons.mpr ⟨rfl, within⟩
    exact clear other member _ inside some (sooner.trans (List.prefix_append _ _))

/-- Nor does a token without a value, if it shares no percent sign. -/
theorem Clear.unknown {name : String} (clear : Clear values before (written name ++ rest))
    (named : ∀ value ∈ values, nameToken.IsName value.name.toList) (isName : nameToken.IsName name.toList)
    (unknown : ¬ Known values name)
    (own : ∀ value ∈ values, ¬ value.name.toList ++ ['%'] <+: rest) :
    Clear values (before ++ written name) rest := by
  intro value member tail suffix nonempty start
  rcases Text.suffix_append_cases suffix with inside | ⟨more, some, inside, rfl⟩
  · obtain ⟨c, others, rfl⟩ := List.exists_cons_of_ne_nil nonempty
    obtain ⟨rfl, behind⟩ := percent_of_starts start
    rcases List.suffix_cons_iff.mp inside with whole | later
    · -- tokens that start at one place have one name
      rw [(List.cons.inj whole).2] at behind
      have place : name.toList ++ ['%'] <+: name.toList ++ ['%'] ++ rest := List.prefix_append _ _
      rcases Text.prefix_concat_cases behind place with ⟨same, -⟩ | within | within
      · exact unknown ⟨value, member, String.toList_injective same⟩
      · exact not_mem_of_isName isName (within.subset (by simp))
      · exact not_mem_of_isName (named value member) (within.subset (by simp))
    · rcases Text.suffix_append_cases later with sign | ⟨more, some, within, same⟩
      · have alone : others = [] := by
          have short := sign.length_le
          simpa using short
        subst alone
        exact own value member behind
      · obtain ⟨d, front, rfl⟩ := List.exists_cons_of_ne_nil some
        obtain ⟨rfl, -⟩ := List.cons.inj same
        exact not_mem_of_isName isName (within.subset List.mem_cons_self)
  · rw [List.append_assoc] at start
    exact clear value member more inside some start

theorem Splits.clear {text : List Char} {parts : Parts} (splits : nameToken.Splits text parts)
    (clear : Clear values before text) (named : ∀ value ∈ values, nameToken.IsName value.name.toList)
    (out : ∀ name ∈ parts.names, ∀ value, filling? values name = some value → StandsOut value)
    (own : SharesNoSign values parts.last parts.tokens) :
    FirstInTurn values before parts.tokens ∧
      ∀ value ∈ values, ¬ written value.name <:+: before ++ parts.filled (shown values) := by
  induction splits generalizing before with
  | @last text free =>
    refine ⟨trivial, fun value member inside => ?_⟩
    rcases Text.infix_append_cases (written_ne_nil _) inside with
      ⟨tail, nonempty, within, start⟩ | ⟨more, some, within, start⟩
    · obtain ⟨after, same⟩ := start
      exact free tail within ⟨value.name, after, named value member, same.symm⟩
    · exact clear value member more within some start
  | @token literal rest name parts isName free later ih =>
    have passed := clear.literal named free
    have behind : Clear values (before ++ literal ++ (shown values name).toList) rest := by
      cases known : filling? values name with
      | some value =>
        rw [shown_of_filling? known]
        exact passed.filled named (out name List.mem_cons_self value known)
      | none =>
        rw [shown_of_unknown known, toList_kept]
        have unknown := filling?_eq_none_iff.mp known
        have apart := own.1 unknown
        rw [filled_kept later] at apart
        exact passed.unknown named isName unknown apart
    obtain ⟨turn, none⟩ := ih behind (fun other member => out other (List.mem_cons_of_mem _ member)) own.2
    simp only [List.append_assoc] at turn none
    refine ⟨⟨fun known => ?_, turn⟩, ?_⟩
    · obtain ⟨value, member, same⟩ := known
      exact passed.firstBehind member same
    · simpa only [filled_cons] using none

theorem not_mem_headed (plain : ∀ value ∈ values, '%' ∉ value.heading.toList ∧ '%' ∉ value.joined.toList) :
    '%' ∉ (headed values).toList := by
  apply Text.not_mem_join (by decide)
  intro piece member
  obtain ⟨value, kept, rfl⟩ := List.mem_map.mp member
  have absent := plain value (List.mem_of_mem_filter kept)
  simpa only [String.toList_append, List.mem_append, not_or] using absent

/-- Behind a text without tokens, a text without percent signs makes none. -/
theorem infix_of_infix_append {front back : List Char} {name : String} (absent : '%' ∉ back)
    (inside : written name <:+: front ++ back) : written name <:+: front := by
  rcases Text.infix_append_cases (written_ne_nil _) inside with
    ⟨tail, nonempty, within, start⟩ | ⟨more, some, within, start⟩
  · obtain ⟨c, others, rfl⟩ := List.exists_cons_of_ne_nil nonempty
    obtain ⟨rfl, -⟩ := percent_of_starts start
    exact absurd (within.subset List.mem_cons_self) absent
  · have starts : ('%' :: name.toList) ++ ['%'] <+: more ++ back := start
    have shorter := Text.prefix_of_prefix_append absent starts
    exact (Text.infix_iff_starts (written_ne_nil _)).mpr ⟨more, some, within, shorter⟩

/-- No token that a value has the name of is left in a description, if every value has a name of letters and shows no percent
sign, those that fill tokens show something else than letters too, no token without a value shares its percent sign with one
that has a value, and no heading with a percent sign is put behind a description without tokens. -/
theorem not_left_describe (desc : String) {values : List SpecialValue} {parts : Parts}
    (splits : nameToken.Splits (Text.replaceAll desc "%%" "%").toList parts)
    (named : ∀ value ∈ values, value.name ≠ "" ∧ value.name.toList.all isNameChar = true)
    (unmarked : ∀ value ∈ values, '%' ∉ value.joined.toList)
    (out : ∀ value ∈ values, value.name ∈ parts.names → value.joined.toList.all isNameChar = false)
    (own : SharesNoSign values parts.last parts.tokens)
    (headings : parts.tokens = [] → ∀ value ∈ values, '%' ∉ value.heading.toList) :
    ∀ value ∈ values, ¬ written value.name <:+: (describe desc values).toList := by
  intro value member
  have told : values ≠ [] := List.ne_nil_of_mem member
  have isName : ∀ value ∈ values, nameToken.IsName value.name.toList := by
    intro value member
    obtain ⟨nonempty, letters⟩ := named value member
    exact ⟨List.all_eq_true.mp letters, fun empty => absurd (String.toList_eq_nil_iff.mp empty) nonempty⟩
  have standsOut : ∀ name ∈ parts.names, ∀ text, filling? values name = some text → StandsOut text := by
    intro name used text known
    obtain ⟨first, found, rfl⟩ := Option.map_eq_some_iff.mp known
    have inside := List.mem_of_find?_eq_some found
    have same : first.name = name := by simpa using List.find?_some found
    exact ⟨unmarked first inside, out first inside (same ▸ used)⟩
  obtain ⟨turn, none⟩ := Splits.clear splits (Clear.nil _) isName standsOut own
  by_cases tokenless : parts.tokens = []
  · have plain := fun other inside => And.intro (headings tokenless other inside) (unmarked other inside)
    have text : [] ++ parts.filled (shown values) = parts.last := by simp [Parts.filled, tokenless]
    intro left
    rw [describe_of_tokenless splits told tokenless] at left
    exact none value member (text ▸ infix_of_infix_append (not_mem_headed plain) left)
  · rw [describe_of_tokens splits told tokenless]
    have filled := foldl_fillChars_of_firstInTurn turn parts.last
    simp only [List.nil_append] at filled none
    rw [Parts.names, filled]
    exact none value member

/-- A token without a value, a percent sign of its own, and a value without a token. -/
theorem not_left_describe_bonus :
    let values : List SpecialValue := [⟨"bonus", "%", [], [.integer 50, .integer 75]⟩, ⟨"unused", "", [], []⟩]
    ∀ value ∈ values, ¬ written value.name <:+: (describe "%Other%%) by %bonus%%%." values).toList := by
  intro values
  have cut : nameToken.parts (Text.replaceAll "%Other%%) by %bonus%%%." "%%" "%") =
      ⟨[([], "Other"), (") by ".toList, "bonus")], "%.".toList⟩ := by
    cbv
  have reading := (splits_iff nameToken_unmarked _ _).mpr cut.symm
  have bonus : SpecialValue.joined ⟨"bonus", "%", [], [.integer 50, .integer 75]⟩ = "50,75" := by cbv
  have unused : SpecialValue.joined ⟨"unused", "", [], []⟩ = "" := by cbv
  refine not_left_describe _ reading ?_ ?_ ?_ ?_ ?_
  · decide
  · simp only [values, List.forall_mem_cons, bonus, unused]
    decide
  · simp only [values, List.forall_mem_cons, bonus, unused, Parts.names]
    decide
  · simp only [SharesNoSign, values]
    exact ⟨by decide, by decide, trivial⟩
  · exact fun none => absurd none (List.cons_ne_nil _ _)

/-- A name with a digit is not taken for that of a token, so what it stands for is not filled in. -/
theorem describe_leaves_digit_name :
    let values : List SpecialValue := [⟨"slow_2", "", [], [.integer 5]⟩]
    (∀ value ∈ values, value.name ≠ "" ∧ '%' ∉ value.name.toList ∧ ' ' ∉ value.name.toList ∧ '%' ∉ value.joined.toList) ∧
      ¬ ∀ value ∈ values, ¬ written value.name <:+: (describe "Slows by %slow_2%." values).toList := by
  intro values
  have joined : SpecialValue.joined ⟨"slow_2", "", [], [.integer 5]⟩ = "5" := by cbv
  have described : describe "Slows by %slow_2%." values = "Slows by %slow_2%." := by cbv
  constructor
  · simp only [values, List.forall_mem_singleton, joined]
    decide
  · intro none
    have left := none _ List.mem_cons_self
    rw [described] at left
    exact left ⟨"Slows by ".toList, ['.'], by decide⟩

end Compendium.Upgrade
