import Compendium.Catalog.Aghanim
import Compendium.Proofs.Text.Occurrence
import Compendium.Proofs.Tooltip.Leftover
import Mathlib

/-! How the tokens of an upgrade's description are filled. Each of them is looked for from the start of the text that is
already filled in part, so it is filled in its own place where its text stands nowhere before. -/

set_option autoImplicit false
namespace Compendium.Upgrade
open TokenGrammar

theorem nameToken_unmarked : nameToken.inName '%' = false := by
  decide

section
variable (values : List SpecialValue)

/-- A value has the name. -/
def Known (name : String) : Prop :=
  ∃ value ∈ values, value.name = name

instance decidableKnown (name : String) : Decidable (Known values name) :=
  inferInstanceAs (Decidable (∃ value ∈ values, value.name = name))

/-- What the first value of a name shows. -/
def filling? (name : String) : Option String :=
  (values.find? (·.name == name)).map SpecialValue.joined

/-- A token that no value has the name of stays as it is. -/
def shown (name : String) : String :=
  (filling? values name).getD ("%" ++ name ++ "%")

/-- The tokens as they stand in a description. -/
def kept (name : String) : String := "%" ++ name ++ "%"

/-- Every token of a known name is, in a text that is filled up to it, the first of its name. -/
def FirstInTurn (before : List Char) : List (List Char × String) → Prop
  | [] => True
  | (literal, name) :: rest =>
    (Known values name → Text.FirstBehind (written name) (before ++ literal)) ∧
      FirstInTurn (before ++ (literal ++ (shown values name).toList)) rest

end

variable {values : List SpecialValue}

theorem toList_kept (name : String) : (kept name).toList = written name := by
  simp [kept, written]

/-- One name filled in a text. -/
def fillChars (values : List SpecialValue) (text : List Char) (name : String) : List Char :=
  match filling? values name with
  | some value => Text.replaceFirstChars '%' (name.toList ++ ['%']) value.toList text
  | none => text

theorem toList_fillName (text name : String) :
    (fillName values text name).toList = fillChars values text.toList name := by
  have token : ("%" ++ name ++ "%").toList = '%' :: (name.toList ++ ['%']) := toList_kept name
  unfold fillName fillChars filling?
  cases values.find? (·.name == name) with
  | some value => simp only [Text.replaceFirst, token, Option.map_some, String.toList_ofList]
  | none => rfl

theorem toList_foldl_fillName (names : List String) (text : String) :
    (names.foldl (fillName values) text).toList = names.foldl (fillChars values) text.toList := by
  induction names generalizing text with
  | nil => rfl
  | cons name rest ih => simp only [List.foldl_cons, ih, toList_fillName]

theorem known_of_filling? {name value : String} (known : filling? values name = some value) : Known values name := by
  obtain ⟨found, same, -⟩ := Option.map_eq_some_iff.mp known
  exact ⟨found, List.mem_of_find?_eq_some same, by simpa using List.find?_some same⟩

theorem filling?_eq_none_iff {name : String} : filling? values name = none ↔ ¬ Known values name := by
  simp [filling?, Known]

theorem shown_of_filling? {name value : String} (known : filling? values name = some value) :
    shown values name = value := by
  simp only [shown, known, Option.getD_some]

theorem shown_of_unknown {name : String} (unknown : filling? values name = none) : shown values name = kept name := by
  simp only [shown, unknown, Option.getD_none, kept]

/-- A token that is the first of its name is filled where it stands. -/
theorem fillChars_token {before : List Char} {name : String}
    (first : Known values name → Text.FirstBehind (written name) before) (rest : List Char) :
    fillChars values (before ++ (written name ++ rest)) name = before ++ ((shown values name).toList ++ rest) := by
  cases known : filling? values name with
  | none => simp only [fillChars, known, shown_of_unknown known, toList_kept]
  | some value =>
    have behind := first (known_of_filling? known)
    have replaced : Text.replaceFirstChars '%' (name.toList ++ ['%']) value.toList (before ++ (written name ++ rest)) =
        before ++ (value.toList ++ rest) := Text.replaceFirstChars_append behind rest
    simpa [fillChars, known, shown_of_filling? known, written] using replaced

theorem filled_cons (text : String → String) (literal : List Char) (name : String) (tokens : List (List Char × String))
    (last : List Char) : Parts.filled text ⟨(literal, name) :: tokens, last⟩ =
      literal ++ ((text name).toList ++ Parts.filled text ⟨tokens, last⟩) := by
  simp [Parts.filled]

theorem foldl_fillChars_of_firstInTurn {tokens : List (List Char × String)} {before : List Char}
    (turn : FirstInTurn values before tokens) (last : List Char) :
    (tokens.map Prod.snd).foldl (fillChars values) (before ++ Parts.filled kept ⟨tokens, last⟩) =
      before ++ Parts.filled (shown values) ⟨tokens, last⟩ := by
  induction tokens generalizing before with
  | nil => rfl
  | cons token rest ih =>
    obtain ⟨literal, name⟩ := token
    have here := fillChars_token turn.1 (Parts.filled kept ⟨rest, last⟩)
    have later := ih turn.2
    simp only [List.append_assoc] at here later
    simp only [filled_cons, toList_kept, List.map_cons, List.foldl_cons, here, later]

/-- The text leaves the target at a place where the target has a percent sign and the text has none. -/
def Leaves (target text : List Char) : Prop :=
  ∃ front c, front ++ ['%'] <+: target ∧ front ++ [c] <+: text ∧ c ≠ '%'

theorem Leaves.ne {target text : List Char} (leaves : Leaves target text) : text ≠ target := by
  rintro rfl
  obtain ⟨front, c, percent, plain, other⟩ := leaves
  rcases Text.prefix_concat_cases percent plain with ⟨-, same⟩ | longer | longer
  · exact other same.symm
  · simpa using longer.length_le
  · simpa using longer.length_le

/-- A text that starts with something else than a percent sign. -/
def StartsPlain (text : String) : Prop :=
  ∃ c, [c] <+: text.toList ∧ c ≠ '%'

variable {before after target : List Char} {name value : String}

/-- A token that is filled before the place of the target's percent sign takes its own percent sign away. -/
theorem leaves_of_filled (plain : StartsPlain value) (percent : before ++ ['%'] <+: target) :
    Leaves target (before ++ (value.toList ++ after)) := by
  obtain ⟨c, ⟨shown, starts⟩, other⟩ := plain
  refine ⟨before, c, percent, ?_, other⟩
  simp [← starts]

/-- Where a text has left the target, filling more tokens does not bring it back. -/
theorem Leaves.fillChars {text : List Char} (leaves : Leaves target text)
    (plain : ∀ value, filling? values name = some value → StartsPlain value) :
    Leaves target (fillChars values text name) := by
  unfold Upgrade.fillChars
  cases known : filling? values name with
  | none => exact leaves
  | some value =>
    by_cases inside : '%' :: (name.toList ++ ['%']) <:+: text
    · obtain ⟨before, after, rfl, first⟩ := Text.exists_firstBehind inside
      obtain ⟨front, c, percent, left, other⟩ := leaves
      have sign : before ++ ['%'] <+: before ++ '%' :: (name.toList ++ ['%'] ++ after) := by simp
      simp only [Text.replaceFirstChars_append first]
      rcases Text.prefix_concat_cases left sign with ⟨-, same⟩ | earlier | earlier
      · exact absurd same other
      · exact ⟨front, c, percent, earlier.trans (List.prefix_append _ _), other⟩
      · have within : before ++ ['%'] <+: target := earlier.trans ((List.prefix_append _ _).trans percent)
        exact leaves_of_filled (plain value known) within
    · simp only [Text.replaceFirstChars_of_not_infix inside]
      exact leaves

theorem dropLast_written (name : String) : (written name).dropLast = '%' :: name.toList := by
  have whole : written name = ('%' :: name.toList) ++ ['%'] := rfl
  rw [whole, List.dropLast_concat]

/-- A token that is not the first of its name is not filled: an earlier text is that reads the same. -/
theorem leaves_of_not_firstBehind (known : filling? values name = some value) (plain : StartsPlain value)
    (sooner : ¬ Text.FirstBehind (written name) before) (reached : before <+: target) (rest : List Char) :
    Leaves target (fillChars values (before ++ (written name ++ rest)) name) := by
  simp only [Text.FirstBehind, not_not, dropLast_written] at sooner
  obtain ⟨front, after, same, first⟩ := Text.exists_firstBehind sooner
  have text : before ++ (written name ++ rest) =
      front ++ '%' :: (name.toList ++ ['%'] ++ (after ++ '%' :: rest)) := by
    have longer := congrArg (· ++ '%' :: rest) same
    simpa [written] using longer
  have sign : front ++ ['%'] <+: before := by
    have lengths := congrArg List.length same
    have start : front ++ ['%'] <+: before ++ '%' :: name.toList := by simp [same]
    simp only [List.length_append, List.length_cons] at lengths
    apply List.prefix_of_prefix_length_le start (List.prefix_append _ _)
    simp only [List.length_append, List.length_singleton]
    omega
  have filled : fillChars values (before ++ (written name ++ rest)) name =
      front ++ (value.toList ++ (after ++ '%' :: rest)) := by
    simp only [Upgrade.fillChars, known, text, Text.replaceFirstChars_append first]
  rw [filled]
  exact leaves_of_filled plain (sign.trans reached)

theorem Leaves.foldl_fillChars {text : List Char} {names : List String} (leaves : Leaves target text)
    (plain : ∀ name ∈ names, ∀ value, filling? values name = some value → StartsPlain value) :
    Leaves target (names.foldl (Upgrade.fillChars values) text) := by
  induction names generalizing text with
  | nil => exact leaves
  | cons name rest ih =>
    have here := leaves.fillChars (plain name List.mem_cons_self)
    exact ih here fun other member => plain other (List.mem_cons_of_mem _ member)

/-- Where every value can be told from a percent sign, tokens are filled in their places only if each is the first of its
name in its turn. -/
theorem firstInTurn_of_foldl_fillChars {tokens : List (List Char × String)} {last : List Char}
    (plain : ∀ name ∈ tokens.map Prod.snd, ∀ value, filling? values name = some value → StartsPlain value)
    (same : (tokens.map Prod.snd).foldl (Upgrade.fillChars values) (before ++ Parts.filled kept ⟨tokens, last⟩) =
      before ++ Parts.filled (shown values) ⟨tokens, last⟩) : FirstInTurn values before tokens := by
  induction tokens generalizing before with
  | nil => trivial
  | cons token rest ih =>
    obtain ⟨literal, name⟩ := token
    have later := fun other member => plain other (List.mem_cons_of_mem _ member)
    simp only [filled_cons, toList_kept, List.map_cons, List.foldl_cons] at same
    have first : Known values name → Text.FirstBehind (written name) (before ++ literal) := by
      intro known
      obtain ⟨value, found⟩ := Option.ne_none_iff_exists'.mp fun unknown => filling?_eq_none_iff.mp unknown known
      by_contra sooner
      -- the text has left the one that is filled in place, and the tokens that follow do not bring it back
      have reached : before ++ literal <+:
          before ++ (literal ++ ((shown values name).toList ++ Parts.filled (shown values) ⟨rest, last⟩)) := by simp
      have leaves := leaves_of_not_firstBehind found (plain name List.mem_cons_self value found) sooner reached
        (Parts.filled kept ⟨rest, last⟩)
      simp only [List.append_assoc] at leaves
      exact (leaves.foldl_fillChars later).ne same
    refine ⟨first, ih later ?_⟩
    have here := fillChars_token first (Parts.filled kept ⟨rest, last⟩)
    simp only [List.append_assoc] at here ⊢
    simpa only [here] using same

theorem filled_kept {text : List Char} {parts : Parts} (splits : nameToken.Splits text parts) :
    parts.filled kept = text := by
  induction splits with
  | last => rfl
  | @token literal rest name parts _ _ _ ih => simp only [filled_cons, toList_kept, ih]

section
variable {desc : String} {parts : Parts} (splits : nameToken.Splits (Text.replaceAll desc "%%" "%").toList parts)
include splits

theorem names_of_splits : nameToken.names (Text.replaceAll desc "%%" "%") = parts.names := by
  rw [names_eq nameToken_unmarked, (splits_iff nameToken_unmarked _ parts).mp splits]

theorem describe_of_tokens (told : values ≠ []) (tokens : parts.tokens ≠ []) :
    (describe desc values).toList = parts.names.foldl (fillChars values) (parts.filled kept) := by
  have full : values.isEmpty = false := List.isEmpty_eq_false_iff.mpr told
  have names := names_of_splits splits
  unfold describe
  simp only [full, Bool.false_eq_true, if_false, names]
  split
  · next none => exact absurd (List.map_eq_nil_iff.mp none) tokens
  · simp only [toList_foldl_fillName, filled_kept splits]

theorem describe_of_tokenless (told : values ≠ []) (tokenless : parts.tokens = []) :
    (describe desc values).toList = parts.last ++ (headed values).toList := by
  have full : values.isEmpty = false := List.isEmpty_eq_false_iff.mpr told
  have names : nameToken.names (Text.replaceAll desc "%%" "%") = [] := by
    rw [names_of_splits splits, Parts.names, tokenless, List.map_nil]
  have text := filled_kept splits
  simp only [Parts.filled, tokenless, List.flatMap_nil, List.nil_append] at text
  unfold describe
  simp only [full, Bool.false_eq_true, if_false, names, String.toList_append, text]

end

/-- A description is read in one way as tokens and literal texts. Where it has tokens and each of them is the first of its
name in its turn, they are filled in their places. Where no value is empty or starts with a percent sign, they are filled in
their places only then. -/
theorem describe_in_place (desc : String) {values : List SpecialValue} (told : values ≠ []) :
    ∃ parts, (∀ other, nameToken.Splits (Text.replaceAll desc "%%" "%").toList other ↔ other = parts) ∧
      (parts.tokens ≠ [] →
        (FirstInTurn values [] parts.tokens →
          describe desc values = String.ofList (parts.filled (shown values))) ∧
        ((∀ name ∈ parts.names, ∀ value, filling? values name = some value → StartsPlain value) →
          describe desc values = String.ofList (parts.filled (shown values)) →
          FirstInTurn values [] parts.tokens)) := by
  have reading := splits_iff nameToken_unmarked (Text.replaceAll desc "%%" "%")
  refine ⟨nameToken.parts (Text.replaceAll desc "%%" "%"), reading, fun tokens => ?_⟩
  have described := describe_of_tokens ((reading _).mpr rfl) told tokens
  constructor
  · intro turn
    have filled := foldl_fillChars_of_firstInTurn turn (nameToken.parts (Text.replaceAll desc "%%" "%")).last
    apply String.toList_injective
    rw [described, String.toList_ofList]
    exact filled
  · intro plain same
    rw [← String.toList_inj, described, String.toList_ofList] at same
    exact firstInTurn_of_foldl_fillChars plain same

/-- Two values, one of them told twice, with a token that has no value and a percent sign of its own between them. -/
theorem describe_in_place_bonus :
    let values : List SpecialValue := [⟨"bonus", "", [], [.integer 50, .integer 75]⟩, ⟨"slow", "", [], [.integer 20]⟩]
    let desc := "Deals %bonus% (%Other%), slows by %slow%%%, then %bonus%."
    values ≠ [] ∧ describe desc values = "Deals 50,75 (%Other%), slows by 20%, then 50,75." := by
  intro values desc
  have told : values ≠ [] := List.cons_ne_nil _ _
  obtain ⟨parts, only, filled⟩ := describe_in_place desc told
  have reading := (splits_iff nameToken_unmarked _ parts).mp ((only parts).mpr rfl)
  have cut : nameToken.parts (Text.replaceAll desc "%%" "%") =
      ⟨[("Deals ".toList, "bonus"), (" (".toList, "Other"), ("), slows by ".toList, "slow"),
        ("%, then ".toList, "bonus")], ['.']⟩ := by
    cbv
  rw [reading, cut] at filled
  have bonus : shown values "bonus" = "50,75" := by cbv
  have slow : shown values "slow" = "20" := by cbv
  have other : shown values "Other" = "%Other%" := by cbv
  have turn : FirstInTurn values [] [("Deals ".toList, "bonus"), (" (".toList, "Other"), ("), slows by ".toList, "slow"),
      ("%, then ".toList, "bonus")] := by
    simp only [FirstInTurn, bonus, slow, other, Text.FirstBehind]
    exact ⟨fun _ => by decide, fun _ => by decide, fun _ => by decide, fun _ => by decide, trivial⟩
  refine ⟨told, ((filled (List.cons_ne_nil _ _)).1 turn).trans ?_⟩
  cbv

/-- A token of an unknown name takes the percent sign of the next one, and that one is then filled in a later one's stead. -/
theorem describe_fills_shared_sign :
    let values : List SpecialValue := [⟨"damage", "", [], [.integer 100]⟩]
    let desc := "%slow%%damage% and %damage%"
    ¬ ∀ parts, nameToken.Splits (Text.replaceAll desc "%%" "%").toList parts → parts.tokens ≠ [] →
      describe desc values = String.ofList (parts.filled (shown values)) := by
  intro values desc inPlace
  have cut : nameToken.parts (Text.replaceAll desc "%%" "%") =
      ⟨[([], "slow"), ("damage% and ".toList, "damage")], []⟩ := by
    cbv
  have reading := (splits_iff nameToken_unmarked (Text.replaceAll desc "%%" "%") _).mpr cut.symm
  have same := inPlace _ reading (List.cons_ne_nil _ _)
  have described : describe desc values = "%slow100 and %damage%" := by cbv
  have filled : String.ofList (Parts.filled (shown values) ⟨[([], "slow"), ("damage% and ".toList, "damage")], []⟩) =
      "%slow%damage% and 100" := by
    cbv
  rw [described, filled] at same
  exact absurd same (by decide)

end Compendium.Upgrade
