import Compendium.Proofs.Text.Joining
import Compendium.Proofs.Tooltip.Agreement

/-! Where the value of a token comes from. A name can be read in up to three ways, and each of these keys is looked up
in the given records before the fields of the script: what is found first is shown. -/

set_option autoImplicit false
namespace Compendium.Resolver

/-- The value that a script field comes to. A text with spaces holds one value for each level. -/
inductive FieldValue : Document → Document → Prop where
  | number (value : Number) : FieldValue (.number value) (.number value)
  | single {text : String} : ' ' ∉ text.toList → FieldValue (.text text) (Document.ofFreeText text)
  | levels {text : String} : ' ' ∈ text.toList →
      FieldValue (.text text) (.list ((Text.splitOn text " ").map Document.ofFreeText))

inductive Source where
  | record
  | field
  deriving DecidableEq, Repr

/-- What a key stands for among the given records, and among the fields of the script. -/
inductive Gives (attributes : AttributeList) (script : Document) : Source → String → Document → Prop where
  | record {before after : List AttributeRecord} {record : AttributeRecord} {key : String} {value : Document} :
      attributes.records = before ++ record :: after → Members.at? record key = some value →
      (∀ earlier ∈ before, Members.at? earlier key = none) → Gives attributes script .record key value
  | field {field : String × Option String} {key : String} {raw value : Document} : field ∈ fields →
      Text.lower field.1 = key ∨ field.2 = some key → script.member? field.1 = some raw → FieldValue raw value →
      Gives attributes script .field key value

/-- The keys that a name is looked up by: as it is written, without a `d` in front, and its synonym. -/
def keys (name : String) : List String :=
  name :: ((Text.dropStart? "d" name).toList ++ (Members.at? synonyms name).toList)

def places (name : String) : List (Source × String) :=
  (keys name).flatMap fun key => [(.record, key), (.field, key)]

/-- The value from the first place that gives one. -/
def Means (attributes : AttributeList) (script : Document) (name : String) (value : Document) : Prop :=
  ∃ before source key after, places name = before ++ (source, key) :: after ∧ Gives attributes script source key value ∧
    ∀ place ∈ before, ∀ other, ¬ Gives attributes script place.1 place.2 other

theorem splitOn_of_spaceless {text : String} (spaceless : ' ' ∉ text.toList) : Text.splitOn text " " = [text] := by
  have split : Text.splitOn text " " = (Text.splitChars ' ' [] text.toList).map String.ofList := rfl
  rw [split, Text.splitChars_of_not_mem List.mem_cons_self spaceless, List.map_singleton, String.ofList_toList]

theorem one_lt_length_splitOn_space {text : String} (spaced : ' ' ∈ text.toList) :
    1 < (Text.splitOn text " ").length := by
  have split : Text.splitOn text " " = (Text.splitChars ' ' [] text.toList).map String.ofList := rfl
  obtain ⟨before, after, same⟩ := List.append_of_mem spaced
  have first := List.length_pos_iff.mpr (@Text.splitChars_ne_nil ' ' [] before)
  have second := List.length_pos_iff.mpr (@Text.splitChars_ne_nil ' ' [] after)
  rw [split, List.length_map, same, Text.splitChars_mark_append, List.length_append]
  omega

theorem fieldValue?_of_spaceless {text : String} (spaceless : ' ' ∉ text.toList) :
    fieldValue? (.text text) = some (Document.ofFreeText text) := by
  rw [fieldValue?, splitOn_of_spaceless spaceless]
  rfl

theorem fieldValue?_of_spaced {text : String} (spaced : ' ' ∈ text.toList) :
    fieldValue? (.text text) = some (.list ((Text.splitOn text " ").map Document.ofFreeText)) := by
  have several := one_lt_length_splitOn_space spaced
  rw [fieldValue?]
  split
  · next value same =>
    have single := congrArg List.length same
    rw [List.length_map, List.length_singleton] at single
    omega
  · rfl

theorem fieldValue?_eq_some_iff (raw value : Document) : fieldValue? raw = some value ↔ FieldValue raw value := by
  constructor
  · intro found
    cases raw with
    | text text =>
      by_cases spaced : ' ' ∈ text.toList
      · obtain rfl := Option.some.inj ((fieldValue?_of_spaced spaced).symm.trans found)
        exact .levels spaced
      · obtain rfl := Option.some.inj ((fieldValue?_of_spaceless spaced).symm.trans found)
        exact .single spaced
    | number number =>
      obtain rfl := Option.some.inj found
      exact .number number
    | _ => cases found
  · intro isValue
    cases isValue with
    | number => rfl
    | single spaceless => exact fieldValue?_of_spaceless spaceless
    | levels spaced => exact fieldValue?_of_spaced spaced

/-- The names that a script field goes by. -/
def fieldNames (field : String × Option String) : List String :=
  Text.lower field.1 :: field.2.toList

theorem nodup_fieldNames : (fields.flatMap fieldNames).Nodup := by
  decide +kernel

/-- What a script field contributes, under its names. -/
def fieldMembers (script : Document) (field : String × Option String) : Members Document :=
  ((script.member? field.1).bind fieldValue?).toList.flatMap fun value =>
    (fieldNames field).map fun name => (name, value)

section
variable (script : Document)

theorem fieldRecords_eq (field : String × Option String) :
    fieldRecords script field = (fieldMembers script field).map fun entry => AttributeList.single entry.1 entry.2 := by
  rw [fieldRecords, fieldMembers]
  cases (script.member? field.1).bind fieldValue? with
  | none => rfl
  | some value => simp [fieldNames, Option.toList_map]

theorem scriptAttributes_eq_ofTable :
    scriptAttributes script = AttributeList.ofTable (fields.flatMap (fieldMembers script)) := by
  rw [scriptAttributes, AttributeList.ofTable, List.map_flatMap, funext (fieldRecords_eq script)]

theorem mem_fieldMembers_iff (field : String × Option String) (key : String) (value : Document) :
    (key, value) ∈ fieldMembers script field ↔
      key ∈ fieldNames field ∧ ∃ raw, script.member? field.1 = some raw ∧ FieldValue raw value := by
  simp only [fieldMembers, List.mem_flatMap, Option.mem_toList, Option.bind_eq_some_iff, List.mem_map,
    Prod.mk.injEq, fieldValue?_eq_some_iff]
  constructor
  · rintro ⟨_, present, name, names, rfl, rfl⟩
    exact ⟨names, present⟩
  · rintro ⟨names, present⟩
    exact ⟨value, present, key, names, rfl, rfl⟩

theorem names_fieldMembers_sublist (entries : List (String × Option String)) :
    (Members.names (entries.flatMap (fieldMembers script))).Sublist (entries.flatMap fieldNames) := by
  induction entries with
  | nil => exact List.Sublist.refl _
  | cons field rest ih =>
    have here : (Members.names (fieldMembers script field)).Sublist (fieldNames field) := by
      rw [fieldMembers]
      cases (script.member? field.1).bind fieldValue? with
      | none => exact List.nil_sublist _
      | some value => simp [Members.names, Function.comp_def]
    rw [List.flatMap_cons, List.flatMap_cons, Members.names, List.map_append]
    exact here.append ih

/-- No two fields share a name, so that at most one of them says what a key stands for. -/
theorem distinct_fieldMembers : Members.Distinct (fields.flatMap (fieldMembers script)) :=
  nodup_fieldNames.sublist (names_fieldMembers_sublist script fields)

theorem find?_scriptAttributes_iff (key : String) (value : Document) :
    (scriptAttributes script).find? key = some value ↔
      ∃ field ∈ fields, key ∈ fieldNames field ∧ ∃ raw, script.member? field.1 = some raw ∧ FieldValue raw value := by
  rw [scriptAttributes_eq_ofTable, AttributeList.find?_ofTable, Members.at?_eq_some_iff (distinct_fieldMembers script),
    List.mem_flatMap]
  simp only [mem_fieldMembers_iff]

end

/-- Where a key is looked up. -/
def lookUp (attributes : AttributeList) (script : Document) (place : Source × String) : Option Document :=
  match place.1 with
  | .record => attributes.find? place.2
  | .field => (scriptAttributes script).find? place.2

theorem gives_iff (attributes : AttributeList) (script : Document) (place : Source × String) (value : Document) :
    Gives attributes script place.1 place.2 value ↔ lookUp attributes script place = some value := by
  obtain ⟨source, key⟩ := place
  cases source with
  | record =>
    rw [lookUp, AttributeList.find?, List.findSome?_eq_some_iff]
    constructor
    · rintro ⟨split, here, silent⟩
      exact ⟨_, _, _, split, here, silent⟩
    · rintro ⟨before, record, after, split, here, silent⟩
      exact .record split here silent
  | field =>
    rw [lookUp, find?_scriptAttributes_iff]
    constructor
    · rintro (_ | ⟨member, named, present, isValue⟩)
      exact ⟨_, member, by simpa [fieldNames, eq_comm] using named, _, present, isValue⟩
    · rintro ⟨field, member, named, raw, present, isValue⟩
      exact .field member (by simpa [fieldNames, eq_comm] using named) present isValue

/-- Looking a name up is looking at its places one after the other. -/
theorem find?_create_eq (attributes : AttributeList) (script : Document) (owner name : String) :
    (create attributes script owner).find? name = (places name).findSome? (lookUp attributes script) := by
  -- the list of a resolver has the given records before those of the script
  have pair : (fun key => [(Source.record, key), (.field, key)].findSome? (lookUp attributes script)) =
      (create attributes script owner).attributes.find? := by
    funext key
    rw [create, AttributeList.find?_append, List.findSome?_cons, List.findSome?_singleton, lookUp, lookUp]
    cases attributes.find? key <;> rfl
  rw [places, findSome?_flatMap, pair, keys, List.findSome?_cons, List.findSome?_append, findSome?_toList,
    findSome?_toList, find?]
  cases (create attributes script owner).attributes.find? name <;> rfl

theorem means_iff (attributes : AttributeList) (script : Document) (owner name : String) (value : Document) :
    Means attributes script name value ↔ (create attributes script owner).find? name = some value := by
  rw [find?_create_eq, List.findSome?_eq_some_iff, Means]
  constructor
  · rintro ⟨before, source, key, after, split, gives, silent⟩
    refine ⟨before, (source, key), after, split, (gives_iff _ _ (source, key) value).mp gives, ?_⟩
    intro place member
    rw [Option.eq_none_iff_forall_ne_some]
    exact fun other found => silent place member other ((gives_iff _ _ place other).mpr found)
  · rintro ⟨before, ⟨source, key⟩, after, split, here, silent⟩
    refine ⟨before, source, key, after, split, (gives_iff _ _ (source, key) value).mpr here, ?_⟩
    intro place member other gives
    rw [gives_iff, silent place member] at gives
    cases gives

theorem find?_create_eq_none {attributes : AttributeList} {script : Document} {name : String}
    (none : ∀ key ∈ keys name, ∀ source value, ¬ Gives attributes script source key value) (owner : String) :
    (create attributes script owner).find? name = .none := by
  rw [find?_create_eq, List.findSome?_eq_none_iff]
  rintro ⟨source, key⟩ member
  obtain ⟨other, isKey, here⟩ := List.mem_flatMap.mp member
  obtain rfl : key = other := by
    simp only [List.mem_cons, Prod.mk.injEq, List.not_mem_nil, or_false] at here
    rcases here with ⟨-, same⟩ | ⟨-, same⟩ <;> exact same
  rw [Option.eq_none_iff_forall_ne_some]
  exact fun value found => none key isKey source value ((gives_iff _ _ (source, key) value).mpr found)

section
variable {name : String} (allowed : ∀ c ∈ name.toList, c ≠ '%' ∧ c ≠ ' ')

include allowed in
theorem isName_of_allowed : TokenGrammar.anyName.IsName name.toList := by
  refine ⟨?_, fun _ => rfl⟩
  intro c member
  simpa [TokenGrammar.anyName] using allowed c member

theorem toList_percents (name : String) : ("%" ++ name ++ "%").toList = TokenGrammar.written name := by
  simp [TokenGrammar.written]

include allowed in
theorem tomeless_token (tomeless : name ≠ "customval_team_tomes_used") :
    ¬ tomesToken.toList <:+: ("%" ++ name ++ "%").toList := by
  have tomes : tomesToken.toList = TokenGrammar.written "customval_team_tomes_used" := by decide
  rw [toList_percents, tomes, TokenGrammar.written, TokenGrammar.written]
  rintro ⟨before, after, same⟩
  cases before with
  | nil =>
    -- a name ends at the next percent sign, so that it would be the name of the tomes
    rw [List.nil_append, List.cons_append, List.cons.injEq, List.append_assoc] at same
    have isName : TokenGrammar.anyName.IsName "customval_team_tomes_used".toList :=
      ⟨List.all_eq_true.mp (by decide), fun _ => rfl⟩
    have first := TokenGrammar.token?_append TokenGrammar.anyName_unmarked isName after
    have second := TokenGrammar.token?_append TokenGrammar.anyName_unmarked (isName_of_allowed allowed) []
    rw [← same.2, List.singleton_append, first, Option.some.injEq, Prod.mk.injEq] at second
    exact tomeless (String.toList_inj.mp second.1).symm
  | cons c before =>
    -- the two percent signs of the tomes would be behind the first one, where there is one left
    rw [List.cons_append, List.cons_append, List.cons.injEq] at same
    have percents := congrArg (List.count '%') same.2
    have unmarked : name.toList.count '%' = 0 := List.count_eq_zero.mpr fun member => (allowed '%' member).1 rfl
    simp only [List.count_append, List.count_cons_self, unmarked, List.count_nil] at percents
    omega

include allowed in
theorem substitute_token (tomeless : name ≠ "customval_team_tomes_used") (resolver : Resolver) :
    (resolver.substitute ("%" ++ name ++ "%")).value = resolver.shown name := by
  have nothing : TokenGrammar.anyName.Splits [] ⟨[], []⟩ := by
    apply TokenGrammar.Splits.last
    rintro rest suffix ⟨other, after, -, same⟩
    rw [List.suffix_nil.mp suffix] at same
    cases same
  have splits := nothing.written (isName_of_allowed allowed)
  rw [List.append_nil, ← toList_percents, TokenGrammar.splits_iff TokenGrammar.anyName_unmarked] at splits
  rw [value_substitute, withoutTomes_eq (tomeless_token allowed tomeless), ← splits]
  simp [TokenGrammar.Parts.filled]

end

/-- A token shows what the first place that knows one of its keys has for it, and stays as it is if there is none. The
given records are never hidden by the script. -/
theorem substitute_by_precedence (attributes : AttributeList) (script : Document) (owner : String) {name : String}
    (nonempty : name ≠ "") (allowed : ∀ c ∈ name.toList, c ≠ '%' ∧ c ≠ ' ')
    (tomeless : name ≠ "customval_team_tomes_used") :
    (∀ template parts, TokenGrammar.anyName.Splits (withoutTomes template).toList parts →
      ((create attributes script owner).substitute template).value =
        String.ofList (parts.filled (create attributes script owner).shown)) ∧
    ((create attributes script owner).substitute ("%" ++ name ++ "%")).value =
      (create attributes script owner).shown name ∧
    (∀ value, Means attributes script name value → (create attributes script owner).shown name = value.display) ∧
    ((∀ key ∈ keys name, ∀ source value, ¬ Gives attributes script source key value) →
      (create attributes script owner).shown name = "%" ++ name ++ "%") ∧
    ∀ key value, Gives attributes script .record key value →
      (create attributes script owner).attributes.find? key = some value := by
  refine ⟨?_, substitute_token allowed tomeless _, ?_, ?_, ?_⟩
  · intro template parts splits
    rw [value_substitute, (TokenGrammar.splits_iff TokenGrammar.anyName_unmarked _ _).mp splits]
  · intro value means
    rw [shown, if_neg nonempty, (means_iff _ _ owner _ _).mp means]
    exact textOf_eq_display value
  · intro none
    rw [shown, if_neg nonempty, find?_create_eq_none none]
  · intro key value gives
    have found : attributes.find? key = some value := (gives_iff attributes script (.record, key) value).mp gives
    rw [create, AttributeList.find?_append, found]
    rfl

/-- The second name of a script field, with a `d` in front, where no record has either. -/
theorem substitute_by_precedence_charges :
    let attributes : AttributeList := ⟨[[("abilitycharges", .integer 1)]]⟩
    let script : Document := .table [("AbilityCharges", .text "3s 4s")]
    Means attributes script "dmax_charges" (.list [.text "3s", .text "4s"]) ∧
      ((create attributes script "nova").substitute "%dmax_charges%").value = "3s,4s" := by
  intro attributes script
  have means : Means attributes script "dmax_charges" (.list [.text "3s", .text "4s"]) :=
    (means_iff attributes script "nova" _ _).mpr (by cbv)
  have allowed : ∀ c ∈ "dmax_charges".toList, c ≠ '%' ∧ c ≠ ' ' := by
    have plain : ("dmax_charges".toList.all fun c => c ≠ '%' && c ≠ ' ') = true := by decide
    intro c member
    simpa using List.all_eq_true.mp plain c member
  obtain ⟨-, single, shows, -⟩ := substitute_by_precedence attributes script "nova"
    (by decide : "dmax_charges" ≠ "") allowed (by decide)
  have percents : "%" ++ "dmax_charges" ++ "%" = "%dmax_charges%" := by decide
  rw [percents, shows _ means] at single
  refine ⟨means, single.trans ?_⟩
  cbv

end Compendium.Resolver
