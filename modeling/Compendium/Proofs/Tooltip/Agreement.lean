import Compendium.Catalog.Script
import Compendium.Proofs.KeyValues.Tree
import Compendium.Proofs.Tooltip.Substitution

/-! The two ways of filling a description, from the attributes of a script and from the script itself, come to the same
text wherever both know all the names. -/

set_option autoImplicit false
namespace Compendium

/-- A null, or a table without a value, says nothing about its name. -/
def Document.IsUsable : Document → Prop
  | .null => False
  | .table members => (Members.at? members "value").isSome = true
  | _ => True

theorem TokenGrammar.Parts.filled_congr {parts : Parts} {first second : String → String}
    (same : ∀ name ∈ parts.names, first name = second name) : parts.filled first = parts.filled second := by
  rw [filled, filled, List.append_cancel_right_eq]
  apply List.flatMap_congr
  intro entry member
  rw [same entry.2 (List.mem_map_of_mem member)]

/-- A usable value has a content, and is shown as that. -/
theorem Document.IsUsable.exists_content {value : Document} (usable : value.IsUsable) :
    ∃ content, Lookup.usable? value = some content ∧ Resolver.textOf value = content.display := by
  rw [Resolver.textOf_eq_display]
  cases value with
  | null => exact usable.elim
  | table members =>
    obtain ⟨content, found⟩ := Option.isSome_iff_exists.mp usable
    refine ⟨content, found, ?_⟩
    rw [display, displayValue?_eq, found]
    rfl
  | bool _ => exact ⟨_, rfl, rfl⟩
  | number _ => exact ⟨_, rfl, rfl⟩
  | text _ => exact ⟨_, rfl, rfl⟩
  | list _ => exact ⟨_, rfl, rfl⟩

namespace AttributeList

theorem find?_append (first second : AttributeList) (key : String) :
    (first.append second).find? key = (first.find? key).or (second.find? key) := by
  simp [find?, append, List.findSome?_append]

theorem find?_ofTable (members : Members Document) (key : String) :
    (ofTable members).find? key = Members.at? members key := by
  rw [find?, ofTable, List.findSome?_map]
  induction members with
  | nil => rfl
  | cons entry rest ih =>
    obtain ⟨name, value⟩ := entry
    by_cases same : name = key
    · simp [single, Members.at?, same]
    · simp [single, Members.at?, same, ← ih]

end AttributeList

theorem Script.attributes_eq_ofTable {script : Document} {values : Members Document}
    (noSpecial : script.member? Lookup.specialTable = none)
    (table : script.member? Lookup.valueTable = some (.table values)) :
    Script.attributes script = AttributeList.ofTable values := by
  rw [attributes, noSpecial, table]
  rfl

theorem Resolver.find?_create {attributes : AttributeList} {name : String} {value : Document}
    (found : attributes.find? name = some value) (script : Document) (owner : String) :
    (create attributes script owner).find? name = some value := by
  simp [find?, create, AttributeList.find?_append, found]

namespace Lookup

/-- Where no two names are the same but for their letter case, a name is found as it is written. -/
theorem memberLike?_of_at? {values : Members Document} {key : String} {value : Document}
    (distinct : (values.map fun entry => Text.lower entry.1).Nodup) (found : Members.at? values key = some value) :
    memberLike? values key = some (key, value) := by
  induction values with
  | nil => cases found
  | cons entry rest ih =>
    obtain ⟨name, first⟩ := entry
    obtain ⟨fresh, distinct⟩ := List.nodup_cons.mp distinct
    by_cases same : name = key
    · subst same
      rw [Members.at?, if_pos rfl, Option.some.injEq] at found
      simp [memberLike?, found]
    · rw [Members.at?, if_neg same] at found
      have other : Text.lower name ≠ Text.lower key := by
        intro like
        exact fresh (List.mem_map.mpr ⟨(key, value), Members.mem_of_at? found, like.symm⟩)
      have later := ih distinct found
      rw [memberLike?] at later ⊢
      rw [List.find?_cons_of_neg (by simpa using other), later]

theorem find?_of_valueTable {script : Document} {values : Members Document}
    (table : script.member? valueTable = some (.table values))
    (distinct : (values.map fun entry => Text.lower entry.1).Nodup) {key : String} {value content : Document}
    (found : Members.at? values key = some value) (usable : usable? value = some content) :
    find? key script = some content := by
  obtain ⟨members, isTable, slot⟩ := Option.bind_eq_some_iff.mp table
  have inValues : inTable? key values = some content := by
    rw [inTable?, memberLike?_of_at? distinct found]
    exact usable
  have inner : (Document.table values).members? = some values := rfl
  rw [find?, isTable]
  simp [slot, inner, inValues]

end Lookup

/-- Filling a description from the attributes of a script, and from the script itself, is the same if every name is that
of a usable value in a value table whose names differ in more than their letter case. -/
theorem Resolver.resolveText_eq_lookup {script : Document} {values : Members Document} {template : String}
    {parts : TokenGrammar.Parts} (owner : String) (noSpecial : script.member? Lookup.specialTable = none)
    (table : script.member? Lookup.valueTable = some (.table values))
    (distinct : (values.map fun entry => Text.lower entry.1).Nodup)
    (tomeless : ¬ tomesToken.toList <:+: template.toList)
    (splits : TokenGrammar.anyName.Splits template.toList parts)
    (known : ∀ name ∈ parts.names, name = "" ∨ ∃ value, Members.at? values name = some value ∧ value.IsUsable) :
    ((Resolver.create (Script.attributes script) script owner).resolveText template).value =
      Lookup.resolve template script := by
  have same : ∀ name ∈ parts.names, (Resolver.create (Script.attributes script) script owner).shown name =
      if name = "" then "%" else Lookup.textOf name script := by
    intro name member
    rw [shown]
    split
    · rfl
    · next nonempty =>
      -- both find the value in the table: one by its name, the other by its name in some letter case
      obtain ⟨value, found, usable⟩ := (known name member).resolve_left nonempty
      obtain ⟨content, isContent, shows⟩ := usable.exists_content
      have listed : (Script.attributes script).find? name = some value := by
        rw [Script.attributes_eq_ofTable noSpecial table, AttributeList.find?_ofTable, found]
      rw [find?_create listed, Lookup.textOf, Lookup.find?_of_valueTable table distinct found isContent]
      exact shows
  obtain rfl := (TokenGrammar.splits_iff TokenGrammar.anyName_unmarked template parts).mp splits
  rw [value_resolveText, value_substitute, withoutTomes_eq tomeless, Lookup.resolve,
    TokenGrammar.fill_eq TokenGrammar.anyName_unmarked, TokenGrammar.Parts.filled_congr same]

/-- A list, a table whose value is null, one whose value is zero, and a percent sign. -/
theorem Resolver.resolveText_eq_lookup_shapes :
    let values : Members Document := [("dmg", .list [.integer 1, .table [("value", .text "2")]]),
      ("Radius", .table [("value", .null)]), ("chance", .table [("value", .integer 0)])]
    let script : Document := .table [("AbilityValues", .table values), ("chance", .text "9")]
    ((Resolver.create (Script.attributes script) script "nova").resolveText "%dmg% in %Radius%: %chance%%%").value =
      Lookup.resolve "%dmg% in %Radius%: %chance%%%" script := by
  intro values script
  generalize same : "%dmg% in %Radius%: %chance%%%" = template
  have names : (TokenGrammar.anyName.parts template).names = ["dmg", "Radius", "chance", ""] := by
    subst same
    cbv
  apply Resolver.resolveText_eq_lookup "nova" rfl rfl
  · decide
  · subst same
    decide
  · exact (TokenGrammar.splits_iff TokenGrammar.anyName_unmarked template _).mpr rfl
  · intro name member
    rw [names] at member
    simp only [List.mem_cons, List.not_mem_nil, or_false] at member
    rcases member with rfl | rfl | rfl | rfl
    · exact .inr ⟨_, rfl, trivial⟩
    · exact .inr ⟨_, rfl, rfl⟩
    · exact .inr ⟨_, rfl, rfl⟩
    · exact .inl rfl

end Compendium
