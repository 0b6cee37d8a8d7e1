import Compendium.Proofs.Document.Members
import Compendium.Proofs.Text.LetterCase
import Compendium.Tooltip.Lookup

/-! Which value a script has under a name. Its tables are searched in a fixed order, and in each of them the first member
of that name counts, in whatever letter case it is written. A member that has no value to use hides nothing behind its
table. -/

set_option autoImplicit false
namespace Compendium.Lookup

/-- What a value holds: a table its `value` member, null nothing, and every other value itself. -/
inductive Holds : Document → Document → Prop where
  | itself {value : Document} : value ≠ .null → value.isTable = false → Holds value value
  | member {members : Members Document} {value : Document} :
      Members.at? members "value" = some value → Holds (.table members) value

/-- The first member of the name, in whatever letter case, holds the value. -/
def Gives (key : String) (table : Members Document) (value : Document) : Prop :=
  ∃ member, IsFirst (fun member => Text.lower member.1 = Text.lower key) table member ∧ Holds member.2 value

/-- The special slot itself if it is a table, then the tables in it. -/
def slotTables (slot : Document) : List (Members Document) :=
  slot.members?.toList ++ slot.innerTables

/-- All tables of a script in which names are looked up, in their order. -/
def tables (script : Members Document) : List (Members Document) :=
  ((Members.at? script valueTable).bind Document.members?).toList ++
    ((Members.at? script specialTable).toList.flatMap slotTables ++ [script])

/-- A name in another letter case: one with the same lower case, the lower case itself, or one in which only letters of
ASCII are changed. Names count as the same if their lower cases are. The upper case of a name is therefore another name if it
has a letter like µ, ß, ſ or ı, whose upper case has another lower case. -/
inductive Recased (key : String) : String → Prop where
  | alike {other : String} : Text.lower other = Text.lower key → Recased key other
  | lower : Recased key (Text.lower key)
  | ascii {other : String} : Text.eqIgnoringAsciiCase other.toList key.toList = true → Recased key other

theorem usable?_eq_some_iff (value content : Document) : usable? value = some content ↔ Holds value content := by
  constructor
  · intro found
    cases value with
    | null => cases found
    | table members => exact .member found
    | _ =>
      obtain rfl := Option.some.inj found
      exact .itself nofun rfl
  · intro holds
    cases holds with
    | member found => exact found
    | itself something scalar =>
      cases value with
      | null => exact absurd rfl something
      | table members => cases scalar
      | _ => rfl

theorem inTable?_eq_some_iff (key : String) (table : Members Document) (value : Document) :
    inTable? key table = some value ↔ Gives key table value := by
  simp only [inTable?, memberLike?, Option.bind_eq_some_iff, find?_eq_some_iff_isFirst, beq_iff_eq, usable?_eq_some_iff,
    Gives]

theorem inSpecial?_eq (key : String) (slot : Document) :
    inSpecial? key slot = (slotTables slot).findSome? (inTable? key) := by
  rw [slotTables, List.findSome?_append, findSome?_toList]
  cases slot <;> rfl

/-- Looking a name up is looking at the tables one after the other. -/
theorem find?_eq (key : String) (script : Members Document) :
    find? key (.table script) = (tables script).findSome? (inTable? key) := by
  have special : (fun slot => (slotTables slot).findSome? (inTable? key)) = inSpecial? key :=
    funext fun slot => (inSpecial?_eq key slot).symm
  rw [tables, List.findSome?_append, List.findSome?_append, findSome?_toList, findSome?_flatMap, special, findSome?_toList,
    List.findSome?_singleton]
  rfl

theorem Recased.lower_eq {key other : String} (recased : Recased key other) : Text.lower other = Text.lower key := by
  cases recased with
  | alike same => exact same
  | lower => exact Text.lower_lower key
  | ascii same => rw [Text.lower, Text.lower, Text.lowerFrom_congr ((Text.eqIgnoringAsciiCase_iff _ _).mp same) rfl]

theorem find?_congr {key other : String} (same : Text.lower other = Text.lower key) (script : Document) :
    find? other script = find? key script := by
  have tablewise : inTable? other = inTable? key := by
    funext table
    rw [inTable?, inTable?, memberLike?, memberLike?, same]
  cases script with
  | table members => rw [find?_eq, find?_eq, tablewise]
  | _ => rfl

/-- A script has the value that the first of its tables with one gives, and none if no table gives one. The letter case of
the name does not matter. -/
theorem find?_of_first_giving (key : String) (script : Members Document) :
    (∀ value, find? key (.table script) = some value ↔
      ∃ table, IsFirst (fun table => ∃ value, Gives key table value) (tables script) table ∧ Gives key table value) ∧
    (find? key (.table script) = none ↔ ∀ table ∈ tables script, ∀ value, ¬ Gives key table value) ∧
    ∀ other, Recased key other → find? other (.table script) = find? key (.table script) := by
  refine ⟨?_, ?_, ?_⟩
  · intro value
    simp only [find?_eq, findSome?_eq_some_iff_isFirst, Option.isSome_iff_exists, inTable?_eq_some_iff]
  · rw [find?_eq, List.findSome?_eq_none_iff]
    simp only [Option.eq_none_iff_forall_ne_some, ne_eq, inTable?_eq_some_iff]
  · intro other recased
    exact find?_congr recased.lower_eq (.table script)

/-- A table without a `value` hides the text behind it in its own table, but no value of a later one; nor does a null. -/
theorem find?_of_first_giving_nested :
    let script : Members Document := [("AbilityValues", .table [("Radius", .table [("bonus", .text "+50")]), ("radius", .text "9")]),
      ("AbilitySpecial", .table [("RADIUS", .null), ("02", .table [("rAdius", .table [("value", .text "300")])])]),
      ("radius", .text "1")]
    find? "radius" (.table script) = some (.text "300") ∧ find? "raDIUS" (.table script) = some (.text "300") := by
  intro script
  obtain ⟨found, -, same⟩ := find?_of_first_giving "radius" script
  have silent (table : Members Document) (nothing : inTable? "radius" table = none) (value : Document) :
      ¬ Gives "radius" table value := by
    rw [← inTable?_eq_some_iff, nothing]
    exact nofun
  have gives : Gives "radius" [("rAdius", .table [("value", .text "300")])] (.text "300") :=
    (inTable?_eq_some_iff _ _ _).mp rfl
  have here : find? "radius" (.table script) = some (.text "300") := by
    refine (found _).mpr ⟨_, ⟨[_, _], [script], rfl, ⟨_, gives⟩, ?_⟩, gives⟩
    rintro table member ⟨value, given⟩
    simp only [List.mem_cons, List.not_mem_nil, or_false] at member
    rcases member with rfl | rfl
    · exact silent _ rfl value given
    · exact silent _ rfl value given
  exact ⟨here, (same "raDIUS" (.ascii rfl)).trans here⟩

/-- The micro sign is found, but not by its upper case, whose lower case is another letter. -/
example : find? "\u00B5" (.table [("\u00B5", .text "1")]) = some (.text "1") ∧
    find? "\u039C" (.table [("\u00B5", .text "1")]) = none := by
  constructor <;> rfl

end Compendium.Lookup
