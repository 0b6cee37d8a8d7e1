import Compendium.Catalog.Item
import Compendium.Proofs.Document.Members
import Compendium.Proofs.Tooltip.Sorting
import Compendium.Proofs.Tooltip.Substitution

/-! Items and the scripts that tell what they are made of. Scripts are gone through twice: at first they make the items,
then the recipes among them complete these. -/

set_option autoImplicit false
namespace Compendium

namespace Notice

def isUnknownTarget : Notice → Bool
  | .unknownTarget _ _ => true
  | _ => false

end Notice

namespace ItemText

theorem not_isUnknownTarget_ofLines (lines : List String) (script : Document) :
    ∀ notice ∈ (ofLines lines script).notices, notice.isUnknownTarget = false := by
  intro notice member
  rw [ofLines_eq, List.mem_flatMap] at member
  obtain ⟨line, -, told⟩ := member
  cases read : readLine script line with
  | malformed =>
    rw [read, LineReading.notices, List.mem_singleton] at told
    rw [told]
    rfl
  | hint text => simp [read, LineReading.notices] at told
  | entry kind content => simp [read, LineReading.notices] at told

end ItemText

namespace Resolver

theorem not_isUnknownTarget_resolveItem (resolver : Resolver) (template : String) :
    ∀ notice ∈ (resolver.resolveItem template).notices, notice.isUnknownTarget = false := by
  intro notice member
  rw [resolveItem, Report.notices_bind, List.mem_append] at member
  rcases member with unresolved | malformed
  · rw [notices_substitute, List.mem_map] at unresolved
    obtain ⟨name, -, rfl⟩ := unresolved
    rfl
  · exact ItemText.not_isUnknownTarget_ofLines _ _ notice malformed

end Resolver

theorem NeutralTier.not_isUnknownTarget_ofDocument (neutrals : Document) :
    ∀ notice ∈ (ofDocument neutrals).notices, notice.isUnknownTarget = false := by
  apply Report.forall_notices_foldlM
  intro tiers entry notice told
  rw [addBlock] at told
  cases read : read? entry.1 with
  | none =>
    simp only [read, bind_pure_comp, Report.notices_map, Report.tell, List.mem_singleton] at told
    rw [told]
    rfl
  | some tier => simp [read] at told

namespace Item

section
variable (strings : StringTable) (tiers : Members Nat)

/-- Whether a script makes an item. -/
def isKept (entry : String × Document) : Bool :=
  entry.1 != Script.versionKey && !isFreeRecipe entry.1 entry.2

/-- The item that a script makes, before recipes are looked at. -/
def made (entry : String × Document) : Report Item :=
  ofScript strings strings.stripMarkup tiers entry.1 entry.2

/-- The description of an item as it is sorted; an item without one has an empty text. -/
def textOf (entry : String × Document) : Report ItemText :=
  match strings.get? (StringTable.tooltipStart ++ entry.1 ++ "_Description") with
  | some template => (Resolver.create (Script.attributes entry.2) entry.2 entry.1).resolveItem template
  | none => pure ItemText.empty

/-- Making an item tells what sorting its description tells, and nothing of recipes is known yet. -/
theorem made_cases (entry : String × Document) :
    ∃ item, made strings tiers entry = ⟨item, (textOf strings entry).notices⟩ ∧
      item.text = (textOf strings entry).value ∧ item.components = none ∧ item.created = false := by
  rw [made, ofScript, textOf]
  cases strings.get? (StringTable.tooltipStart ++ entry.1 ++ "_Description") with
  | none => refine ⟨_, rfl, ?_, ?_, ?_⟩ <;> rfl
  | some template => refine ⟨_, congrArg (Report.mk _) (List.append_nil _), ?_, ?_, ?_⟩ <;> rfl

theorem not_isUnknownTarget_made (entry : String × Document) :
    ∀ notice ∈ (made strings tiers entry).notices, notice.isUnknownTarget = false := by
  obtain ⟨item, same, -⟩ := made_cases strings tiers entry
  rw [same, textOf]
  cases strings.get? (StringTable.tooltipStart ++ entry.1 ++ "_Description") with
  | none => simp
  | some template => exact Resolver.not_isUnknownTarget_resolveItem _ template

theorem addScript_eq (items : Members Item) (entry : String × Document) :
    addScript strings strings.stripMarkup tiers items entry =
      if isKept entry then Members.put items (shortName entry.1) <$> made strings tiers entry else pure items := by
  rw [addScript, isKept]
  by_cases version : entry.1 = Script.versionKey
  · simp [version]
  · cases free : isFreeRecipe entry.1 entry.2 with
    | true => simp
    | false => simp [version, made]

theorem value_foldlM_addScript (items : Members Item) (entries : List (String × Document)) :
    (entries.foldlM (addScript strings strings.stripMarkup tiers) items).value = Members.putAll items
      ((entries.filter isKept).map fun entry => (shortName entry.1, (made strings tiers entry).value)) := by
  induction entries generalizing items with
  | nil => rfl
  | cons entry rest ih =>
    rw [List.foldlM_cons, Report.value_bind, ih, addScript_eq, List.filter_cons]
    cases isKept entry with
    | true => simp [Members.putAll]
    | false => simp

theorem not_isUnknownTarget_addScript (items : Members Item) (entry : String × Document) :
    ∀ notice ∈ (addScript strings strings.stripMarkup tiers items entry).notices, notice.isUnknownTarget = false := by
  rw [addScript_eq]
  cases isKept entry with
  | true => simpa using not_isUnknownTarget_made strings tiers entry
  | false => simp

end

/-- A script tells what the item that it names is made of. -/
def Tells (script : Document) (target requirement : String) : Prop :=
  script.member? "ItemResult" = some (.text target) ∧ firstRequirement? script = some requirement

theorem recipe?_eq_some_iff {script : Document} {target requirement : String} :
    recipe? script = some (target, requirement) ↔ Tells script target requirement := by
  rw [recipe?, Tells]
  constructor
  · intro told
    split at told
    · next result first =>
      cases told
      obtain ⟨document, found, text⟩ := Option.bind_eq_some_iff.mp result
      cases document with
      | text value =>
        cases text
        exact ⟨found, first⟩
      | _ => cases text
    · cases told
  · rintro ⟨result, first⟩
    simp [result, first, Document.text?]

section
variable (name : String)

/-- An entry tells what the item of a name is made of. -/
def Builds (entry : String × Document) : Prop :=
  ∃ target requirement, Tells entry.2 target requirement ∧ shortName target = name

/-- What a script says that the item of a name is made of. -/
def requirement? (entry : String × Document) : Option String :=
  (recipe? entry.2).bind fun recipe => if shortName recipe.1 = name then some recipe.2 else none

theorem requirement?_eq_some_iff {entry : String × Document} {requirement : String} :
    requirement? name entry = some requirement ↔ ∃ target, Tells entry.2 target requirement ∧ shortName target = name := by
  rw [requirement?, Option.bind_eq_some_iff]
  constructor
  · rintro ⟨⟨target, other⟩, told, here⟩
    split at here
    · next same =>
      cases here
      exact ⟨target, recipe?_eq_some_iff.mp told, same⟩
    · cases here
  · rintro ⟨target, tells, same⟩
    exact ⟨(target, requirement), recipe?_eq_some_iff.mpr tells, by simp [same]⟩

theorem isSome_requirement?_iff (entry : String × Document) :
    (requirement? name entry).isSome = true ↔ Builds name entry := by
  simp only [Option.isSome_iff_exists, requirement?_eq_some_iff, Builds]
  exact exists_comm

def build (item : Item) (requirement : String) : Item :=
  { item with components := some (componentsOf requirement), created := true }

/-- An item after all recipes. -/
def built (entries : List (String × Document)) (item : Item) : Item :=
  match entries.reverse.findSome? (requirement? name) with
  | some requirement => item.build requirement
  | none => item

/-- What a recipe for no known item tells. -/
def unknownTarget? (names : List String) (entry : String × Document) : Option Notice :=
  (recipe? entry.2).bind fun recipe =>
    if shortName recipe.1 ∈ names then none else some (.unknownTarget entry.1 recipe.1)

theorem addRecipe_cases (items : Members Item) (entry : String × Document) :
    (recipe? entry.2 = none ∧ addRecipe items entry = pure items) ∨
    ∃ target requirement, recipe? entry.2 = some (target, requirement) ∧
      ((∃ item, Members.at? items (shortName target) = some item ∧
          addRecipe items entry = pure (Members.put items (shortName target) (item.build requirement))) ∨
        (Members.at? items (shortName target) = none ∧
          addRecipe items entry = ⟨items, [.unknownTarget entry.1 target]⟩)) := by
  cases told : recipe? entry.2 with
  | none => exact .inl ⟨rfl, by rw [addRecipe, told]⟩
  | some recipe =>
    obtain ⟨target, requirement⟩ := recipe
    refine .inr ⟨target, requirement, rfl, ?_⟩
    cases found : Members.at? items (shortName target) with
    | some item =>
      left
      refine ⟨item, rfl, ?_⟩
      simp only [addRecipe, told, found]
      rfl
    | none =>
      right
      refine ⟨rfl, ?_⟩
      simp only [addRecipe, told, found]
      rfl

theorem names_addRecipe (items : Members Item) (entry : String × Document) :
    Members.names (addRecipe items entry).value = Members.names items := by
  rcases addRecipe_cases items entry with ⟨-, same⟩ | ⟨target, requirement, -, ⟨item, found, same⟩ | ⟨-, same⟩⟩
  · rw [same]
    rfl
  · have known := Members.mem_names_of_at? found
    rw [same, Report.value_pure, Members.names_put, if_pos known]
  · rw [same]

theorem at?_addRecipe (items : Members Item) (entry : String × Document) :
    Members.at? (addRecipe items entry).value name = (Members.at? items name).map fun item =>
      match requirement? name entry with
      | some requirement => item.build requirement
      | none => item := by
  rcases addRecipe_cases items entry with
    ⟨none, same⟩ | ⟨target, requirement, told, ⟨item, found, same⟩ | ⟨missing, same⟩⟩
  · simp [same, requirement?, none]
  · rw [same, Report.value_pure, Members.at?_put]
    by_cases here : shortName target = name
    · subst here
      simp [requirement?, told, found]
    · simp [requirement?, told, here]
  · rw [same]
    by_cases here : shortName target = name
    · subst here
      simp [missing]
    · simp [requirement?, told, here]

theorem notices_addRecipe (items : Members Item) (entry : String × Document) :
    (addRecipe items entry).notices = (unknownTarget? (Members.names items) entry).toList := by
  rcases addRecipe_cases items entry with
    ⟨none, same⟩ | ⟨target, requirement, told, ⟨item, found, same⟩ | ⟨missing, same⟩⟩
  · simp [same, unknownTarget?, none]
  · have known := Members.mem_names_of_at? found
    simp [same, unknownTarget?, told, known]
  · have unknown := (Members.at?_eq_none_iff _ _).mp missing
    simp [same, unknownTarget?, told, unknown]

theorem built_cons (entry : String × Document) (rest : List (String × Document)) (item : Item) :
    built name (entry :: rest) item = built name rest (match requirement? name entry with
      | some requirement => item.build requirement
      | none => item) := by
  rw [built, built, List.reverse_cons, List.findSome?_append]
  -- a later recipe puts its own parts over those of this one
  cases rest.reverse.findSome? (requirement? name) with
  | some later => cases requirement? name entry <;> rfl
  | none => cases told : requirement? name entry <;> simp [told]

theorem names_foldlM_addRecipe (items : Members Item) (entries : List (String × Document)) :
    Members.names (entries.foldlM addRecipe items).value = Members.names items := by
  induction entries generalizing items with
  | nil => rfl
  | cons entry rest ih => rw [List.foldlM_cons, Report.value_bind, ih, names_addRecipe]

theorem at?_foldlM_addRecipe (items : Members Item) (entries : List (String × Document)) :
    Members.at? (entries.foldlM addRecipe items).value name = (Members.at? items name).map (built name entries) := by
  induction entries generalizing items with
  | nil =>
    have same : built name [] = fun item => item := rfl
    simp [same]
  | cons entry rest ih =>
    rw [List.foldlM_cons, Report.value_bind, ih, at?_addRecipe, Option.map_map]
    congr 1
    funext item
    exact (built_cons name entry rest item).symm

theorem notices_foldlM_addRecipe (items : Members Item) (entries : List (String × Document)) :
    (entries.foldlM addRecipe items).notices = entries.filterMap (unknownTarget? (Members.names items)) := by
  induction entries generalizing items with
  | nil => rfl
  | cons entry rest ih =>
    rw [List.foldlM_cons, Report.notices_bind, ih, names_addRecipe, notices_addRecipe, List.filterMap_cons]
    cases unknownTarget? (Members.names items) entry <;> rfl

theorem isUnknownTarget_of_unknownTarget? {names : List String} {entry : String × Document} {notice : Notice}
    (told : unknownTarget? names entry = some notice) : notice.isUnknownTarget = true := by
  rw [unknownTarget?, Option.bind_eq_some_iff] at told
  obtain ⟨recipe, -, unknown⟩ := told
  split at unknown
  · cases unknown
  · cases unknown
    rfl

end

section
variable {document : Document} {scripts : Members Document}

/-- The items that the scripts make, before recipes are looked at. -/
def unbuilt (strings : StringTable) (tiers : Members Nat) (scripts : Members Document) : Members Item :=
  Members.ofPairs ((scripts.filter isKept).map fun entry => (shortName entry.1, (made strings tiers entry).value))

theorem ofDocument_eq (block : document.member? "DOTAAbilities" = some (.table scripts)) (strings : StringTable)
    (neutrals : Document) :
    ∃ report, ofDocument strings document neutrals = .ok report ∧
      let tiers := NeutralTier.ofDocument neutrals
      let first := scripts.foldlM (addScript strings strings.stripMarkup tiers.value) []
      let second := scripts.foldlM addRecipe (unbuilt strings tiers.value scripts)
      report = ⟨second.value, tiers.notices ++ (first.notices ++ second.notices)⟩ := by
  have found : Script.block document "DOTAAbilities" "items.json" = .ok scripts := by
    rw [Script.block, block]
    rfl
  rw [ofDocument, found]
  refine ⟨_, rfl, ?_⟩
  intro tiers first second
  have made : first.value = unbuilt strings tiers.value scripts := value_foldlM_addScript strings tiers.value [] scripts
  simp only [second, ← made]
  rfl

/-- Nothing but the recipes tells of unknown targets. -/
theorem filter_isUnknownTarget (strings : StringTable) (neutrals : Document) (items : Members Item) :
    let tiers := NeutralTier.ofDocument neutrals
    let first := scripts.foldlM (addScript strings strings.stripMarkup tiers.value) []
    let second := scripts.foldlM addRecipe items
    (tiers.notices ++ (first.notices ++ second.notices)).filter Notice.isUnknownTarget = second.notices := by
  intro tiers first second
  have quietTiers : tiers.notices.filter Notice.isUnknownTarget = [] := by
    simpa [List.filter_eq_nil_iff] using NeutralTier.not_isUnknownTarget_ofDocument neutrals
  have quietFirst : first.notices.filter Notice.isUnknownTarget = [] := by
    have quiet := Report.forall_notices_foldlM (not_isUnknownTarget_addScript strings tiers.value) [] scripts
    simpa [List.filter_eq_nil_iff] using quiet
  have all : second.notices.filter Notice.isUnknownTarget = second.notices := by
    rw [List.filter_eq_self, show second.notices = _ from notices_foldlM_addRecipe items scripts]
    intro notice member
    obtain ⟨entry, -, told⟩ := List.mem_filterMap.mp member
    exact isUnknownTarget_of_unknownTarget? told
  rw [List.filter_append, List.filter_append, quietTiers, quietFirst, all]
  rfl

theorem names_unbuilt (strings : StringTable) (tiers : Members Nat) : Members.names (unbuilt strings tiers scripts) =
    ((scripts.filter isKept).map fun entry => shortName entry.1).eraseDups := by
  rw [unbuilt, Members.names_ofPairs, Members.names, List.map_map]
  rfl

theorem exists_own_of_unbuilt {strings : StringTable} {tiers : Members Nat} {name : String} {item : Item}
    (found : Members.at? (unbuilt strings tiers scripts) name = some item) :
    ∃ own, IsLast (fun entry => isKept entry = true ∧ shortName entry.1 = name) scripts own ∧
      (made strings tiers own).value = item := by
  rw [unbuilt, Members.ofPairs, Members.at?_putAll, ← List.map_reverse, ← List.filter_reverse,
    Members.at?_map_filter] at found
  simp only [Members.at?, Option.or_none] at found
  obtain ⟨own, last, made⟩ := findSome?_reverse_eq_some_iff.mp found
  refine ⟨own, last.congr ?_, ?_⟩
  · intro entry
    split <;> simp_all
  · split at made
    · exact Option.some.inj made
    · cases made

/-- An item but for what recipes say of it. -/
def withoutRecipe (item : Item) : Item :=
  { item with components := none, created := false }

theorem withoutRecipe_made (strings : StringTable) (tiers : Members Nat) (own : String × Document) :
    (made strings tiers own).value.withoutRecipe = (made strings tiers own).value := by
  obtain ⟨item, same, -, components, created⟩ := made_cases strings tiers own
  rw [same, withoutRecipe, ← components, ← created]

theorem withoutRecipe_built (name : String) (entries : List (String × Document)) (item : Item) :
    (built name entries item).withoutRecipe = item.withoutRecipe := by
  rw [built]
  split <;> rfl

theorem text_built (name : String) (entries : List (String × Document)) (item : Item) :
    (built name entries item).text = item.text := by
  rw [built]
  split <;> rfl

theorem built_cases (name : String) (entries : List (String × Document)) (item : Item) :
    (∃ recipe target requirement, IsLast (Builds name) entries recipe ∧ Tells recipe.2 target requirement ∧
      built name entries item = item.build requirement) ∨
    (∀ entry ∈ entries, ¬ Builds name entry) ∧ built name entries item = item := by
  rw [built]
  cases found : entries.reverse.findSome? (requirement? name) with
  | some requirement =>
    obtain ⟨recipe, last, told⟩ := findSome?_reverse_eq_some_iff.mp found
    obtain ⟨target, tells, -⟩ := (requirement?_eq_some_iff name).mp told
    exact .inl ⟨recipe, target, requirement, last.congr (isSome_requirement?_iff name), tells, rfl⟩
  | none =>
    refine .inr ⟨?_, rfl⟩
    intro entry member builds
    have silent := List.findSome?_eq_none_iff.mp found entry (List.mem_reverse.mpr member)
    rw [← isSome_requirement?_iff, silent] at builds
    cases builds

/-- What is found in a run is what the last script of a name made, with the parts that the recipes tell. -/
theorem exists_built (strings : StringTable) (neutrals : Document)
    (block : document.member? "DOTAAbilities" = some (.table scripts)) :
    ∃ report, ofDocument strings document neutrals = .ok report ∧
      Members.names report.value = ((scripts.filter isKept).map fun entry => shortName entry.1).eraseDups ∧
      report.notices.filter Notice.isUnknownTarget = scripts.filterMap (unknownTarget? (Members.names report.value)) ∧
      ∀ name item, Members.at? report.value name = some item →
        ∃ own, IsLast (fun entry => isKept entry = true ∧ shortName entry.1 = name) scripts own ∧
          item = built name scripts (made strings (NeutralTier.ofDocument neutrals).value own).value := by
  obtain ⟨report, done, rfl⟩ := ofDocument_eq block strings neutrals
  refine ⟨_, done, ?_, ?_, ?_⟩
  · rw [names_foldlM_addRecipe, names_unbuilt]
  · rw [filter_isUnknownTarget, notices_foldlM_addRecipe, names_foldlM_addRecipe]
  · intro name item found
    rw [at?_foldlM_addRecipe, Option.map_eq_some_iff] at found
    obtain ⟨_, found, rfl⟩ := found
    obtain ⟨own, last, rfl⟩ := exists_own_of_unbuilt found
    exact ⟨own, last, rfl⟩

/-- Every script that is kept makes an item, which is found under its name unless a later one makes another. Of the
scripts that tell what an item is made of the last one counts, kept or not, and each of those for an item that is not
there is told of. -/
theorem ofDocument_complete (strings : StringTable) (neutrals : Document)
    (block : document.member? "DOTAAbilities" = some (.table scripts)) :
    ∃ report, ofDocument strings document neutrals = .ok report ∧
      Members.names report.value = ((scripts.filter isKept).map fun entry => shortName entry.1).eraseDups ∧
      report.notices.filter Notice.isUnknownTarget = scripts.filterMap (unknownTarget? (Members.names report.value)) ∧
      ∀ name item, Members.at? report.value name = some item →
        (∃ own, IsLast (fun entry => isKept entry = true ∧ shortName entry.1 = name) scripts own ∧
          item.withoutRecipe = (made strings (NeutralTier.ofDocument neutrals).value own).value) ∧
        (item.created = true ↔ ∃ entry ∈ scripts, Builds name entry) ∧
        (item.created = true → ∃ recipe target requirement, IsLast (Builds name) scripts recipe ∧
          Tells recipe.2 target requirement ∧ item.components = some (componentsOf requirement)) ∧
        (item.created = false → item.components = none) := by
  obtain ⟨report, done, names, notices, found⟩ := exists_built strings neutrals block
  refine ⟨report, done, names, notices, ?_⟩
  intro name item there
  obtain ⟨own, last, rfl⟩ := found name item there
  refine ⟨⟨own, last, ?_⟩, ?_⟩
  · rw [withoutRecipe_built, withoutRecipe_made]
  obtain ⟨item, new, -, components, created⟩ := made_cases strings (NeutralTier.ofDocument neutrals).value own
  rw [new]
  rcases built_cases name scripts item with ⟨recipe, target, requirement, lastRecipe, tells, same⟩ | ⟨silent, same⟩
  · rw [same]
    have member : recipe ∈ scripts := lastRecipe.mem
    exact ⟨⟨fun _ => ⟨recipe, member, lastRecipe.holds⟩, fun _ => rfl⟩,
      fun _ => ⟨recipe, target, requirement, lastRecipe, tells, rfl⟩, nofun⟩
  · rw [same, components, created]
    refine ⟨⟨nofun, ?_⟩, nofun, fun _ => rfl⟩
    rintro ⟨entry, member, builds⟩
    exact absurd builds (silent entry member)

/-- A recipe that costs nothing makes no item, but tells what the blade is made of. -/
def whetting : String × Document :=
  ("item_recipe_whetting", .table [("ItemCost", .text "0"), ("ItemResult", .text "item_blade"),
    ("ItemRequirements", .list [.text "item_blade;;item_whetstone*"])])

def lost : String × Document :=
  ("item_recipe_lost", .table [("ItemResult", .text "item_nothing"), ("ItemRequirements", .list [.text "item_blade"])])

def forge : Members Document :=
  [("Version", .text "1"),
    ("item_recipe_blade", .table [("ItemCost", .text "300"), ("ItemResult", .text "item_blade"),
      ("ItemRequirements", .table [("01", .text "item_broadsword;item_claymore")])]),
    ("item_blade", .table [("ItemCost", .text "1200")]), whetting, lost]

theorem ofDocument_complete_forge :
    ∃ report blade, ofDocument StringTable.empty (.table [("DOTAAbilities", .table forge)]) .null = .ok report ∧
      Members.names report.value = ["recipe_blade", "blade", "recipe_lost"] ∧
      report.notices.filter Notice.isUnknownTarget = [.unknownTarget "item_recipe_lost" "item_nothing"] ∧
      Members.at? report.value "blade" = some blade ∧ blade.created = true ∧
      blade.components = some ["blade", "whetstone"] := by
  have block : Document.member? (.table [("DOTAAbilities", .table forge)]) "DOTAAbilities" = some (.table forge) := rfl
  obtain ⟨report, made, names, notices, each⟩ := ofDocument_complete StringTable.empty .null block
  have kept : ((forge.filter isKept).map fun entry => shortName entry.1).eraseDups =
      ["recipe_blade", "blade", "recipe_lost"] := by
    decide +kernel
  rw [kept] at names
  rw [names] at notices
  have present : Members.at? report.value "blade" ≠ none := by
    intro missing
    have absent := (Members.at?_eq_none_iff _ _).mp missing
    rw [names] at absent
    exact absent (by simp)
  obtain ⟨blade, found⟩ := Option.ne_none_iff_exists'.mp present
  obtain ⟨-, created, parts, -⟩ := each "blade" blade found
  have tells : Tells whetting.2 "item_blade" "item_blade;;item_whetstone*" := ⟨rfl, rfl⟩
  have builds : Builds "blade" whetting := ⟨_, _, tells, by cbv⟩
  have last : IsLast (Builds "blade") forge whetting := by
    have silent : requirement? "blade" lost = none := by cbv
    refine ⟨forge.take 3, [lost], rfl, builds, ?_⟩
    intro later member
    simp [List.mem_singleton.mp member, ← isSome_requirement?_iff, silent]
  have isBuilt := created.mpr ⟨whetting, last.mem, builds⟩
  obtain ⟨recipe, target, requirement, lastRecipe, told, components⟩ := parts isBuilt
  rw [lastRecipe.unique last] at told
  obtain rfl : requirement = "item_blade;;item_whetstone*" := Option.some.inj (told.2.symm.trans tells.2)
  refine ⟨report, blade, made, names, ?_, found, isBuilt, ?_⟩
  · rw [notices]
    cbv
  · rw [components]
    cbv

end

end Item
end Compendium
