import Compendium.Command.Inspect
import Compendium.Proofs.Build.Reading
import Compendium.Proofs.Build.Running
import Compendium.Proofs.Catalog.Description
import Compendium.Proofs.Catalog.ItemMembers

/-! The tooltip of one script beside the entry that a build makes of it. Both resolve the same template, but only a
build fills the description of an ability again where tokens were left in it. -/

set_option autoImplicit false
namespace Compendium

theorem ItemText.toDocument_eq_iff (item : ItemText) :
    item.toDocument = .table item.toMembers ↔ Members.Distinct item.toMembers := by
  rw [toDocument, Document.table.injEq]
  constructor
  · intro same
    exact same ▸ Members.distinct_ofPairs item.toMembers
  · exact Members.ofPairs_of_distinct

namespace Resolver

theorem value_resolve_item (resolver : Resolver) {template : String} (filled : template ≠ "") :
    (resolver.resolve (some template) true).value = some (.item (resolver.resolveItem template).value) := by
  rw [resolve]
  · rfl
  · exact filled

theorem resolveText_empty (resolver : Resolver) : (resolver.resolveText "").value = "" := by
  have tomeless : ¬ tomesToken.toList <:+: "".toList := by decide
  have cut : TokenGrammar.anyName.parts "" = ⟨[], []⟩ := by cbv
  rw [value_resolveText, value_substitute, withoutTomes_eq tomeless, cut]
  cbv

theorem value_resolve_text (resolver : Resolver) (template : String) :
    (resolver.resolve (some template) false).value = some (.text (resolver.resolveText template).value) := by
  by_cases empty : template = ""
  · subst empty
    rw [resolveText_empty]
    rfl
  · rw [resolve]
    · rfl
    · exact empty

end Resolver

namespace Item

theorem mem_names_of_isKept {scripts : Members Document} {key : String} {script : Document}
    (member : (key, script) ∈ scripts) (kept : isKept (key, script) = true) :
    shortName key ∈ ((scripts.filter isKept).map fun entry => shortName entry.1).eraseDups := by
  rw [List.mem_eraseDups, List.mem_map]
  exact ⟨(key, script), List.mem_filter.mpr ⟨member, kept⟩, rfl⟩

end Item

namespace InspectRequest

section
variable {request : InspectRequest} {tree : FileTree} {order : StringTable.TokenOrder} {strings : StringTable}
  {document script : Document} {scripts : Members Document} {template : String}

theorem script?_of_block (block : document.member? "DOTAAbilities" = some (.table scripts))
    (present : Members.at? scripts request.key = some script) : script? document request.key = some script := by
  rw [script?, block]
  exact present

theorem run_of_loaded (texts : Source.strings tree request.strings order = .ok strings)
    (loaded : Source.document tree request.scripts = .ok document)
    (present : script? document request.key = some script) :
    request.run tree order = Outcome.success tree [Json.pretty (request.tooltip strings script)] := by
  have rendered : request.render tree order = .ok (Json.pretty (request.tooltip strings script)) := by
    simp only [render, texts, loaded, Except.mapError, bind, Except.bind, present]
    rfl
  rw [run, rendered]

theorem member?_desc_tooltip : (request.tooltip strings script).member? "desc" =
    some (Document.ofOption Resolved.toDocument (request.describe strings script).value) :=
  rfl

theorem value_describe_item (asked : request.isItem = true)
    (described : strings.get? (StringTable.tooltipStart ++ request.key ++ "_Description") = some template)
    (filled : template ≠ "") :
    (request.describe strings script).value = some (.item (Item.textOf strings (request.key, script)).value) := by
  rw [describe, asked, if_pos rfl, described, Resolver.value_resolve_item _ filled, Item.textOf, described]

theorem value_describe_ability (asked : request.isItem = false)
    (described : strings.stripMarkup.get? (StringTable.tooltipStart ++ request.key ++ "_Description") = some template) :
    (request.describe strings script).value =
      some (.text ((Ability.resolver request.key script).resolveText template).value) := by
  rw [describe, asked, if_neg (by decide), described, Resolver.value_resolve_text, Ability.resolver]

theorem member?_desc_of_resolved {printed : String} (asked : request.isItem = false)
    (described : strings.stripMarkup.get? (StringTable.tooltipStart ++ request.key ++ "_Description") = some template)
    (resolved : ((Ability.resolver request.key script).resolveText template).value = printed) :
    (request.tooltip strings script).member? "desc" = some (.text printed) := by
  rw [member?_desc_tooltip, value_describe_ability asked described, resolved]
  rfl

/-- The item that a kept script makes is found under its short name, where the last such script counts. -/
theorem exists_item (strings : StringTable) (neutrals : Document)
    (block : document.member? "DOTAAbilities" = some (.table scripts))
    (present : Members.at? scripts request.key = some script) (kept : Item.isKept (request.key, script) = true) :
    ∃ report item own, Item.ofDocument strings document neutrals = .ok report ∧
      Members.at? report.value (Item.shortName request.key) = some item ∧
      IsLast (fun entry => Item.isKept entry = true ∧ Item.shortName entry.1 = Item.shortName request.key) scripts own ∧
      item.text = (Item.textOf strings own).value := by
  obtain ⟨report, made, names, -, found⟩ := Item.exists_built strings neutrals block
  have known := Item.mem_names_of_isKept (Members.mem_of_at? present) kept
  have there : Members.at? report.value (Item.shortName request.key) ≠ none := by
    intro missing
    rw [Members.at?_eq_none_iff, names] at missing
    exact missing known
  obtain ⟨item, entry⟩ := Option.ne_none_iff_exists'.mp there
  obtain ⟨own, last, rfl⟩ := found _ item entry
  exact ⟨report, _, own, made, entry, last, Item.text_built_made strings _ _ scripts own⟩

/-- The tooltip of an item shows what a build sorts its description into; only hints are lost to a section of the same
kind. That of an ability shows what a build makes of its description just if no word is left between percent signs, or
the script alone fills the template with the same text. Here the command and the build have both loaded this table: each
loads it for itself, but where its aliases are apart they can load no other one. -/
theorem tooltip_desc_iff_built (texts : Source.strings tree request.strings order = .ok strings)
    (loaded : Source.document tree request.scripts = .ok document)
    (block : document.member? "DOTAAbilities" = some (.table scripts))
    (present : Members.at? scripts request.key = some script) :
    let shown := request.tooltip strings script
    let token := StringTable.tooltipStart ++ request.key ++ "_Description"
    request.run tree order = Outcome.success tree [Json.pretty shown] ∧
    (Source.AliasesApart tree request.strings → ∀ other, Source.strings tree request.strings other = .ok strings) ∧
    (request.isItem = true → Item.isKept (request.key, script) = true →
      ∀ template neutrals, strings.get? token = some template → template ≠ "" →
      ∃ report item own, Item.ofDocument strings document neutrals = .ok report ∧
        Members.at? report.value (Item.shortName request.key) = some item ∧
        IsLast (fun entry => Item.isKept entry = true ∧ Item.shortName entry.1 = Item.shortName request.key)
          scripts own ∧
        (own = (request.key, script) → shown.member? "desc" = some item.text.toDocument ∧
          (shown.member? "desc" = some (.table item.text.toMembers) ↔ Members.Distinct item.text.toMembers))) ∧
    (request.isItem = false → request.key ∉ Ability.excluded → Ability.isTalent request.key = false →
      ∀ template, strings.stripMarkup.get? token = some template →
      ∃ report ability printed, Ability.ofDocument strings document = .ok report ∧
        Members.at? report.value request.key = some ability ∧
        shown.member? "desc" = some (.text printed) ∧
        (ability.desc = some printed ↔
          ¬ Ability.wordToken.HoldsToken printed.toList ∨ Lookup.resolve template script = printed)) := by
  intro shown token
  refine ⟨run_of_loaded texts loaded (script?_of_block block present), ?same, ?item, ?ability⟩
  case same =>
    intro apart other
    rw [Source.strings_order apart other order, texts]
  case item =>
    intro asked kept template neutrals described filled
    obtain ⟨report, item, own, made, entry, last, text⟩ := exists_item strings neutrals block present kept
    refine ⟨report, item, own, made, entry, last, ?_⟩
    rintro rfl
    have desc : shown.member? "desc" = some item.text.toDocument := by
      rw [member?_desc_tooltip, value_describe_item asked described filled, text]
      rfl
    refine ⟨desc, ?_⟩
    rw [desc, Option.some_inj, ItemText.toDocument_eq_iff]
  case ability =>
    intro asked kept noTalent template described
    obtain ⟨report, made, entry⟩ := Ability.at?_ofDocument block strings
    have desc : shown.member? "desc" =
        some (.text ((Ability.resolver request.key script).resolveText template).value) :=
      member?_desc_of_resolved asked described rfl
    refine ⟨report, _, _, made, entry _ script present kept, desc, ?_⟩
    rw [Ability.desc_ofScript noTalent described, Option.some_inj]
    by_cases holds : Ability.wordToken.HoldsToken
        ((Ability.resolver request.key script).resolveText template).value.toList
    · rw [Ability.value_describe_of_holdsToken holds]
      simp [holds]
    · rw [Ability.value_describe_of_not_holdsToken holds]
      simp [holds]

end

/-- A ward that stands for some seconds. -/
def ward : Document :=
  .table [("AbilityValues", .table [("duration", .text "25")])]

def wards : Document :=
  .table [("DOTAAbilities", .table [("ward", ward)])]

def wardTexts (description : String) : StringTable :=
  ⟨[("DOTA_Tooltip_ability_ward_Description", description)], ""⟩

/-- Its script, and two resources that name its value as it stands there or with a capital letter. -/
def wardFiles : FileTree :=
  ⟨[(["npc.json"],
      .file (.text "\x7b\"DOTAAbilities\":\x7b\"ward\":\x7b\"AbilityValues\":\x7b\"duration\":\"25\"\x7d\x7d\x7d\x7d")),
    (["small.txt"],
      .file (.text "x \x7b tokens \x7b DOTA_Tooltip_ability_ward_Description \"Lasts %duration% seconds.\" \x7d \x7d")),
    (["capital.txt"],
      .file (.text "x \x7b tokens \x7b DOTA_Tooltip_ability_ward_Description \"Lasts %Duration% seconds.\" \x7d \x7d"))]⟩

def wardRequest (strings : String) : InspectRequest :=
  ⟨⟨strings⟩, ⟨"npc.json"⟩, "ward", false⟩

theorem document_wardFiles : Source.document wardFiles ⟨"npc.json"⟩ = .ok wards := by
  have isFile : wardFiles.isFile ⟨"npc.json"⟩ = true := by decide +kernel
  have text : wardFiles.readText ⟨"npc.json"⟩ =
      .ok "\x7b\"DOTAAbilities\":\x7b\"ward\":\x7b\"AbilityValues\":\x7b\"duration\":\"25\"\x7d\x7d\x7d\x7d" := by
    decide +kernel
  have isJson : Path.isJson ⟨"npc.json"⟩ = true := by decide +kernel
  rw [Source.document, if_pos isFile, text]
  change Source.ofText _ _ = _
  rw [Source.ofText, isJson]
  cbv

theorem strings_small : Source.strings wardFiles ⟨"small.txt"⟩ = .ok (wardTexts "Lasts %duration% seconds.") := by
  decide +kernel

theorem strings_capital : Source.strings wardFiles ⟨"capital.txt"⟩ = .ok (wardTexts "Lasts %Duration% seconds.") := by
  decide +kernel

/-- What a description with one token is resolved to. -/
theorem resolveText_ward {name shown template : String}
    (filled : (Ability.resolver "ward" ward).shown name = shown)
    (tomeless : ¬ Resolver.tomesToken.toList <:+: template.toList)
    (cut : TokenGrammar.anyName.parts template = ⟨[("Lasts ".toList, name)], " seconds.".toList⟩) :
    ((Ability.resolver "ward" ward).resolveText template).value = Markup.stripTags
      (Markup.unescapeNewlines (String.ofList ("Lasts ".toList ++ shown.toList ++ " seconds.".toList))) := by
  rw [Resolver.value_resolveText, Resolver.value_substitute, Resolver.withoutTomes_eq tomeless, cut]
  simp [TokenGrammar.Parts.filled, filled]

theorem tooltip_desc_iff_built_ward :
    ∃ report ability, Ability.ofDocument (wardTexts "Lasts %duration% seconds.") wards = .ok report ∧
      Members.at? report.value "ward" = some ability ∧ ability.desc = some "Lasts 25 seconds." ∧
      ∃ shown, (wardRequest "small.txt").run wardFiles .asListed = Outcome.success wardFiles [Json.pretty shown] ∧
        shown.member? "desc" = some (.text "Lasts 25 seconds.") := by
  obtain ⟨run, -, -, each⟩ := @tooltip_desc_iff_built (wardRequest "small.txt") wardFiles _ _ _ _ _ strings_small
    document_wardFiles rfl rfl
  have described : (wardTexts "Lasts %duration% seconds.").stripMarkup.get?
      (StringTable.tooltipStart ++ "ward" ++ "_Description") = some "Lasts %duration% seconds." := by
    cbv
  obtain ⟨report, ability, printed, made, entry, desc, same⟩ := each rfl (by decide) (by decide) _ described
  have filled : (Ability.resolver "ward" ward).shown "duration" = "25" := by cbv
  have cut : TokenGrammar.anyName.parts "Lasts %duration% seconds." =
      ⟨[("Lasts ".toList, "duration")], " seconds.".toList⟩ := by
    cbv
  have resolved : ((Ability.resolver "ward" ward).resolveText "Lasts %duration% seconds.").value =
      "Lasts 25 seconds." := by
    rw [resolveText_ward filled (by decide) cut]
    cbv
  have text : printed = "Lasts 25 seconds." :=
    Document.text.inj (Option.some.inj (desc.symm.trans (member?_desc_of_resolved rfl described resolved)))
  subst text
  have complete : ¬ Ability.wordToken.HoldsToken "Lasts 25 seconds.".toList := by
    apply (TokenGrammar.names_eq_nil_iff Ability.wordToken_unmarked _).mp
    cbv
  exact ⟨report, ability, made, entry, same.mpr (.inl complete), _, run, desc⟩

/-- A capital letter in the token is passed over only by what a build fills in afterwards. -/
theorem desc_not_shown_as_built :
    "ward" ∉ Ability.excluded ∧ Ability.isTalent "ward" = false ∧
    Source.strings wardFiles ⟨"capital.txt"⟩ = .ok (wardTexts "Lasts %Duration% seconds.") ∧
    Source.document wardFiles ⟨"npc.json"⟩ = .ok wards ∧
    (∃ report ability, Ability.ofDocument (wardTexts "Lasts %Duration% seconds.") wards = .ok report ∧
      Members.at? report.value "ward" = some ability ∧ ability.desc = some "Lasts 25 seconds.") ∧
    ∃ shown, (wardRequest "capital.txt").run wardFiles .asListed = Outcome.success wardFiles [Json.pretty shown] ∧
      shown.member? "desc" = some (.text "Lasts %Duration% seconds.") := by
  have described : (wardTexts "Lasts %Duration% seconds.").stripMarkup.get?
      (StringTable.tooltipStart ++ "ward" ++ "_Description") = some "Lasts %Duration% seconds." := by
    cbv
  have filled : (Ability.resolver "ward" ward).shown "Duration" = "%Duration%" := by cbv
  have cut : TokenGrammar.anyName.parts "Lasts %Duration% seconds." =
      ⟨[("Lasts ".toList, "Duration")], " seconds.".toList⟩ := by
    cbv
  have resolved : ((Ability.resolver "ward" ward).resolveText "Lasts %Duration% seconds.").value =
      "Lasts %Duration% seconds." := by
    rw [resolveText_ward filled (by decide) cut]
    cbv
  have holds : Ability.wordToken.HoldsToken
      ((Ability.resolver "ward" ward).resolveText "Lasts %Duration% seconds.").value.toList := by
    have word : ∀ c ∈ "Duration".toList, Ability.wordToken.inName c = true := List.all_eq_true.mp (by decide +kernel)
    rw [resolved]
    exact ⟨"Duration", ⟨word, by decide⟩, "Lasts ".toList, " seconds.".toList, by cbv⟩
  have refilled : Lookup.resolve "Lasts %Duration% seconds." ward = "Lasts 25 seconds." := by
    rw [Lookup.resolve, TokenGrammar.fill_eq TokenGrammar.anyName_unmarked, cut]
    cbv
  have block : wards.member? "DOTAAbilities" = some (.table [("ward", ward)]) := rfl
  obtain ⟨report, made, entry⟩ := Ability.at?_ofDocument block (wardTexts "Lasts %Duration% seconds.")
  refine ⟨by decide, by decide, strings_capital, document_wardFiles, ⟨report, _, made,
    entry "ward" ward rfl (by decide), ?_⟩, _, run_of_loaded strings_capital document_wardFiles rfl,
    member?_desc_of_resolved rfl described resolved⟩
  rw [Ability.desc_ofScript (by decide) described, Ability.value_describe_of_holdsToken holds, refilled]

end InspectRequest
end Compendium
