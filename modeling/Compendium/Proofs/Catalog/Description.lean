import Compendium.Catalog.Ability
import Compendium.Proofs.Tooltip.Resolving

/-! The descriptions of the abilities document. One that looks as if tokens were left in it is filled again from the
script alone. With all names known, this happens only where percent signs or brackets were put in for tokens. -/

set_option autoImplicit false
namespace Compendium

theorem StringTable.tagFree_of_get?_stripMarkup {strings : StringTable} {token text : String}
    (found : strings.stripMarkup.get? token = some text) : Markup.TagFree text.toList := by
  rw [get?_stripMarkup, Option.map_eq_some_iff] at found
  obtain ⟨source, -, rfl⟩ := found
  exact Markup.tagFree_stripTags source

namespace Ability

theorem wordToken_unmarked : wordToken.inName '%' = false := by
  decide

/-- Names of word characters have neither percent signs nor spaces. -/
theorem inName_of_wordToken (c : Char) (inName : wordToken.inName c = true) :
    TokenGrammar.anyName.inName c = true := by
  have percent : c ≠ '%' := by
    rintro rfl
    exact absurd inName (by decide)
  have space : c ≠ ' ' := by
    rintro rfl
    exact absurd inName (by decide)
  simp [TokenGrammar.anyName, percent, space]

def resolver (key : String) (script : Document) : Resolver :=
  Resolver.create (Script.attributes script) script key

theorem value_describe (key : String) (script : Document) (template : String) :
    (describe key script template).value =
      if (wordToken.names ((resolver key script).resolveText template).value).isEmpty then
        ((resolver key script).resolveText template).value
      else Lookup.resolve template script :=
  rfl

theorem value_describe_of_holdsToken {key : String} {script : Document} {template : String}
    (holds : wordToken.HoldsToken ((resolver key script).resolveText template).value.toList) :
    (describe key script template).value = Lookup.resolve template script := by
  rw [value_describe, if_neg]
  rw [List.isEmpty_iff, TokenGrammar.names_eq_nil_iff wordToken_unmarked]
  exact fun none => none holds

theorem value_describe_of_not_holdsToken {key : String} {script : Document} {template : String}
    (none : ¬ wordToken.HoldsToken ((resolver key script).resolveText template).value.toList) :
    (describe key script template).value = ((resolver key script).resolveText template).value := by
  rw [value_describe, if_pos]
  rw [List.isEmpty_iff, TokenGrammar.names_eq_nil_iff wordToken_unmarked]
  exact none

theorem desc_ofScript {strings : StringTable} {key template : String} (noTalent : isTalent key = false)
    (described : strings.get? (StringTable.tooltipStart ++ key ++ "_Description") = some template)
    (scripts : Members Document) (script : Document) :
    (ofScript strings scripts key script).value.desc = some (describe key script template).value := by
  rw [ofScript, if_neg (by simp [noTalent])]
  simp only [described]
  rfl

theorem ofDocument_eq {document : Document} {scripts : Members Document}
    (block : document.member? "DOTAAbilities" = some (.table scripts)) (strings : StringTable) :
    ∃ report, ofDocument strings document = .ok report ∧
      report.value = (scripts.filter fun entry => !excluded.contains entry.1).map fun entry =>
        (entry.1, (ofScript strings.stripMarkup scripts entry.1 entry.2).value) := by
  have found : Script.block document "DOTAAbilities" "npc_abilities.json" = .ok scripts := by
    rw [Script.block, block]
    rfl
  rw [ofDocument, found]
  refine ⟨_, rfl, ?_⟩
  rw [Report.mapM_eq]
  rfl

theorem at?_ofDocument {document : Document} {scripts : Members Document}
    (block : document.member? "DOTAAbilities" = some (.table scripts)) (strings : StringTable) :
    ∃ report, ofDocument strings document = .ok report ∧
      ∀ key script, Members.at? scripts key = some script → key ∉ excluded →
        Members.at? report.value key = some (ofScript strings.stripMarkup scripts key script).value := by
  obtain ⟨report, made, value⟩ := ofDocument_eq block strings
  refine ⟨report, made, ?_⟩
  intro key script present kept
  have found := Members.at?_filter scripts (fun name => !excluded.contains name) key
  have entry := Members.at?_map (scripts.filter fun entry => !excluded.contains entry.1)
    (fun name script => (ofScript strings.stripMarkup scripts name script).value) key
  rw [found, present, if_pos (by simpa using kept)] at entry
  rw [value]
  exact entry

/-- A known name is shown plainly, unless it is empty or its text has a percent sign or a bracket. -/
theorem showsPlainly_or {resolver : Resolver} {name : String}
    (resolved : name = "" ∨ (resolver.find? name).isSome = true) :
    resolver.ShowsPlainly name ∨ name = "" ∨ ∃ value, resolver.find? name = some value ∧
      ∃ c ∈ (Resolver.textOf value).toList, c = '%' ∨ c = '<' ∨ c = '>' := by
  rcases resolved with empty | some
  · exact .inr (.inl empty)
  obtain ⟨value, found⟩ := Option.isSome_iff_exists.mp some
  by_cases marked : ∃ c ∈ (Resolver.textOf value).toList, c = '%' ∨ c = '<' ∨ c = '>'
  · exact .inr (.inr ⟨value, found, marked⟩)
  by_cases empty : name = ""
  · exact .inr (.inl empty)
  left
  intro c member
  have shown : resolver.shown name = Resolver.textOf value := by
    simp [Resolver.shown, empty, found]
  rw [shown] at member
  exact ⟨fun same => marked ⟨c, member, .inl same⟩, fun same => marked ⟨c, member, .inr (.inl same)⟩,
    fun same => marked ⟨c, member, .inr (.inr same)⟩⟩

/-- A description is what its template is resolved to, unless a word stands between two percent signs in that. Where all
names are known, one of the tokens must have put a percent sign or a bracket there. -/
theorem desc_of_resolved (strings : StringTable) {document script : Document} {scripts : Members Document}
    {key template : String} {parts : TokenGrammar.Parts}
    (block : document.member? "DOTAAbilities" = some (.table scripts))
    (present : Members.at? scripts key = some script) (kept : key ∉ excluded) (noTalent : isTalent key = false)
    (described : strings.stripMarkup.get? (StringTable.tooltipStart ++ key ++ "_Description") = some template)
    (splits : TokenGrammar.anyName.Splits (Resolver.withoutTomes template).toList parts)
    (resolved : ∀ name ∈ parts.names, name = "" ∨ ((resolver key script).find? name).isSome = true) :
    ∃ report ability, ofDocument strings document = .ok report ∧ Members.at? report.value key = some ability ∧
      let text := ((resolver key script).resolveText template).value
      (¬ wordToken.HoldsToken text.toList → ability.desc = some text) ∧
      (wordToken.HoldsToken text.toList → ability.desc = some (Lookup.resolve template script) ∧
        ∃ name ∈ parts.names, name = "" ∨ ∃ value, (resolver key script).find? name = some value ∧
          ∃ c ∈ (Resolver.textOf value).toList, c = '%' ∨ c = '<' ∨ c = '>') := by
  obtain ⟨report, made, entry⟩ := at?_ofDocument block strings
  refine ⟨report, _, made, entry key script present kept, ?_⟩
  have desc := desc_ofScript noTalent described scripts script
  intro text
  constructor
  · intro none
    rw [desc, value_describe_of_not_holdsToken none]
  · intro holds
    rw [desc, value_describe_of_holdsToken holds]
    refine ⟨rfl, ?_⟩
    -- were nothing but plain text put in, the text could hold no token
    apply Classical.byContradiction
    intro unmarked
    have plain : ∀ name ∈ parts.names, (resolver key script).ShowsPlainly name := fun name member =>
      (showsPlainly_or (resolved name member)).resolve_right fun marked => unmarked ⟨name, member, marked⟩
    have free := StringTable.tagFree_of_get?_stripMarkup described
    exact Resolver.not_holdsToken_resolveText inName_of_wordToken (by decide) free splits plain holds


/-- An ability that slows and heals by so many percent each. -/
def venom : Document :=
  .table [("AbilityValues", .table [("slow", .text "30"), ("heal", .text "5")])]

def venomScripts : Document :=
  .table [("DOTAAbilities", .table [("venom", venom)])]

def venomStrings (description : String) : StringTable :=
  ⟨[("DOTA_Tooltip_ability_venom_Description", description)], ""⟩

section
variable {template : String} {first second : List Char}

theorem venom_slow : (resolver "venom" venom).find? "dslow" = some (.text "30") := by
  cbv

theorem venom_heal : (resolver "venom" venom).find? "dheal" = some (.text "5") := by
  cbv

theorem venom_resolved (cut : TokenGrammar.anyName.parts template =
    ⟨[(first, "dslow"), ([], ""), (second, "dheal"), ([], "")], []⟩) :
    ∀ name ∈ (TokenGrammar.anyName.parts template).names,
      name = "" ∨ ((resolver "venom" venom).find? name).isSome = true := by
  rw [cut]
  simp [TokenGrammar.Parts.names, venom_slow, venom_heal]

theorem resolveText_venom (tomeless : ¬ Resolver.tomesToken.toList <:+: template.toList)
    (cut : TokenGrammar.anyName.parts template =
      ⟨[(first, "dslow"), ([], ""), (second, "dheal"), ([], "")], []⟩) :
    ((resolver "venom" venom).resolveText template).value = Markup.stripTags (Markup.unescapeNewlines
      (String.ofList (first ++ "30%".toList ++ second ++ "5%".toList))) := by
  have slow : Resolver.textOf (.text "30") = "30" := by cbv
  have heal : Resolver.textOf (.text "5") = "5" := by cbv
  rw [Resolver.value_resolveText, Resolver.value_substitute, Resolver.withoutTomes_eq tomeless, cut]
  simp [TokenGrammar.Parts.filled, Resolver.shown, venom_slow, venom_heal, slow, heal]

end

theorem desc_of_resolved_spaced :
    ∃ report ability, ofDocument (venomStrings "slows %dslow%%%, heals %dheal%%%") venomScripts = .ok report ∧
      Members.at? report.value "venom" = some ability ∧ ability.desc = some "slows 30%, heals 5%" := by
  generalize same : "slows %dslow%%%, heals %dheal%%%" = template
  have tomeless : ¬ Resolver.tomesToken.toList <:+: template.toList := by
    subst same
    decide
  have cut : TokenGrammar.anyName.parts template =
      ⟨[("slows ".toList, "dslow"), ([], ""), (", heals ".toList, "dheal"), ([], "")], []⟩ := by
    subst same
    cbv
  have text : ((resolver "venom" venom).resolveText template).value = "slows 30%, heals 5%" := by
    rw [resolveText_venom tomeless cut]
    cbv
  have block : venomScripts.member? "DOTAAbilities" = some (.table [("venom", venom)]) := rfl
  have present : Members.at? [("venom", venom)] "venom" = some venom := rfl
  have described : (venomStrings template).stripMarkup.get?
      (StringTable.tooltipStart ++ "venom" ++ "_Description") = some template := by
    subst same
    cbv
  have splits : TokenGrammar.anyName.Splits (Resolver.withoutTomes template).toList
      (TokenGrammar.anyName.parts template) := by
    rw [Resolver.withoutTomes_eq tomeless]
    exact (TokenGrammar.splits_iff TokenGrammar.anyName_unmarked template _).mpr rfl
  obtain ⟨report, ability, made, entry, plainly, -⟩ := desc_of_resolved (venomStrings template) block present
    (by decide) (by decide) described splits (venom_resolved cut)
  refine ⟨report, ability, made, entry, ?_⟩
  rw [text] at plainly
  apply plainly
  -- the two percent signs have a comma and a space between them, so no word
  apply (TokenGrammar.names_eq_nil_iff wordToken_unmarked _).mp
  cbv

/-- Both names are known, but the words between the two percent signs are taken for a token that was left over. -/
theorem desc_retried_though_resolved :
    "venom" ∉ excluded ∧ isTalent "venom" = false ∧
    (venomStrings "减速%dslow%%%并回复%dheal%%%").stripMarkup.get?
      (StringTable.tooltipStart ++ "venom" ++ "_Description") = some "减速%dslow%%%并回复%dheal%%%" ∧
    (∀ name ∈ (TokenGrammar.anyName.parts "减速%dslow%%%并回复%dheal%%%").names,
      name = "" ∨ ((resolver "venom" venom).find? name).isSome = true) ∧
    ((resolver "venom" venom).resolveText "减速%dslow%%%并回复%dheal%%%").value = "减速30%并回复5%" ∧
    ∃ report ability, ofDocument (venomStrings "减速%dslow%%%并回复%dheal%%%") venomScripts = .ok report ∧
      Members.at? report.value "venom" = some ability ∧ ability.desc = some "减速dslow%并回复dheal%" := by
  generalize same : "减速%dslow%%%并回复%dheal%%%" = template
  have tomeless : ¬ Resolver.tomesToken.toList <:+: template.toList := by
    subst same
    decide
  have cut : TokenGrammar.anyName.parts template =
      ⟨[("减速".toList, "dslow"), ([], ""), ("并回复".toList, "dheal"), ([], "")], []⟩ := by
    subst same
    cbv
  have text : ((resolver "venom" venom).resolveText template).value = "减速30%并回复5%" := by
    rw [resolveText_venom tomeless cut]
    cbv
  have described : (venomStrings template).stripMarkup.get?
      (StringTable.tooltipStart ++ "venom" ++ "_Description") = some template := by
    subst same
    cbv
  have retried : Lookup.resolve template venom = "减速dslow%并回复dheal%" := by
    rw [Lookup.resolve, TokenGrammar.fill_eq TokenGrammar.anyName_unmarked, cut]
    cbv
  have holds : wordToken.HoldsToken ((resolver "venom" venom).resolveText template).value.toList := by
    have word : ∀ c ∈ "并回复5".toList, wordToken.inName c = true := List.all_eq_true.mp (by decide +kernel)
    rw [text]
    exact ⟨"并回复5", ⟨word, by decide⟩, "减速30".toList, [], by cbv⟩
  have block : venomScripts.member? "DOTAAbilities" = some (.table [("venom", venom)]) := rfl
  obtain ⟨report, made, entry⟩ := at?_ofDocument block (venomStrings template)
  refine ⟨by decide, by decide, described, venom_resolved cut, text, report, _, made,
    entry "venom" venom rfl (by decide), ?_⟩
  rw [desc_ofScript (by decide) described, value_describe_of_holdsToken holds, retried]

end Ability
end Compendium
