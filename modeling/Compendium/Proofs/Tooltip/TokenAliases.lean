import Compendium.Proofs.Document.Members
import Compendium.Proofs.Text.Occurrence
import Compendium.Tooltip.StringTable

/-! Texts under the other spelling of their tooltip tokens. A capitalized token gets an alias, which is never capitalized itself, so
that aliases take no aliases and the texts under capitalized tokens stay as they are. -/

set_option autoImplicit false
namespace Compendium.StringTable

/-- The token has the capitalized start somewhere. -/
def Capitalized (token : String) : Prop :=
  capitalizedStart.toList <:+: token.toList

/-- The token with the other spelling in all places. -/
def aliasOf (token : String) : String :=
  Text.replaceAll token capitalizedStart tooltipStart

/-- No two capitalized tokens of the table have the same alias. -/
def AliasesApart (table : StringTable) : Prop :=
  ∀ first ∈ Members.names table.tokens, ∀ second ∈ Members.names table.tokens,
    Capitalized first → Capitalized second → aliasOf first = aliasOf second → first = second

/-- The alias of a capitalized token of the table. -/
def IsAlias (table : StringTable) (token : String) : Prop :=
  ∃ capital ∈ Members.names table.tokens, Capitalized capital ∧ aliasOf capital = token

/-- The order from the last listed token to the first. -/
def TokenOrder.reversed : TokenOrder :=
  ⟨List.reverse, List.reverse_perm⟩

/-- A table with the aliases of its capitalized tokens, and with nothing else that is new. -/
structure Aliased (table other : StringTable) : Prop where
  tokens : ∀ token, token ∈ Members.names other.tokens ↔ token ∈ Members.names table.tokens ∨ IsAlias table token
  aliases : ∀ capital ∈ Members.names table.tokens, Capitalized capital → other.get? (aliasOf capital) = table.get? capital
  others : ∀ token, ¬ IsAlias table token → other.get? token = table.get? token
  capitals : ∀ token, Capitalized token → other.get? token = table.get? token
  language : other.language = table.language

theorem not_capitalized_aliasOf (token : String) : ¬ Capitalized (aliasOf token) := by
  have spelled : capitalizedStart.toList = 'D' :: "OTA_Tooltip_Ability_".toList := rfl
  have respelled : tooltipStart.toList = 'D' :: "OTA_Tooltip_ability_".toList := rfl
  rw [Capitalized, aliasOf, Text.replaceAll, spelled, respelled]
  simp only [String.toList_ofList]
  exact Text.not_infix_replaceAllChars_of_once (by decide) (by decide) (by decide) (by decide) _

section
variable {table : StringTable} {order : TokenOrder}

theorem mem_aliases_iff (token text : String) : (token, text) ∈ table.aliases order ↔
    ∃ capital, (capital, text) ∈ table.tokens ∧ Capitalized capital ∧ aliasOf capital = token := by
  rw [aliases, List.mem_map]
  constructor
  · rintro ⟨⟨capital, _⟩, member, same⟩
    obtain ⟨inside, occurs⟩ := List.mem_filter.mp member
    obtain ⟨rfl, rfl⟩ := Prod.mk.inj same
    exact ⟨capital, (order.perm _).mem_iff.mp inside, (Text.occursIn_iff _ _).mp occurs, rfl⟩
  · rintro ⟨capital, inside, capitalized, rfl⟩
    have gone := (order.perm _).mem_iff.mpr inside
    exact ⟨(capital, text), List.mem_filter.mpr ⟨gone, (Text.occursIn_iff _ _).mpr capitalized⟩, rfl⟩

theorem mem_names_aliases_iff (token : String) : token ∈ Members.names (table.aliases order) ↔ IsAlias table token := by
  rw [Members.names, List.mem_map]
  constructor
  · rintro ⟨⟨_, text⟩, member, rfl⟩
    obtain ⟨capital, inside, capitalized, same⟩ := (mem_aliases_iff _ _).mp member
    exact ⟨capital, List.mem_map_of_mem inside, capitalized, same⟩
  · rintro ⟨capital, listed, capitalized, same⟩
    obtain ⟨⟨_, text⟩, inside, rfl⟩ := List.mem_map.mp listed
    exact ⟨(token, text), (mem_aliases_iff _ _).mpr ⟨_, inside, capitalized, same⟩, rfl⟩

theorem not_capitalized_of_isAlias {token : String} (isAlias : IsAlias table token) : ¬ Capitalized token := by
  obtain ⟨capital, -, -, rfl⟩ := isAlias
  exact not_capitalized_aliasOf capital

theorem distinct_aliases (distinct : Members.Distinct table.tokens) (apart : AliasesApart table) :
    Members.Distinct table.aliases := by
  have listed : Members.names table.aliases =
      (Members.names (table.tokens.filter fun entry => Text.occursIn capitalizedStart entry.1)).map aliasOf := by
    simp [Members.names, aliases, aliasOf, TokenOrder.asListed]
  rw [Members.Distinct, listed]
  refine List.Nodup.map_on ?_ (distinct.sublist (List.filter_sublist.map Prod.fst))
  intro first left second right same
  obtain ⟨one, member, rfl⟩ := List.mem_map.mp left
  obtain ⟨other, also, rfl⟩ := List.mem_map.mp right
  rw [List.mem_filter, Text.occursIn_iff] at member also
  exact apart _ (List.mem_map_of_mem member.1) _ (List.mem_map_of_mem also.1) member.2 also.2 same

/-- Of the tokens with one alias, the one that is gone through last gives it its text. -/
theorem get?_normalizeCase (table : StringTable) (order : TokenOrder) (token : String) :
    (table.normalizeCase order).get? token = (Members.at? (table.aliases order).reverse token).or (table.get? token) := by
  rw [get?, normalizeCase, Members.at?_putAll, Members.at?_putAll]
  cases gone : Members.at? (table.aliases order).reverse token with
  | some text => rfl
  | none =>
    -- what is gone through in one order is gone through in the other
    have absent : Members.at? table.aliases.reverse token = none := by
      rw [Members.at?_eq_none_iff, Members.names, List.map_reverse, List.mem_reverse, ← Members.names,
        mem_names_aliases_iff] at gone ⊢
      exact gone
    rw [absent, Option.none_or]
    rfl

/-- Where the aliases are apart, the order does not matter. -/
theorem tokens_normalizeCase (distinct : Members.Distinct table.tokens) (apart : AliasesApart table)
    (order : TokenOrder) : (table.normalizeCase order).tokens = Members.putAll table.tokens table.aliases := by
  apply Members.putAll_of_at?
  rintro ⟨token, text⟩ member
  have listed : (token, text) ∈ table.aliases := (mem_aliases_iff token text).mpr ((mem_aliases_iff token text).mp member)
  have given := (Members.at?_eq_some_iff (distinct_aliases distinct apart)).mpr listed
  rw [Members.at?_putAll, Members.at?_reverse (distinct_aliases distinct apart), given, Option.some_or]

theorem normalizeCase_order (distinct : Members.Distinct table.tokens) (apart : AliasesApart table)
    (order other : TokenOrder) : table.normalizeCase order = table.normalizeCase other := by
  have same := (tokens_normalizeCase distinct apart order).trans (tokens_normalizeCase distinct apart other).symm
  exact StringTable.ext same rfl

theorem get?_normalizeCase_of_apart (distinct : Members.Distinct table.tokens) (apart : AliasesApart table)
    (token : String) :
    (table.normalizeCase order).get? token = (Members.at? table.aliases token).or (table.get? token) := by
  rw [normalizeCase_order distinct apart order .asListed, get?_normalizeCase,
    Members.at?_reverse (distinct_aliases distinct apart)]

theorem aliased_normalizeCase (distinct : Members.Distinct table.tokens) (apart : AliasesApart table) :
    Aliased table (table.normalizeCase order) := by
  have others (token : String) (other : ¬ IsAlias table token) :
      (table.normalizeCase order).get? token = table.get? token := by
    have absent := (Members.at?_eq_none_iff table.aliases token).mpr (mt (mem_names_aliases_iff token).mp other)
    rw [get?_normalizeCase_of_apart distinct apart, absent, Option.none_or]
  refine ⟨?_, ?_, others, ?_, rfl⟩
  · intro token
    rw [tokens_normalizeCase distinct apart, Members.mem_names_putAll, mem_names_aliases_iff]
  · intro capital listed capitalized
    obtain ⟨⟨_, text⟩, member, rfl⟩ := List.mem_map.mp listed
    have own : table.get? _ = some text := (Members.at?_eq_some_iff distinct).mpr member
    have given := (Members.at?_eq_some_iff (distinct_aliases distinct apart)).mpr
      ((mem_aliases_iff _ text).mpr ⟨_, member, capitalized, rfl⟩)
    rw [get?_normalizeCase_of_apart distinct apart, given, own, Option.some_or]
  · intro token capitalized
    exact others token fun isAlias => not_capitalized_of_isAlias isAlias capitalized

theorem filter_aliases (table : StringTable) :
    table.aliases.filter (fun entry => Text.occursIn capitalizedStart entry.1) = [] := by
  rw [List.filter_eq_nil_iff]
  intro entry member occurs
  have isAlias := (mem_names_aliases_iff entry.1).mp (List.mem_map_of_mem member)
  exact not_capitalized_of_isAlias isAlias ((Text.occursIn_iff _ _).mp occurs)

/-- Aliases are not capitalized, so they have no aliases themselves. -/
theorem aliases_putAll (table : StringTable) :
    aliases { table with tokens := Members.putAll table.tokens table.aliases } = table.aliases := by
  have kept := Members.filter_putAll (Text.occursIn capitalizedStart) table.tokens table.aliases
  rw [filter_aliases] at kept
  rw [aliases]
  exact congrArg (List.map _) kept

theorem normalizeCase_normalizeCase (distinct : Members.Distinct table.tokens) (apart : AliasesApart table)
    (other : TokenOrder) : (table.normalizeCase order).normalizeCase other = table.normalizeCase order := by
  have tokens := tokens_normalizeCase distinct apart order
  have aliases : (table.normalizeCase order).aliases = table.aliases := by
    rw [← aliases_putAll table, ← tokens]
    rfl
  have known : ∀ entry ∈ table.aliases, Members.at? (table.normalizeCase order).tokens entry.1 = some entry.2 := by
    intro entry member
    have given := (Members.at?_eq_some_iff (distinct_aliases distinct apart)).mpr member
    rw [← get?, get?_normalizeCase_of_apart distinct apart, given, Option.some_or]
  have again : ∀ entry ∈ (table.normalizeCase order).aliases other,
      Members.at? (table.normalizeCase order).tokens entry.1 = some entry.2 := by
    rintro ⟨token, text⟩ member
    apply known
    rw [← aliases, mem_aliases_iff]
    exact (mem_aliases_iff token text).mp member
  rw [normalizeCase, aliases, Members.putAll_of_at? known, Members.putAll_of_at? again]

theorem aliases_stripMarkup (table : StringTable) :
    table.stripMarkup.aliases = Members.mapValues Markup.stripTags table.aliases := by
  simp [aliases, stripMarkup, Members.mapValues, List.filter_map, Function.comp_def, TokenOrder.asListed]

theorem names_stripMarkup (table : StringTable) : Members.names table.stripMarkup.tokens = Members.names table.tokens := by
  simp [Members.names, stripMarkup, Members.mapValues]

theorem distinct_stripMarkup (distinct : Members.Distinct table.tokens) : Members.Distinct table.stripMarkup.tokens := by
  rw [Members.Distinct, names_stripMarkup]
  exact distinct

theorem AliasesApart.stripMarkup (apart : AliasesApart table) : AliasesApart table.stripMarkup := by
  rw [AliasesApart, names_stripMarkup]
  exact apart

theorem normalizeCase_stripMarkup (distinct : Members.Distinct table.tokens) (apart : AliasesApart table)
    (order other : TokenOrder) : table.stripMarkup.normalizeCase order = (table.normalizeCase other).stripMarkup := by
  refine StringTable.ext ?_ rfl
  rw [tokens_normalizeCase (distinct_stripMarkup distinct) apart.stripMarkup, aliases_stripMarkup, stripMarkup, stripMarkup,
    tokens_normalizeCase distinct apart, Members.mapValues_putAll]

/-- Normalizing the case of tokens adds the aliases and nothing else, in whatever order the tokens are gone through. It may be
done again, and before or after markup is dropped. -/
theorem normalizeCase_adds_aliases (distinct : Members.Distinct table.tokens) (apart : AliasesApart table)
    (order other : TokenOrder) :
    Aliased table (table.normalizeCase order) ∧
      (table.normalizeCase order).normalizeCase other = table.normalizeCase order ∧
      table.stripMarkup.normalizeCase order = (table.normalizeCase other).stripMarkup :=
  ⟨aliased_normalizeCase distinct apart, normalizeCase_normalizeCase distinct apart other,
    normalizeCase_stripMarkup distinct apart order other⟩

/-- An alias that is there already, and a token with the capitalized start in two places. The tokens are gone through backwards
the second time. -/
theorem normalizeCase_adds_aliases_twice :
    let table : StringTable := ⟨[("DOTA_Tooltip_Ability_a", "<b>A</b>"), ("DOTA_Tooltip_ability_a", "old"),
      ("x_DOTA_Tooltip_Ability_DOTA_Tooltip_Ability_b", "B"), ("plain", "p")], "english"⟩
    let normal := table.normalizeCase
    Members.names normal.tokens = Members.names table.tokens ++ ["x_DOTA_Tooltip_ability_DOTA_Tooltip_ability_b"] ∧
      normal.get? "DOTA_Tooltip_ability_a" = some "<b>A</b>" ∧ normal.get? "DOTA_Tooltip_Ability_a" = some "<b>A</b>" ∧
      normal.get? "x_DOTA_Tooltip_ability_DOTA_Tooltip_ability_b" = some "B" ∧ normal.get? "plain" = some "p" ∧
      normal.normalizeCase .reversed = normal ∧ table.stripMarkup.normalizeCase = normal.stripMarkup := by
  intro table normal
  have distinct : Members.Distinct table.tokens := by
    unfold Members.Distinct
    decide
  have apart : AliasesApart table := by
    unfold AliasesApart Capitalized
    decide +kernel
  obtain ⟨aliased, -, stripped⟩ := normalizeCase_adds_aliases distinct apart .asListed .asListed
  have again := (normalizeCase_adds_aliases distinct apart .asListed .reversed).2.1
  have once : aliasOf "DOTA_Tooltip_Ability_a" = "DOTA_Tooltip_ability_a" := by decide +kernel
  have twice : aliasOf "x_DOTA_Tooltip_Ability_DOTA_Tooltip_Ability_b" = "x_DOTA_Tooltip_ability_DOTA_Tooltip_ability_b" := by
    decide +kernel
  have first : Capitalized "DOTA_Tooltip_Ability_a" := by
    unfold Capitalized
    decide
  have second : Capitalized "x_DOTA_Tooltip_Ability_DOTA_Tooltip_Ability_b" := by
    unfold Capitalized
    decide
  have plain : ¬ IsAlias table "plain" := by
    unfold IsAlias Capitalized
    decide +kernel
  refine ⟨by decide +kernel, ?_, aliased.capitals _ first, ?_, aliased.others "plain" plain, again, stripped⟩
  · rw [← once]
    exact aliased.aliases _ (by decide) first
  · rw [← twice]
    exact aliased.aliases _ (by decide) second

end

end Compendium.StringTable
