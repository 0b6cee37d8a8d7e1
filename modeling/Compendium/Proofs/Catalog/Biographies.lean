import Compendium.Catalog.Biography
import Compendium.Proofs.Document.Members
import Compendium.Proofs.Text.Occurrence
import Compendium.Proofs.Tooltip.LineBreaks
import Mathlib

/-! The tokens that biographies come from. A token has the name of its hero in one way only, so that no biography is written
over another one, and a text loses its tabs before its line break tags are looked for. -/

set_option autoImplicit false
namespace Compendium.Biography

/-- The token of the biography of a hero. -/
def tokenOf (hero : String) : String :=
  "npc_dota_hero_" ++ hero ++ "_bio"

/-- The start and the end of a token do not overlap: there is a name between them, if only the empty one. -/
theorem heroOf?_eq_some_iff (token hero : String) : heroOf? token = some hero ↔ token = tokenOf hero := by
  rw [heroOf?, Option.bind_eq_some_iff]
  simp only [Text.dropStart?_eq_some_iff, Text.dropEnd?_eq_some_iff]
  constructor
  · rintro ⟨rest, rfl, rfl⟩
    rw [tokenOf, String.append_assoc]
  · rintro rfl
    exact ⟨hero ++ "_bio", by rw [tokenOf, String.append_assoc], rfl⟩

/-- A biography shows its text without the tabs, and with new lines for the line break tags that there are then. -/
def Shows (text biography : String) : Prop :=
  Markup.Breaks (text.toList.filter (· != '\t')) biography.toList

theorem clean_eq_iff (text biography : String) : clean text = biography ↔ Shows text biography := by
  have tabless : (Text.replaceAll text "\t" "").toList = text.toList.filter (· != '\t') :=
    (Text.toList_replaceAll rfl text "").trans (Text.replaceAllChars_single text.toList)
  rw [clean, Markup.breakLines, tabless, Shows, ← Markup.breakLineChars_eq_iff, ← String.toList_inj, String.toList_ofList]

theorem Shows.tabless {text biography : String} (shows : Shows text biography) : '\t' ∉ biography.toList := by
  intro tab
  rcases shows.mem tab with new | kept
  · exact absurd new (by decide)
  · exact absurd (List.mem_filter.mp kept).2 (by decide)

/-- Which biographies there are: one for each token of a hero that is a text, in the order of the tokens. -/
inductive Kept : List (String × Document) → List (String × String) → Prop where
  | nil : Kept [] []
  | biography {hero text biography : String} {tokens : List (String × Document)} {kept : List (String × String)} :
      Shows text biography → Kept tokens kept →
      Kept ((tokenOf hero, .text text) :: tokens) ((hero, biography) :: kept)
  | other {token : String} {value : Document} {tokens : List (String × Document)} {kept : List (String × String)} :
      (∀ hero text, ¬ (token = tokenOf hero ∧ value = .text text)) → Kept tokens kept → Kept ((token, value) :: tokens) kept

/-- What one token adds. -/
def biography? (entry : String × Document) : Option (String × String) :=
  (heroOf? entry.1).bind fun hero => entry.2.text?.map fun text => (hero, clean text)

def told (entry : String × Document) : List Notice :=
  if (heroOf? entry.1).isNone then [.skippedLoreToken entry.1] else []

theorem addToken_eq (biographies : Members String) (entry : String × Document) :
    addToken biographies entry = ⟨Members.putAll biographies (biography? entry).toList, told entry⟩ := by
  obtain ⟨token, value⟩ := entry
  rw [addToken, biography?, told]
  cases heroOf? token with
  | none => rfl
  | some hero =>
    cases value.text? with
    | none => rfl
    | some text => rfl

theorem foldlM_addToken (biographies : Members String) (tokens : List (String × Document)) :
    tokens.foldlM addToken biographies =
      ⟨Members.putAll biographies (tokens.filterMap biography?), tokens.flatMap told⟩ := by
  induction tokens generalizing biographies with
  | nil => rfl
  | cons entry rest ih =>
    rw [List.foldlM_cons, addToken_eq]
    -- a token without a biography adds its notice only
    simp only [bind, Report.bind, ih, List.flatMap_cons, List.filterMap_cons]
    cases biography? entry with
    | none => rfl
    | some biography => rfl

theorem text?_eq_some_iff (value : Document) (text : String) : value.text? = some text ↔ value = .text text := by
  cases value <;> simp [Document.text?]

theorem biography?_eq_some_iff (token : String) (value : Document) (hero biography : String) :
    biography? (token, value) = some (hero, biography) ↔
      ∃ text, (token = tokenOf hero ∧ value = .text text) ∧ Shows text biography := by
  simp only [biography?, Option.bind_eq_some_iff, Option.map_eq_some_iff, heroOf?_eq_some_iff, text?_eq_some_iff,
    ← clean_eq_iff, Prod.mk.injEq]
  constructor
  · rintro ⟨_, named, text, shown, rfl, rfl⟩
    exact ⟨text, ⟨named, shown⟩, rfl⟩
  · rintro ⟨text, ⟨named, shown⟩, rfl⟩
    exact ⟨hero, named, text, shown, rfl, rfl⟩

theorem kept_filterMap (tokens : List (String × Document)) : Kept tokens (tokens.filterMap biography?) := by
  induction tokens with
  | nil => exact .nil
  | cons entry rest ih =>
    obtain ⟨token, value⟩ := entry
    cases found : biography? (token, value) with
    | none =>
      rw [List.filterMap_cons_none found]
      refine .other ?_ ih
      rintro hero text token
      have some := (biography?_eq_some_iff _ _ hero (clean text)).mpr ⟨text, token, (clean_eq_iff _ _).mp rfl⟩
      rw [found] at some
      cases some
    | some added =>
      obtain ⟨hero, biography⟩ := added
      obtain ⟨text, ⟨rfl, rfl⟩, shows⟩ := (biography?_eq_some_iff _ _ _ _).mp found
      rw [List.filterMap_cons_some found]
      exact .biography shows ih

section
variable {tokens : List (String × Document)} {kept : List (String × String)}

theorem Kept.mem (all : Kept tokens kept) {hero biography : String} (member : (hero, biography) ∈ kept) :
    ∃ text, (tokenOf hero, .text text) ∈ tokens ∧ Shows text biography := by
  induction all with
  | nil => cases member
  | biography shows _ ih =>
    rcases List.mem_cons.mp member with same | later
    · obtain ⟨rfl, rfl⟩ := Prod.mk.inj same
      exact ⟨_, List.mem_cons_self, shows⟩
    · obtain ⟨text, inside, shows⟩ := ih later
      exact ⟨text, List.mem_cons_of_mem _ inside, shows⟩
  | other _ _ ih =>
    obtain ⟨text, inside, shows⟩ := ih member
    exact ⟨text, List.mem_cons_of_mem _ inside, shows⟩

/-- Tokens that are told apart belong to different heroes. -/
theorem Kept.distinct (all : Kept tokens kept) (distinct : Members.Distinct tokens) : Members.Distinct kept := by
  induction all with
  | nil => exact List.nodup_nil
  | biography _ later ih =>
    obtain ⟨fresh, rest⟩ := List.nodup_cons.mp distinct
    refine List.nodup_cons.mpr ⟨?_, ih rest⟩
    -- a name that comes again has the same token, and that one has been before
    intro again
    obtain ⟨⟨hero, biography⟩, member, rfl⟩ := List.mem_map.mp again
    obtain ⟨text, inside, -⟩ := later.mem member
    exact fresh (List.mem_map.mpr ⟨_, inside, rfl⟩)
  | other _ _ ih => exact ih (List.nodup_cons.mp distinct).2

end

theorem ofLore_eq {lore : Document} {tokens : Members Document} (distinct : Members.Distinct tokens)
    (found : lore.member? "tokens" = some (.table tokens)) :
    ofLore lore = .ok ⟨tokens.filterMap biography?, tokens.flatMap told⟩ := by
  have block : Script.block lore "tokens" "hero_lore" = .ok tokens := by
    rw [Script.block, found]
    rfl
  have pairs := Members.ofPairs_of_distinct ((kept_filterMap tokens).distinct distinct)
  rw [Members.ofPairs] at pairs
  rw [ofLore, block, ← pairs]
  exact congrArg Except.ok (foldlM_addToken [] tokens)

/-- Each token of a hero that is a text has its own biography, there are no others, and they stand in the order of the tokens.
No hero has two tokens, and no biography has a tab or a line break tag. -/
theorem ofLore_keeps_biographies {lore : Document} {tokens : Members Document} (wellFormed : lore.WellFormed)
    (found : lore.member? "tokens" = some (.table tokens)) :
    ∃ report, ofLore lore = .ok report ∧ Kept tokens report.value ∧ Members.Distinct report.value ∧
      (∀ token hero, heroOf? token = some hero ↔ token = tokenOf hero) ∧
      (∀ first second hero, heroOf? first = some hero → heroOf? second = some hero → first = second) ∧
      ∀ entry ∈ report.value, '\t' ∉ entry.2.toList ∧ Markup.LineBreakFree entry.2.toList := by
  have distinct : Members.Distinct tokens := (wellFormed.member? found).distinct
  have kept := kept_filterMap tokens
  refine ⟨_, ofLore_eq distinct found, kept, kept.distinct distinct, heroOf?_eq_some_iff, ?_, ?_⟩
  · intro first second hero left right
    rw [heroOf?_eq_some_iff] at left right
    exact left.trans right.symm
  · rintro ⟨hero, biography⟩ member
    obtain ⟨text, -, shows⟩ := kept.mem member
    exact ⟨shows.tabless, Markup.Breaks.lineBreakFree shows⟩

/-- A tag that is one without its tab, a token with no room for a name, one with the empty name, and one that is no text. -/
theorem ofLore_keeps_biographies_joined :
    let tokens : Members Document := [("npc_dota_hero_axe_bio", .text "x<b\tr>y<BR />z"), ("npc_dota_hero_bio", .text "none"),
      ("npc_dota_hero__bio", .text "<br\t/>"), ("npc_dota_hero_lina_bio", .null)]
    let lore : Document := .table [("tokens", .table tokens)]
    lore.WellFormed ∧ lore.member? "tokens" = some (.table tokens) ∧
      ∃ report, ofLore lore = .ok report ∧ report.value = [("axe", "x\ny\nz"), ("", "\n")] ∧
        ∀ entry ∈ report.value, '\t' ∉ entry.2.toList ∧ Markup.LineBreakFree entry.2.toList := by
  intro tokens lore
  have wellFormed : lore.WellFormed := by
    simp [lore, tokens, Document.WellFormed, Document.WellFormedMembers, Members.Distinct, Members.names]
  have found : lore.member? "tokens" = some (.table tokens) := rfl
  obtain ⟨report, made, -, -, -, -, clean⟩ := ofLore_keeps_biographies wellFormed found
  have run : ofLore lore = .ok ⟨[("axe", "x\ny\nz"), ("", "\n")], [.skippedLoreToken "npc_dota_hero_bio"]⟩ := by cbv
  obtain rfl := Except.ok.inj (run.symm.trans made)
  exact ⟨wellFormed, found, _, run, rfl, clean⟩

end Compendium.Biography
