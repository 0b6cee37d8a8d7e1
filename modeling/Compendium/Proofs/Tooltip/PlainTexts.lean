import Compendium.Catalog.Script
import Compendium.Proofs.Tooltip.Sorting
import Compendium.Proofs.Tooltip.Substitution
import Compendium.Proofs.Tooltip.Symbols

/-! Plain texts. Whatever is put in for the tokens of a template, the tags are dropped last, and what is left of a text without
its tags holds no tag of its own: no bracket that stays can be closed by what comes behind it. -/

set_option autoImplicit false
namespace Compendium

namespace Markup

theorem stripTags_eq_self_iff (text : String) : stripTags text = text ↔ TagFree text.toList := by
  constructor
  · intro same
    rw [← same]
    exact tagFree_stripTags text
  · intro free
    rw [← String.toList_inj, toList_stripTags]
    exact free.stripTagChars_eq

theorem stripTags_stripTags (text : String) : stripTags (stripTags text) = stripTags text :=
  (stripTags_eq_self_iff (stripTags text)).mpr (tagFree_stripTags text)

/-- What is dropped are whole tags, from the left and one beside the other; all else shows. -/
theorem exists_shown_stripTags (text : String) :
    ∃ symbols, Legible symbols ∧ write symbols = text.toList ∧ shown symbols = (stripTags text).toList := by
  refine ⟨read text.toList, legible_read text.toList, write_read text.toList, ?_⟩
  rw [toList_stripTags, stripTagChars_eq]

end Markup

theorem ItemText.tagFree_hint {script : Document} {lines : List String} {hint : String}
    (member : hint ∈ (ofLines lines script).value.hints) : Markup.TagFree hint.toList := by
  obtain ⟨line, -, rfl⟩ := exists_line_of_hint member
  exact Markup.tagFree_stripTags _

namespace Resolver

/-- No tag is left in a template that is resolved to plain text, with a resolver or from a script alone, nor in the hints of a
description. Tags are dropped once and for all, and a text stays as it is just where it has none. -/
theorem plain_texts_tagFree (resolver : Resolver) (template : String) :
    Markup.TagFree (resolver.resolveText template).value.toList ∧
      (∀ hint ∈ (resolver.resolveItem template).value.hints, Markup.TagFree hint.toList) ∧
      (∀ script, Markup.TagFree (Lookup.resolve template script).toList) ∧
      (∀ lines script, ∀ hint ∈ (ItemText.ofLines lines script).value.hints, Markup.TagFree hint.toList) ∧
      ∀ text, Markup.stripTags (Markup.stripTags text) = Markup.stripTags text ∧
        (Markup.stripTags text = text ↔ Markup.TagFree text.toList) ∧
        ∃ symbols, Markup.Legible symbols ∧ Markup.write symbols = text.toList ∧
          Markup.shown symbols = (Markup.stripTags text).toList := by
  refine ⟨?_, ?_, ?_, ?_, ?_⟩
  · rw [value_resolveText]
    exact Markup.tagFree_stripTags _
  · intro hint member
    rw [resolveItem, Report.value_bind] at member
    exact ItemText.tagFree_hint member
  · intro script
    exact Markup.tagFree_stripTags _
  · intro lines script hint member
    exact ItemText.tagFree_hint member
  · intro text
    exact ⟨Markup.stripTags_stripTags text, Markup.stripTags_eq_self_iff text, Markup.exists_shown_stripTags text⟩

/-- A value that opens a tag: one that the template closes, and one that stays open. -/
theorem plain_texts_tagFree_opened :
    let script : Document := .table [("AbilityValues", .table [("mark", .text "<font")])]
    let resolver := create (Script.attributes script) script "nova"
    let template := "%mark% red>1>0%mark%"
    (resolver.resolveText template).value = "1>0<font" ∧ Lookup.resolve template script = "1>0<font" ∧
      (resolver.resolveItem template).value.hints = ["1>0<font"] ∧
      Markup.TagFree (Lookup.resolve template script).toList ∧
      ∀ hint ∈ (resolver.resolveItem template).value.hints, Markup.TagFree hint.toList := by
  intro script resolver template
  obtain ⟨-, hints, lookedUp, -, -⟩ := plain_texts_tagFree resolver template
  exact ⟨by decide +kernel, by decide +kernel, by decide +kernel, lookedUp script, hints⟩

end Resolver
end Compendium
