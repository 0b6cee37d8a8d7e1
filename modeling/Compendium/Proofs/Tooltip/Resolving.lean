import Compendium.Proofs.Tooltip.Leftover
import Compendium.Proofs.Tooltip.Markup
import Compendium.Proofs.Tooltip.Substitution

/-! What is left in a resolved description. New tags and tokens can only come from percent signs and brackets that are put
in for its tokens. -/

set_option autoImplicit false
namespace Compendium.Resolver

theorem suffix_of_afterLabel? {text after : List Char} (found : afterLabel? text = some after) : after <:+ text := by
  unfold afterLabel? at found
  split at found
  · next rest =>
    obtain ⟨⟨name, last⟩, token, rfl⟩ := Option.map_eq_some_iff.mp found
    obtain ⟨-, rfl⟩ := TokenGrammar.isName_of_token? token
    exact ⟨':' :: ' ' :: '%' :: (name ++ ['%']), by simp⟩
  · cases found

theorem dropLabels_sublist (text : List Char) : (dropLabels text).Sublist text := by
  fun_induction dropLabels text with
  | case1 => exact List.Sublist.refl _
  | case2 c rest label after found ih =>
    have suffix := (suffix_of_afterLabel? found).trans (List.dropWhile_suffix inLabel)
    exact ih.trans (suffix.trans (List.suffix_cons c rest)).sublist
  | case3 c rest label none ih => exact ih.cons_cons c
  | case4 c rest other ih => exact ih.cons_cons c

/-- Taking the count of tomes out brings in zeros only. -/
theorem filter_withoutTomes_sublist {keep : Char → Bool} (zero : keep '0' = false) (template : String) :
    ((withoutTomes template).toList.filter keep).Sublist (template.toList.filter keep) := by
  rw [withoutTomes]
  split
  · have silent : "0".toList.filter keep = [] := by simp [zero]
    have spelled : tomesToken.toList = '%' :: "customval_team_tomes_used%".toList := by decide
    have dropped : (String.ofList (dropLabels template.toList)).toList = dropLabels template.toList := String.toList_ofList
    rw [Text.toList_replaceAll spelled, dropped]
    exact (Text.filter_replaceAllChars_sublist keep silent _).trans ((dropLabels_sublist _).filter keep)
  · exact List.Sublist.refl _

/-- Neither a percent sign nor a bracket of a tag is put in for the name. -/
def ShowsPlainly (resolver : Resolver) (name : String) : Prop :=
  ∀ c ∈ (resolver.shown name).toList, c ≠ '%' ∧ c ≠ '<' ∧ c ≠ '>'

section
variable {resolver : Resolver} {template : String} {parts : TokenGrammar.Parts}

theorem tagFree_substitute (free : Markup.TagFree template.toList)
    (splits : TokenGrammar.anyName.Splits (withoutTomes template).toList parts)
    (plain : ∀ name ∈ parts.names, resolver.ShowsPlainly name) : Markup.TagFree (parts.filled resolver.shown) := by
  have silent : ∀ name ∈ parts.names, (resolver.shown name).toList.filter Markup.isBracket = [] := by
    intro name member
    rw [List.filter_eq_nil_iff]
    intro c inside
    have := plain name member c inside
    simp [Markup.isBracket, this]
  apply free.of_brackets
  exact (splits.filter_filled_sublist _ silent).trans (filter_withoutTomes_sublist (by decide) template)

/-- A description without tags has no token left once it is resolved, if all its names are shown plainly. -/
theorem not_holdsToken_resolveText {grammar : TokenGrammar}
    (narrower : ∀ c, grammar.inName c = true → TokenGrammar.anyName.inName c = true) (inLine : grammar.inName '\n' = false)
    (free : Markup.TagFree template.toList) (splits : TokenGrammar.anyName.Splits (withoutTomes template).toList parts)
    (plain : ∀ name ∈ parts.names, resolver.ShowsPlainly name) :
    ¬ grammar.HoldsToken (resolver.resolveText template).value.toList := by
  have tagFree := tagFree_substitute free splits plain
  have unescaped : Markup.TagFree (Text.replaceAllChars '\\' ['n'] ['\n'] (parts.filled resolver.shown)) :=
    tagFree.of_brackets (Text.filter_replaceAllChars_sublist _ (by decide) _)
  have value : (resolver.resolveText template).value.toList =
      Text.replaceAllChars '\\' ['n'] ['\n'] (parts.filled resolver.shown) := by
    rw [value_resolveText, Markup.toList_stripTags, Markup.toList_unescapeNewlines, value_substitute,
      String.toList_ofList, ← (TokenGrammar.splits_iff TokenGrammar.anyName_unmarked _ _).mp splits,
      unescaped.stripTagChars_eq]
  rw [value]
  rintro ⟨name, isName, inside⟩
  -- a new line that was written out is no part of a token, so the token stood in the text before
  have noBreak : '\n' ∉ TokenGrammar.written name := by
    intro member
    simp only [TokenGrammar.written, List.mem_cons, List.mem_append, List.not_mem_nil, or_false] at member
    rcases member with same | member | same
    · cases same
    · rw [isName.1 _ member] at inLine
      cases inLine
    · cases same
  have before := Text.infix_of_infix_replaceAllChars noBreak _ inside
  have holds : grammar.HoldsToken (parts.filled resolver.shown) := ⟨name, isName, before⟩
  apply splits.not_holdsToken_filled rfl ?_ (holds.mono narrower rfl)
  exact fun name member percent => (plain name member '%' percent).1 rfl

end

end Compendium.Resolver
