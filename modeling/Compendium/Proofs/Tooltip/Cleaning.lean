import Compendium.Proofs.Tooltip.Substitution
import Compendium.Proofs.Tooltip.Symbols

/-! Cleaning a text that has no tokens. Escaped new lines are written out before tags are dropped, so an escape that is
broken by tags is mended by the cleaning and read as one only when the text is cleaned again. -/

set_option autoImplicit false
namespace Compendium

namespace Markup

/-- Tags and nothing else stand before an `n`. -/
def LeadsToN (symbols : List Symbol) : Prop :=
  ∃ tags, (∀ symbol ∈ tags, symbol.isTag = true) ∧ tags ++ [.char 'n'] <+: symbols

/-- Tags and nothing else stand between a backslash and an `n`. -/
def HoldsBrokenEscape (symbols : List Symbol) : Prop :=
  ∃ tags, tags ≠ [] ∧ (∀ symbol ∈ tags, symbol.isTag = true) ∧ .char '\\' :: (tags ++ [.char 'n']) <:+: symbols

/-- Escaped new lines written out, those within tags too. -/
def unescapeSymbols : List Symbol → List Symbol
  | [] => []
  | .tag inner :: rest => .tag (Text.replaceAllChars '\\' ['n'] ['\n'] inner) :: unescapeSymbols rest
  | .char '\\' :: .char 'n' :: rest => .char '\n' :: unescapeSymbols rest
  | .char c :: rest => .char c :: unescapeSymbols rest

theorem leadsToN_char_iff (c : Char) (rest : List Symbol) : LeadsToN (.char c :: rest) ↔ c = 'n' := by
  constructor
  · rintro ⟨_ | ⟨symbol, tags⟩, onlyTags, start⟩
    · exact (Symbol.char.inj (List.cons_prefix_cons.mp start).1).symm
    · obtain rfl := (List.cons_prefix_cons.mp start).1
      cases onlyTags _ List.mem_cons_self
  · rintro rfl
    exact ⟨[], by simp, by simp⟩

theorem leadsToN_tag_iff (inner : List Char) (rest : List Symbol) : LeadsToN (.tag inner :: rest) ↔ LeadsToN rest := by
  constructor
  · rintro ⟨_ | ⟨symbol, tags⟩, onlyTags, start⟩
    · cases (List.cons_prefix_cons.mp start).1
    · exact ⟨tags, fun other member => onlyTags other (List.mem_cons_of_mem _ member), (List.cons_prefix_cons.mp start).2⟩
  · rintro ⟨tags, onlyTags, start⟩
    refine ⟨.tag inner :: tags, ?_, (List.prefix_cons_inj _).mpr start⟩
    exact List.forall_mem_cons.mpr ⟨rfl, onlyTags⟩

theorem holdsBrokenEscape_cons_iff (symbol : Symbol) (rest : List Symbol) : HoldsBrokenEscape (symbol :: rest) ↔
    (symbol = .char '\\' ∧ LeadsToN rest ∧ ¬ [.char 'n'] <+: rest) ∨ HoldsBrokenEscape rest := by
  constructor
  · rintro ⟨tags, some, onlyTags, inside⟩
    rcases List.infix_cons_iff.mp inside with start | later
    · obtain ⟨rfl, behind⟩ := List.cons_prefix_cons.mp start
      refine .inl ⟨rfl, ⟨tags, onlyTags, behind⟩, ?_⟩
      obtain ⟨tag, others, rfl⟩ := List.exists_cons_of_ne_nil some
      rintro ⟨after, rfl⟩
      obtain rfl := (List.cons_prefix_cons.mp behind).1
      cases onlyTags _ List.mem_cons_self
    · exact .inr ⟨tags, some, onlyTags, later⟩
  · rintro (⟨rfl, ⟨tags, onlyTags, start⟩, apart⟩ | ⟨tags, some, onlyTags, later⟩)
    · refine ⟨tags, ?_, onlyTags, ((List.prefix_cons_inj _).mpr start).isInfix⟩
      rintro rfl
      exact apart start
    · exact ⟨tags, some, onlyTags, List.infix_cons later⟩

theorem write_unescapeSymbols (symbols : List Symbol) :
    write (unescapeSymbols symbols) = Text.replaceAllChars '\\' ['n'] ['\n'] (write symbols) := by
  fun_induction unescapeSymbols symbols with
  | case1 =>
    rw [write_nil, Text.replaceAllChars_of_not_infix (by simp)]
  | case2 inner rest ih =>
    have opening : ¬ ['\\', 'n'] <+: '<' :: (inner ++ '>' :: write rest) := by simp
    rw [write_tag, write_tag, ih, Text.replaceAllChars_cons opening,
      Text.replaceAllChars_append_cons (by decide : '>' ∉ ['\\', 'n'])]
  | case3 rest ih =>
    have found : Text.after? '\\' ['n'] ('\\' :: 'n' :: write rest) = some (write rest) :=
      (Text.after?_eq_some_iff _ _ _ _).mpr rfl
    rw [write_char, write_char, write_char, ih, Text.replaceAllChars_of_after? found]
    rfl
  | case4 c rest none ih =>
    have apart : ¬ ['\\', 'n'] <+: c :: write rest := by
      intro start
      obtain ⟨rfl, behind⟩ := List.cons_prefix_cons.mp start
      cases rest with
      | nil => simp at behind
      | cons symbol others =>
        cases symbol with
        | char d =>
          obtain ⟨rfl, -⟩ := List.cons_prefix_cons.mp behind
          exact none others rfl rfl
        | tag inner => simp at behind
    rw [write_char, write_char, ih, Text.replaceAllChars_cons apart]

theorem Legible.unescapeSymbols {symbols : List Symbol} (legible : Legible symbols) : Legible (unescapeSymbols symbols) := by
  -- writing new lines out brings in no bracket that could close a tag
  have closing (text : List Char) (absent : '>' ∉ text) : '>' ∉ Text.replaceAllChars '\\' ['n'] ['\n'] text :=
    fun member => absent (Text.mem_of_mem_replaceAllChars (by decide) member)
  fun_induction Markup.unescapeSymbols symbols with
  | case1 => trivial
  | case2 inner rest ih => exact ⟨closing inner legible.1, ih legible.2⟩
  | case3 rest ih => exact ⟨fun bracket => absurd bracket (by decide), ih legible.2.2⟩
  | case4 c rest none ih =>
    refine ⟨fun bracket => ?_, ih legible.2⟩
    rw [write_unescapeSymbols]
    exact closing _ (legible.1 bracket)

theorem prefix_shown_unescapeSymbols_iff (symbols : List Symbol) :
    ['n'] <+: shown (unescapeSymbols symbols) ↔ LeadsToN symbols := by
  fun_induction unescapeSymbols symbols with
  | case1 => simp [LeadsToN]
  | case2 inner rest ih => rw [shown_tag, ih, leadsToN_tag_iff]
  | case3 rest ih => simp [leadsToN_char_iff]
  | case4 c rest none ih => simp [leadsToN_char_iff, eq_comm]

/-- Cleaning leaves an escape just where it mends one. -/
theorem infix_shown_unescapeSymbols_iff (symbols : List Symbol) :
    ['\\', 'n'] <:+: shown (unescapeSymbols symbols) ↔ HoldsBrokenEscape symbols := by
  fun_induction unescapeSymbols symbols with
  | case1 => simp [HoldsBrokenEscape]
  | case2 inner rest ih => simp [shown_tag, ih, holdsBrokenEscape_cons_iff]
  | case3 rest ih =>
    rw [shown_char, List.infix_cons_iff, ih, holdsBrokenEscape_cons_iff, holdsBrokenEscape_cons_iff]
    simp
  | case4 c rest none ih =>
    rw [shown_char, List.infix_cons_iff, ih, holdsBrokenEscape_cons_iff, List.cons_prefix_cons,
      prefix_shown_unescapeSymbols_iff]
    have apart : c = '\\' → ¬ [.char 'n'] <+: rest := by
      rintro rfl ⟨others, rfl⟩
      exact none others rfl rfl
    have same : '\\' = c ∧ LeadsToN rest ↔
        Symbol.char c = .char '\\' ∧ LeadsToN rest ∧ ¬ [.char 'n'] <+: rest := by
      rw [Symbol.char.injEq]
      constructor
      · rintro ⟨rfl, leads⟩
        exact ⟨rfl, leads, apart rfl⟩
      · rintro ⟨rfl, leads, -⟩
        exact ⟨rfl, leads⟩
    rw [same]

/-- What cleaning makes of a text. -/
def clean (text : List Char) : List Char :=
  stripTagChars (Text.replaceAllChars '\\' ['n'] ['\n'] text)

theorem clean_eq (text : List Char) : clean text = shown (unescapeSymbols (read text)) := by
  have written : Text.replaceAllChars '\\' ['n'] ['\n'] text = write (unescapeSymbols (read text)) := by
    rw [write_unescapeSymbols, write_read]
  rw [clean, written, stripTagChars_write (legible_read text).unescapeSymbols]

theorem infix_clean_iff (text : List Char) : ['\\', 'n'] <:+: clean text ↔ HoldsBrokenEscape (read text) := by
  rw [clean_eq, infix_shown_unescapeSymbols_iff]

theorem tagFree_clean (text : List Char) : TagFree (clean text) :=
  tagFree_stripTagChars _

theorem clean_of_tagFree {text : List Char} (free : TagFree text) :
    clean text = Text.replaceAllChars '\\' ['n'] ['\n'] text := by
  have unescaped : TagFree (Text.replaceAllChars '\\' ['n'] ['\n'] text) :=
    free.of_brackets (Text.filter_replaceAllChars_sublist _ (by decide) _)
  rw [clean, unescaped.stripTagChars_eq]

/-- A clean text stays as it is if no escape was mended in it. -/
theorem clean_clean_eq_iff (text : List Char) : clean (clean text) = clean text ↔ ¬ HoldsBrokenEscape (read text) := by
  rw [← infix_clean_iff, clean_of_tagFree (tagFree_clean text)]
  constructor
  · intro same
    rw [← same]
    exact Text.not_infix_replaceAllChars (by decide) _
  · exact Text.replaceAllChars_of_not_infix

theorem clean_clean_clean (text : List Char) : clean (clean (clean text)) = clean (clean text) := by
  have once := tagFree_clean text
  have twice := tagFree_clean (clean text)
  rw [clean_of_tagFree twice, clean_of_tagFree once]
  exact Text.replaceAllChars_of_not_infix (Text.not_infix_replaceAllChars (by decide) _)

end Markup

namespace Resolver

theorem startsToken_percent {grammar : TokenGrammar} {text : List Char} (starts : grammar.StartsToken text) :
    '%' ∈ text := by
  obtain ⟨name, rest, -, rfl⟩ := starts
  exact List.mem_cons_self

theorem substitute_of_tokenless (resolver : Resolver) {template : String} (tokenless : '%' ∉ template.toList) :
    resolver.substitute template = ⟨template, []⟩ := by
  have tomeless : ¬ tomesToken.toList <:+: template.toList :=
    fun inside => tokenless (inside.subset List.mem_cons_self)
  have parts : TokenGrammar.anyName.parts template = ⟨[], template.toList⟩ := by
    refine ((TokenGrammar.splits_iff TokenGrammar.anyName_unmarked template _).mp (.last ?_)).symm
    intro rest suffix starts
    exact tokenless (suffix.subset (startsToken_percent starts))
  have value := value_substitute resolver template
  have notices := notices_substitute resolver template
  rw [withoutTomes_eq tomeless, parts] at value notices
  have both : resolver.substitute template = ⟨(resolver.substitute template).value, (resolver.substitute template).notices⟩ :=
    rfl
  rw [both, value, notices]
  simp [TokenGrammar.Parts.filled, TokenGrammar.Parts.names]

theorem resolveText_of_tokenless (resolver : Resolver) {template : String} (tokenless : '%' ∉ template.toList) :
    resolver.resolveText template = ⟨String.ofList (Markup.clean template.toList), []⟩ := by
  rw [resolveText, substitute_of_tokenless resolver tokenless]
  simp only [Bind.bind, Report.bind, pure, List.append_nil, Markup.stripTags, Markup.toList_unescapeNewlines, Markup.clean]

theorem tokenless_clean {text : List Char} (tokenless : '%' ∉ text) : '%' ∉ Markup.clean text := by
  intro member
  have unescaped := (Markup.stripTagChars_sublist _).subset member
  exact tokenless (Text.mem_of_mem_replaceAllChars (by decide) unescaped)

/-- Resolving a template without tokens once more changes it just where tags break an escape in it, and after that
nothing is left to change. -/
theorem resolveText_again_eq_iff (resolver : Resolver) {template : String} (tokenless : '%' ∉ template.toList) :
    let once := (resolver.resolveText template).value
    let twice := (resolver.resolveText once).value
    (twice = once ↔ ¬ Markup.HoldsBrokenEscape (Markup.read template.toList)) ∧
      (resolver.resolveText twice).value = twice := by
  intro once twice
  have first : once = String.ofList (Markup.clean template.toList) := by
    rw [show once = (resolver.resolveText template).value from rfl, resolveText_of_tokenless resolver tokenless]
  have firstTokenless : '%' ∉ once.toList := by
    rw [first, String.toList_ofList]
    exact tokenless_clean tokenless
  have second : twice = String.ofList (Markup.clean (Markup.clean template.toList)) := by
    rw [show twice = (resolver.resolveText once).value from rfl, resolveText_of_tokenless resolver firstTokenless, first,
      String.toList_ofList]
  have secondTokenless : '%' ∉ twice.toList := by
    rw [second, String.toList_ofList]
    exact tokenless_clean (tokenless_clean tokenless)
  constructor
  · rw [first, second, String.ofList_inj, Markup.clean_clean_eq_iff]
  · rw [resolveText_of_tokenless resolver secondTokenless, second, String.toList_ofList, Markup.clean_clean_clean]

/-- A backslash and tags before an escaped new line are no broken escape. -/
theorem resolveText_again_escape_behind_tag :
    let resolver : Resolver := ⟨⟨[]⟩, .table [], "plain"⟩
    let template := "<b>Slows\\</b>\\nand <i>n</i>umbs"
    '%' ∉ template.toList ∧ (resolver.resolveText template).value = "Slows\\\nand numbs" ∧
    (resolver.resolveText (resolver.resolveText template).value).value = (resolver.resolveText template).value := by
  intro resolver template
  have tokenless : '%' ∉ template.toList := by decide
  have clean : Markup.clean template.toList = "Slows\\\nand numbs".toList := by cbv
  have whole : ¬ Markup.HoldsBrokenEscape (Markup.read template.toList) := by
    rw [← Markup.infix_clean_iff, clean]
    decide
  refine ⟨tokenless, ?_, (resolveText_again_eq_iff resolver tokenless).1.mpr whole⟩
  rw [resolveText_of_tokenless resolver tokenless, clean, String.ofList_toList]

/-- The tag between them gone, a backslash and an `n` are an escape for the second time only. -/
theorem resolveText_again_ne_of_tag_in_escape :
    let resolver : Resolver := ⟨⟨[]⟩, .table [], "plain"⟩
    let template := "\\<b>n"
    '%' ∉ template.toList ∧
    (resolver.resolveText (resolver.resolveText template).value).value ≠ (resolver.resolveText template).value := by
  intro resolver template
  have tokenless : '%' ∉ template.toList := by decide
  have first : (resolver.resolveText template).value = "\\n" := by
    rw [resolveText_of_tokenless resolver tokenless]
    cbv
  have second : (resolver.resolveText "\\n").value = "\n" := by
    rw [resolveText_of_tokenless resolver (by decide)]
    cbv
  refine ⟨tokenless, ?_⟩
  rw [first, second]
  decide

end Resolver
end Compendium
