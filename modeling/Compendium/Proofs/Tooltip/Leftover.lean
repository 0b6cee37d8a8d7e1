import Compendium.Proofs.Tooltip.Splitting
import Mathlib.Data.List.Infix

/-! Tokens that stand in a text, wherever they came from. A filled template has none as long as no percent sign is put in:
the stray percent signs of its literal texts make no token with anything. -/

set_option autoImplicit false
namespace Compendium.TokenGrammar

def HoldsToken (grammar : TokenGrammar) (text : List Char) : Prop :=
  ∃ name : String, grammar.IsName name.toList ∧ written name <:+: text

variable {grammar : TokenGrammar}

theorem holdsToken_iff (text : List Char) :
    grammar.HoldsToken text ↔ ∃ rest, rest <:+ text ∧ grammar.StartsToken rest := by
  constructor
  · rintro ⟨name, isName, inside⟩
    obtain ⟨rest, ⟨after, rfl⟩, suffix⟩ := List.infix_iff_prefix_suffix.mp inside
    exact ⟨_, suffix, name, after, isName, rfl⟩
  · rintro ⟨_, suffix, name, after, isName, rfl⟩
    exact ⟨name, isName, List.infix_iff_prefix_suffix.mpr ⟨_, List.prefix_append _ _, suffix⟩⟩

theorem holdsToken_cons_iff (c : Char) (rest : List Char) :
    grammar.HoldsToken (c :: rest) ↔ grammar.StartsToken (c :: rest) ∨ grammar.HoldsToken rest := by
  simp only [holdsToken_iff, List.suffix_cons_iff]
  constructor
  · rintro ⟨_, rfl | inside, starts⟩
    · exact .inl starts
    · exact .inr ⟨_, inside, starts⟩
  · rintro (starts | ⟨tail, inside, starts⟩)
    · exact ⟨_, .inl rfl, starts⟩
    · exact ⟨tail, .inr inside, starts⟩

/-- The search for tokens finds one exactly if there is one. -/
theorem names_eq_nil_iff (unmarked : grammar.inName '%' = false) (text : String) :
    grammar.names text = [] ↔ ¬ grammar.HoldsToken text.toList := by
  rw [names_eq unmarked, holdsToken_iff]
  have splits := (splits_iff unmarked text _).mpr rfl
  constructor
  · intro none
    generalize grammar.parts text = parts at splits none
    generalize text.toList = chars at splits ⊢
    cases splits with
    | last free => exact fun ⟨rest, suffix, starts⟩ => free rest suffix starts
    | token => cases none
  · intro free
    have whole := (splits_iff unmarked text _).mp (.last fun rest suffix starts => free ⟨rest, suffix, starts⟩)
    rw [← whole]
    rfl

/-- Where names may be longer, more texts hold tokens. -/
theorem HoldsToken.mono {other : TokenGrammar} {text : List Char} (holds : grammar.HoldsToken text)
    (wider : ∀ c, grammar.inName c = true → other.inName c = true) (maybe : other.mayBeEmpty = true) :
    other.HoldsToken text := by
  obtain ⟨name, isName, inside⟩ := holds
  exact ⟨name, ⟨fun c member => wider c (isName.1 c member), fun _ => maybe⟩, inside⟩

/-- A literal text in front of a token starts no token, whatever comes in the place of that one. -/
theorem not_startsToken_of_literal {c : Char} {literal rest : List Char} {name : String}
    (maybe : grammar.mayBeEmpty = true) (free : ¬ grammar.StartsToken (c :: (literal ++ (written name ++ rest))))
    (other : List Char) : ¬ grammar.StartsToken (c :: (literal ++ other)) := by
  intro starts
  obtain ⟨rfl, short, after, isName, same⟩ := startsToken_cons starts
  rw [List.append_eq_append_iff] at same
  apply free
  rcases same with ⟨more, rfl, -⟩ | ⟨more, rfl, behind⟩
  · -- the name reaches beyond the literal text, which would itself be the name before the percent sign
    refine ⟨String.ofList literal, name.toList ++ '%' :: rest, ?_, by simp [written]⟩
    rw [String.toList_ofList]
    exact ⟨fun c member => isName.1 c (List.mem_append_left _ member), fun _ => maybe⟩
  · cases more with
    | nil =>
      refine ⟨String.ofList short, name.toList ++ '%' :: rest, ?_, by simp [written]⟩
      rwa [String.toList_ofList]
    | cons percent more =>
      obtain ⟨rfl, rfl⟩ := List.cons.inj behind
      refine ⟨String.ofList short, more ++ (written name ++ rest), ?_, by simp [written]⟩
      rwa [String.toList_ofList]

theorem not_holdsToken_literal {literal rest other : List Char} {name : String} (maybe : grammar.mayBeEmpty = true)
    (free : ∀ tail, tail <:+ literal → tail ≠ [] → ¬ grammar.StartsToken (tail ++ (written name ++ rest)))
    (behind : ¬ grammar.HoldsToken other) : ¬ grammar.HoldsToken (literal ++ other) := by
  induction literal with
  | nil => exact behind
  | cons c literal ih =>
    have here := free (c :: literal) (List.suffix_refl _) (List.cons_ne_nil _ _)
    have later := ih fun tail suffix => free tail (suffix.trans (List.suffix_cons _ _))
    rw [List.cons_append, holdsToken_cons_iff, not_or]
    exact ⟨not_startsToken_of_literal maybe here other, later⟩

theorem not_holdsToken_shown {shown other : List Char} (noPercent : '%' ∉ shown)
    (behind : ¬ grammar.HoldsToken other) : ¬ grammar.HoldsToken (shown ++ other) := by
  induction shown with
  | nil => exact behind
  | cons c shown ih =>
    rw [List.mem_cons, not_or] at noPercent
    rw [List.cons_append, holdsToken_cons_iff, not_or]
    exact ⟨fun starts => noPercent.1 (startsToken_cons starts).1.symm, ih noPercent.2⟩

theorem Splits.not_holdsToken_filled {text : List Char} {parts : Parts} (splits : grammar.Splits text parts)
    (maybe : grammar.mayBeEmpty = true) {shown : String → String}
    (noPercent : ∀ name ∈ parts.names, '%' ∉ (shown name).toList) : ¬ grammar.HoldsToken (parts.filled shown) := by
  induction splits with
  | last free =>
    -- the text behind the last token stays as it is, and no token started in it
    rw [holdsToken_iff]
    rintro ⟨rest, suffix, starts⟩
    exact free rest suffix starts
  | @token literal rest name parts isName free _ ih =>
    have later := ih fun other member => noPercent other (List.mem_cons_of_mem _ member)
    have behind := not_holdsToken_shown (noPercent name List.mem_cons_self) later
    have whole := not_holdsToken_literal maybe free behind
    simpa [Parts.filled] using whole

/-- Filling brings in no characters but those that are shown for tokens. -/
theorem Splits.filter_filled_sublist {text : List Char} {parts : Parts} (splits : grammar.Splits text parts)
    (keep : Char → Bool) {shown : String → String}
    (silent : ∀ name ∈ parts.names, (shown name).toList.filter keep = []) :
    ((parts.filled shown).filter keep).Sublist (text.filter keep) := by
  induction splits with
  | last free => exact List.Sublist.refl _
  | @token literal rest name parts isName free _ ih =>
    have later := ih fun other member => silent other (List.mem_cons_of_mem _ member)
    have nothing := silent name List.mem_cons_self
    have filled : Parts.filled shown ⟨(literal, name) :: parts.tokens, parts.last⟩ =
        literal ++ ((shown name).toList ++ parts.filled shown) := by
      simp [Parts.filled]
    rw [filled, List.filter_append, List.filter_append, nothing, List.nil_append, List.filter_append, List.filter_append]
    exact (List.Sublist.refl _).append (later.trans (List.sublist_append_right _ _))

end Compendium.TokenGrammar
