import Compendium.Proofs.Text.Occurrence
import Compendium.Proofs.Tooltip.Splitting
import Compendium.Tooltip.Resolver
import Mathlib

/-! Filling a template changes its tokens and nothing else, in one pass: what is put in for a token is not read again. -/

set_option autoImplicit false
namespace Compendium

theorem TokenGrammar.anyName_unmarked : anyName.inName '%' = false := by
  decide

namespace Resolver

def shown (resolver : Resolver) (name : String) : String :=
  if name = "" then "%"
  else match resolver.find? name with
    | some value => textOf value
    | none => "%" ++ name ++ "%"

def isUnknown (resolver : Resolver) (name : String) : Bool :=
  name ≠ "" && (resolver.find? name).isNone

/-- A value shows the same, whether its `value` counts as present or not. -/
theorem textOf_eq_display (value : Document) : textOf value = value.display := by
  cases value with
  | table members =>
    have member : (Document.table members).member? "value" = Members.at? members "value" := rfl
    rw [textOf, member]
    cases found : Members.at? members "value" with
    | none => rfl
    | some inner =>
      have shown : (Document.table members).display = inner.display := by
        rw [Document.display, Document.displayValue?_eq, found]
        rfl
      simp [shown]
  | _ => rfl

theorem fillToken_eq (resolver : Resolver) (name : String) : resolver.fillToken name =
    ⟨resolver.shown name, if resolver.isUnknown name then [.unresolvedToken name resolver.owner] else []⟩ := by
  rw [fillToken, shown, isUnknown]
  by_cases empty : name = ""
  · simp [empty, pure]
  · cases found : resolver.find? name with
    | some value => simp [empty, pure]
    | none => simp [empty, Report.tell, bind, Report.bind, pure]

theorem fillPiece_char (resolver : Resolver) (c : Char) : resolver.fillPiece (.char c) = ⟨[c], []⟩ :=
  rfl

theorem fillPiece_token (resolver : Resolver) (name : String) : resolver.fillPiece (.token name) =
    ⟨(resolver.shown name).toList, if resolver.isUnknown name then [.unresolvedToken name resolver.owner] else []⟩ := by
  rw [fillPiece, fillToken_eq]
  simp [bind, Report.bind, pure]

theorem flatten_fillPiece (resolver : Resolver) (parts : TokenGrammar.Parts) :
    (parts.pieces.map fun piece => (resolver.fillPiece piece).value).flatten = parts.filled resolver.shown := by
  rw [← List.flatMap_def, TokenGrammar.Parts.flatMap_pieces]
  simp [TokenGrammar.Parts.filled, fillPiece_char, fillPiece_token]

theorem notices_fillPiece (resolver : Resolver) (parts : TokenGrammar.Parts) :
    (parts.pieces.flatMap fun piece => (resolver.fillPiece piece).notices) =
      (parts.names.filter resolver.isUnknown).map fun name => .unresolvedToken name resolver.owner := by
  rw [TokenGrammar.Parts.flatMap_pieces_of_silent (fun _ => rfl)]
  induction parts.names with
  | nil => rfl
  | cons name rest ih =>
    rw [List.flatMap_cons, ih, fillPiece_token]
    cases unknown : resolver.isUnknown name with
    | true => simp [unknown]
    | false => simp [unknown]

theorem value_substitute (resolver : Resolver) (template : String) : (resolver.substitute template).value =
    String.ofList ((TokenGrammar.anyName.parts (withoutTomes template)).filled resolver.shown) := by
  rw [substitute, TokenGrammar.pieces_eq TokenGrammar.anyName_unmarked, Report.mapM_eq, Report.value_bind,
    flatten_fillPiece]
  rfl

theorem notices_substitute (resolver : Resolver) (template : String) : (resolver.substitute template).notices =
    ((TokenGrammar.anyName.parts (withoutTomes template)).names.filter resolver.isUnknown).map
      fun name => .unresolvedToken name resolver.owner := by
  rw [substitute, TokenGrammar.pieces_eq TokenGrammar.anyName_unmarked, Report.mapM_eq, Report.notices_bind,
    notices_fillPiece, Report.notices_pure, List.append_nil]

theorem value_resolveText (resolver : Resolver) (template : String) : (resolver.resolveText template).value =
    Markup.stripTags (Markup.unescapeNewlines (resolver.substitute template).value) :=
  rfl

theorem withoutTomes_eq {template : String} (tomeless : ¬ tomesToken.toList <:+: template.toList) :
    withoutTomes template = template := by
  rw [← Text.occursIn_iff] at tomeless
  rw [withoutTomes, if_neg tomeless]

/-- A template that does not count tomes is taken apart in one way. Its literal texts stay as they are, every token makes
room for what its name stands for, and every unknown name is told of, in order. -/
theorem substitute_single_pass (resolver : Resolver) {template : String}
    (tomeless : ¬ tomesToken.toList <:+: template.toList) :
    ∃ parts, (∀ other, TokenGrammar.anyName.Splits template.toList other ↔ other = parts) ∧
      (resolver.substitute template).value = String.ofList (parts.filled resolver.shown) ∧
      (resolver.substitute template).notices =
        (parts.names.filter resolver.isUnknown).map fun name => .unresolvedToken name resolver.owner := by
  refine ⟨TokenGrammar.anyName.parts template, ?_, ?_, ?_⟩
  · exact TokenGrammar.splits_iff TokenGrammar.anyName_unmarked template
  · rw [value_substitute, withoutTomes_eq tomeless]
  · rw [notices_substitute, withoutTomes_eq tomeless]

/-- A name found without its `d`, whose text has percent signs of its own, among doubled, stray and adjacent ones. -/
theorem substitute_single_pass_percents :
    let resolver : Resolver := ⟨⟨[[("gold", .text "%y%")]]⟩, .table [], "greed"⟩
    let template := "5%% of %dgold% or 100% %x%%y%"
    (resolver.substitute template).value = "5% of %y% or 100% %x%%y%" ∧
    (resolver.substitute template).notices = [.unresolvedToken "x" "greed", .unresolvedToken "y" "greed"] := by
  intro resolver template
  have tomeless : ¬ tomesToken.toList <:+: template.toList := by decide
  obtain ⟨parts, only, value, notices⟩ := substitute_single_pass resolver tomeless
  have splits := (TokenGrammar.splits_iff TokenGrammar.anyName_unmarked template parts).mp ((only parts).mpr rfl)
  have cut : TokenGrammar.anyName.parts template =
      ⟨[("5".toList, ""), (" of ".toList, "dgold"), (" or 100% ".toList, "x"), ([], "y")], []⟩ := by
    cbv
  rw [value, notices, splits, cut]
  constructor <;> decide

end Resolver
end Compendium
