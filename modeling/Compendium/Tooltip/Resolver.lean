import Compendium.Text.Word
import Compendium.Tooltip.ItemText

/-! Filling the tokens of a description from an attribute list and the script it belongs to. -/

set_option autoImplicit false
namespace Compendium

/-- The description texts of one ability or item; `owner` names it in notices. -/
structure Resolver where
  attributes : AttributeList
  script : Document
  owner : String

/-- What a template is resolved to. -/
inductive Resolved where
  | text (value : String)
  | item (value : ItemText)
  deriving DecidableEq, Repr

namespace Resolver

/-- Script fields that descriptions refer to, with the second name some of them go by. -/
def fields : List (String × Option String) :=
  [("AbilityCastRange", none),
   ("AbilityChargeRestoreTime", some "charge_restore_time"),
   ("AbilityDuration", none),
   ("AbilityChannelTime", none),
   ("AbilityCastPoint", none),
   ("AbilityCharges", some "max_charges"),
   ("AbilityManaCost", none),
   ("AbilityCooldown", none)]

/-- Misnamed tokens and the attributes they mean. -/
def synonyms : List (String × String) :=
  [("lifesteal", "lifesteal_percent"),
   ("movement_slow", "damage_pct"),
   ("movemont_speed_min", "movement_speed_min")]

/-- One scalar, or a list of them for levels separated by spaces. -/
def fieldValue? : Document → Option Document
  | .text text =>
    match (Text.splitOn text " ").map Document.ofFreeText with
    | [value] => some value
    | values => some (.list values)
  | .number value => some (.number value)
  | _ => none

/-- The records that one script field contributes. -/
def fieldRecords (script : Document) (field : String × Option String) : List AttributeRecord :=
  match (script.member? field.1).bind fieldValue? with
  | none => []
  | some value =>
    AttributeList.single (Text.lower field.1) value ::
      (field.2.map fun second => AttributeList.single second value).toList

def scriptAttributes (script : Document) : AttributeList :=
  ⟨fields.flatMap (fieldRecords script)⟩

/-- A resolver sees the given attributes first, and after them what the script's own fields say. -/
def create (attributes : AttributeList) (script : Document) (owner : String) : Resolver :=
  ⟨attributes.append (scriptAttributes script), script, owner⟩

/-- The attribute of a name: as it is written, without a `d` in front, or by its synonym. -/
def find? (resolver : Resolver) (name : String) : Option Document :=
  let plain := resolver.attributes.find? name
  let undecorated := (Text.dropStart? "d" name).bind resolver.attributes.find?
  let meant := (Members.at? synonyms name).bind resolver.attributes.find?
  plain.or (undecorated.or meant)

/-- An attribute shows its `value` member if that counts as present, and itself otherwise. -/
def textOf (value : Document) : String :=
  match value.member? "value" with
  | some inner => if inner.isPresent then inner.display else value.display
  | none => value.display

/-- What a token becomes. The empty name stands for a percent sign, and an unknown name stays as it is. -/
def fillToken (resolver : Resolver) (name : String) : Report String :=
  if name = "" then pure "%"
  else match resolver.find? name with
    | some value => pure (textOf value)
    | none => do
      Report.tell (.unresolvedToken name resolver.owner)
      return "%" ++ name ++ "%"

def fillPiece (resolver : Resolver) : Piece → Report (List Char)
  | .char c => pure [c]
  | .token name => do return (← resolver.fillToken name).toList

def tomesToken : String := "%customval_team_tomes_used%"

/-- What follows a colon, a space and a token of word characters. -/
def afterLabel? : List Char → Option (List Char)
  | ':' :: ' ' :: '%' :: text => (TokenGrammar.token? ⟨Text.isWordChar, false⟩ text).map Prod.snd
  | _ => none

theorem length_afterLabel? {text after : List Char} (h : afterLabel? text = some after) :
    after.length < text.length := by
  unfold afterLabel? at h
  split at h
  · next rest =>
    obtain ⟨⟨name, last⟩, found, same⟩ := Option.map_eq_some_iff.mp h
    cases same
    have := TokenGrammar.length_token? found
    simp only [List.length_cons]
    omega
  · cases h

def inLabel (c : Char) : Bool :=
  c == ' ' || c.isAlpha

/-- Drops every label of letters and spaces that a colon and a token follow, with both. -/
def dropLabels (text : List Char) : List Char :=
  match text with
  | [] => []
  | c :: rest =>
    if inLabel c then
      match _found : afterLabel? (rest.dropWhile inLabel) with
      | some after => dropLabels after
      | none => c :: dropLabels rest
    else c :: dropLabels rest
termination_by text.length
decreasing_by
  · have bound := (List.dropWhile_suffix (l := rest) inLabel).length_le
    have := length_afterLabel? _found
    simp only [List.length_cons]
    omega
  · exact Nat.lt_succ_self _
  · exact Nat.lt_succ_self _

/-- The count of used tomes is only known in a running match: its labels are dropped, and what is left of it reads
zero. -/
def withoutTomes (template : String) : String :=
  if Text.occursIn tomesToken template then
    Text.replaceAll (String.ofList (dropLabels template.toList)) tomesToken "0"
  else template

/-- Fills the tokens of a template; texts that are filled in are not looked at again. -/
def substitute (resolver : Resolver) (template : String) : Report String := do
  let parts ← (TokenGrammar.anyName.pieces (withoutTomes template)).mapM resolver.fillPiece
  return String.ofList parts.flatten

/-- A template as plain text: escaped new lines are written out and tags dropped. -/
def resolveText (resolver : Resolver) (template : String) : Report String := do
  let filled ← resolver.substitute template
  return Markup.stripTags (Markup.unescapeNewlines filled)

/-- The lines of an item description, without those that hold only white space. -/
def itemLines (text : String) : List String :=
  ((Text.splitOn (Markup.breakLines text) Markup.escapedNewline).map Text.collapse).filter (· ≠ "")

def resolveItem (resolver : Resolver) (template : String) : Report ItemText := do
  let filled ← resolver.substitute template
  ItemText.ofLines (itemLines filled) resolver.script

/-- The empty template is resolved to the empty text, also for items. -/
def resolve (resolver : Resolver) (template : Option String) (asItem : Bool) : Report (Option Resolved) :=
  match template with
  | none => pure none
  | some "" => pure (some (.text ""))
  | some template =>
    if asItem then do return some (.item (← resolver.resolveItem template))
    else do return some (.text (← resolver.resolveText template))

end Resolver

namespace Resolved

def toDocument : Resolved → Document
  | .text value => .text value
  | .item value => value.toDocument

end Resolved
end Compendium
