import Compendium.Text.LetterCase
import Compendium.Tooltip.Levels
import Compendium.Tooltip.StringTable

/-! Attributes as rows of a tooltip. A localized header may start with a percent sign, which makes the value a
percentage, and go on with `+$` and the name of a footer. -/

set_option autoImplicit false
namespace Compendium

structure AttributeRow where
  key : String
  header : String
  value : Levels
  footer : Option String
  /-- The header was made from the key, since no localized one exists. -/
  generated : Bool
  deriving DecidableEq, Repr

namespace AttributeRow

/-- The start of the tokens that footers are found under. -/
def footerStart : String := "dota_ability_variable_"

/-- Footers of the attack range carry markup. -/
def attackRange : String := "dota_ability_variable_attack_range"

/-- A key of records that names no attribute. -/
def typeKey : String := "var_type"

/-- The first entry of a record with a localized header, and that header. -/
def localized? (strings : StringTable) (start : String) (record : AttributeRecord) :
    Option (String × Document × String) :=
  record.findSome? fun (key, value) => (strings.get? (start ++ key)).map fun header => (key, value, header)

def footer? (strings : StringTable) (name : String) : Option String :=
  let token := footerStart ++ name
  (strings.get? token).map fun text => if Text.occursIn attackRange token then Markup.stripTags text else text

/-- The row of an entry with a localized header. -/
def ofHeader (strings : StringTable) (key : String) (value : Document) (header : String) : AttributeRow :=
  let afterPercent := Text.dropStart? "%" header
  let rest := afterPercent.getD header
  let shown := Levels.format value afterPercent.isSome Levels.defaultSeparator
  match Text.dropStart? "+$" rest with
  | some name => ⟨key, "+", shown, footer? strings name, false⟩
  | none => ⟨key, Markup.stripTags rest, shown, none, false⟩

/-- The entry that gives a record its name. -/
def namingMember? (record : AttributeRecord) : Option (String × Document) :=
  (record.find? fun entry => entry.1 != typeKey).or record.head?

def generatedHeader (key : String) : String :=
  Text.upper (Text.replaceAll key "_" " ") ++ ":"

/-- The row of a record without a localized header; an empty record has an empty row. -/
def ofUnknown (record : AttributeRecord) : AttributeRow :=
  match namingMember? record with
  | some (key, value) => ⟨key, generatedHeader key, Levels.format value false Levels.defaultSeparator, none, true⟩
  | none => ⟨"", ":", .single "", none, true⟩

def ofRecord (strings : StringTable) (start : String) (record : AttributeRecord) : AttributeRow :=
  match localized? strings start record with
  | some (key, value, header) => ofHeader strings key value header
  | none => ofUnknown record

/-- One row for each record, in order. -/
def ofAttributes (attributes : AttributeList) (strings : StringTable) (start : String) : List AttributeRow :=
  attributes.records.map (ofRecord strings start)

def toDocument (row : AttributeRow) : Document :=
  .table ([("key", .text row.key), ("header", .text row.header), ("value", row.value.toDocument)]
    ++ (row.footer.map fun text => ("footer", Document.text text)).toList
    ++ if row.generated then [("generated", .bool true)] else [])

end AttributeRow
end Compendium
