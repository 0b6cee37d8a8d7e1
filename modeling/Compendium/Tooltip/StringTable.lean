import Compendium.Resource
import Compendium.Tooltip.Markup

/-! The localized texts of one language, each under its token. -/

set_option autoImplicit false
namespace Compendium

@[ext]
structure StringTable where
  tokens : Members String
  /-- What the resource calls its language; empty if it does not say. -/
  language : String
  deriving DecidableEq, Repr

namespace StringTable

def empty : StringTable :=
  ⟨[], ""⟩

def ofTokens (pairs : List (String × String)) : StringTable :=
  ⟨Members.ofPairs pairs, ""⟩

def get? (table : StringTable) (token : String) : Option String :=
  Members.at? table.tokens token

/-- The text of the first token that has one. -/
def getFirst? (table : StringTable) (tokens : List String) : Option String :=
  tokens.findSome? table.get?

def insert (table : StringTable) (token text : String) : StringTable :=
  { table with tokens := Members.put table.tokens token text }

def size (table : StringTable) : Nat :=
  table.tokens.length

/-- The first of two members that is there. -/
def eitherMember? (document : Document) (first second : String) : Option Document :=
  (document.member? first).or (document.member? second)

/-- Reads a localized resource, wrapped in its `lang` member or bare. Token values that are no texts are left out. -/
def ofDocument (document : Document) : Except ResourceError StringTable :=
  let lang := (eitherMember? document "lang" "Lang").getD document
  match (eitherMember? lang "Tokens" "tokens").bind Document.members? with
  | none => .error .missingTokens
  | some members =>
    let language := (eitherMember? lang "Language" "language").bind Document.text?
    let texts := members.filterMap fun (token, value) => value.text?.map fun text => (token, text)
    .ok ⟨Members.ofPairs texts, language.getD ""⟩

def ofJsonText (text : String) : Except ResourceError StringTable :=
  Resource.ofJsonText text >>= ofDocument

def ofBlockText (text : String) : Except ResourceError StringTable :=
  Resource.ofBlockText text >>= ofDocument

/-- Reads a file as JSON or as a block text, as its extension says. -/
def load (tree : FileTree) (path : Path) : Except ResourceError StringTable := do
  let text ← Resource.textOf tree path
  if path.isJson then ofJsonText text else ofBlockText text

def stripMarkup (table : StringTable) : StringTable :=
  { table with tokens := Members.mapValues Markup.stripTags table.tokens }

theorem get?_stripMarkup (table : StringTable) (token : String) :
    table.stripMarkup.get? token = (table.get? token).map Markup.stripTags :=
  Members.at?_map table.tokens (fun _ text => Markup.stripTags text) token

/-- The start of the tokens that belong to tooltips. -/
def tooltipStart : String := "DOTA_Tooltip_ability_"

/-- Another spelling of it that resources use. -/
def capitalizedStart : String := "DOTA_Tooltip_Ability_"

/-- An order in which the tokens of a table are gone through. A table has none of its own: each time it may be another. -/
structure TokenOrder where
  arrange : Members String → Members String
  perm : ∀ tokens, (arrange tokens).Perm tokens

/-- The order in which the tokens are listed. -/
def TokenOrder.asListed : TokenOrder :=
  ⟨id, List.Perm.refl⟩

/-- The capitalized tokens in the other spelling, as they are gone through. -/
def aliases (table : StringTable) (order : TokenOrder := .asListed) : List (String × String) :=
  ((order.arrange table.tokens).filter fun entry => Text.occursIn capitalizedStart entry.1).map fun (token, text) =>
    (Text.replaceAll token capitalizedStart tooltipStart, text)

/-- Makes every text of the capitalized spelling available under the other one too. Where tokens come to be the same, the
one that is gone through last counts. The places in the list mean nothing, and are the same for every order. -/
def normalizeCase (table : StringTable) (order : TokenOrder := .asListed) : StringTable :=
  { table with tokens := Members.putAll (Members.putAll table.tokens table.aliases) (table.aliases order) }

end StringTable
end Compendium
