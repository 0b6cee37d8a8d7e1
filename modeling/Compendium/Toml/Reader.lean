import Compendium.Toml.Scalar
import Compendium.Toml.Tree

/-! TOML texts as documents. -/

set_option autoImplicit false
namespace Compendium.Toml

open Reading

def isBare (c : Char) : Bool :=
  c.isAlphanum || c == '-' || c == '_'

def bareName : Reading String := do
  let first ← oneOf isBare
  return String.ofList (first :: (← run isBare))

def name : Reading String := do
  spaces
  let text ← basicText <|> literalText <|> bareName
  spaces
  return text

/-- Keys have less than so many names, and values are nested less than so deep. -/
def depthLimit : Nat := 80

/-- Names with points between them. -/
def key : Reading (List String) := do
  let names := (← name) :: (← many (char '.' *> name))
  if names.length < depthLimit then return names else failure

def array (item : Reading Document) : Reading Document := do
  char '['
  let items ← separated (gap *> item <* gap)
  if items ≠ [] then
    let _ ← Reading.optional (char ',')
  gap
  char ']'
  return .list items

def pair (value : Reading Document) : Reading (List String × Document) := do
  let names ← key
  char '='
  spaces
  return (names, ← value)

/-- A table within a line; commas stand only between its pairs. -/
def inlineTable (value : Reading Document) : Reading Document := do
  char '\x7b'
  let pairs ← separated (pair value <* spaces)
  spaces
  char '\x7d'
  match pairs.foldlM (fun members (names, content) => assign names content members) [] with
  | some members => return .table (membersToDocument members)
  | none => failure

/-- A value with at most so many arrays and tables inside of each other. -/
def value : Nat → Reading Document
  | 0 => scalar
  | depth + 1 => array (value depth) <|> inlineTable (value depth) <|> scalar

def header : Reading Statement := do
  char '['
  let path ← key
  char ']'
  restOfLine
  return .header path

def repeatedHeader : Reading Statement := do
  exact ['[', '[']
  let path ← key
  exact [']', ']']
  restOfLine
  return .repeatedHeader path

def pairLine : Reading Statement := do
  let (names, content) ← pair (value (depthLimit - 1))
  restOfLine
  return .pair names content

/-- A statement, or a line without one. -/
def line : Reading (Option Statement) := do
  let statement ← (some <$> (header <|> repeatedHeader <|> pairLine))
    <|> (comment *> lineEnd *> pure none)
    <|> (newline *> pure none)
  spaces
  return statement

/-- All lines of a text. A byte order mark may stand in front of them. -/
def statements : Reading (List Statement) := do
  let _ ← Reading.optional (char '\uFEFF')
  spaces
  let lines ← many line
  atEnd
  return lines.reduceOption

def read? (text : String) : Option Document := do
  let (found, _) ← statements text.toList
  build? found

end Compendium.Toml
