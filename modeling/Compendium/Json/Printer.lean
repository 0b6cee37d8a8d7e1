import Compendium.Document.Basic

/-! Documents written as JSON. The compact form has no white space; the indented form puts every member and item on
a line of its own, two spaces deeper than its container, and writes an empty container as two brackets. -/

set_option autoImplicit false
namespace Compendium.Json

def hexDigit (value : Nat) : Char :=
  if value < 10 then Char.ofNat ('0'.toNat + value) else Char.ofNat ('a'.toNat + (value - 10))

/-- Quotes, backslashes and control characters are escaped, and nothing else. -/
def escapeChar (c : Char) : List Char :=
  if c = '"' then ['\\', '"']
  else if c = '\\' then ['\\', '\\']
  else if c = '\n' then ['\\', 'n']
  else if c = '\r' then ['\\', 'r']
  else if c = '\t' then ['\\', 't']
  else if c.toNat = 8 then ['\\', 'b']
  else if c.toNat = 12 then ['\\', 'f']
  else if c.toNat < 0x20 then
    ['\\', 'u', '0', '0', hexDigit (c.toNat / 16), hexDigit (c.toNat % 16)]
  else [c]

def quote (text : String) : List Char :=
  '"' :: text.toList.flatMap escapeChar ++ ['"']

/-- The text of a document that is neither a list nor a table. -/
def scalar : Document → List Char
  | .bool value => (if value then "true" else "false").toList
  | .number value => value.documentText.toList
  | .text value => quote value
  | _ => "null".toList

mutual

def compactChars : Document → List Char
  | .list items => '[' :: compactItems items ++ [']']
  | .table members => '{' :: compactMembers members ++ ['}']
  | .null => scalar .null
  | .bool value => scalar (.bool value)
  | .number value => scalar (.number value)
  | .text value => scalar (.text value)

def compactItems : List Document → List Char
  | [] => []
  | [item] => compactChars item
  | item :: rest => compactChars item ++ ',' :: compactItems rest

def compactMembers : List (String × Document) → List Char
  | [] => []
  | [(name, value)] => quote name ++ ':' :: compactChars value
  | (name, value) :: rest => quote name ++ ':' :: (compactChars value ++ ',' :: compactMembers rest)

end

/-- A line break and the indentation of the given depth. -/
def lineBreak (depth : Nat) : List Char :=
  '\n' :: List.replicate (2 * depth) ' '

mutual

def indentedChars (depth : Nat) : Document → List Char
  | .list [] => ['[', ']']
  | .list (item :: rest) => '[' :: (indentedItems (depth + 1) (item :: rest) ++ lineBreak depth ++ [']'])
  | .table [] => ['{', '}']
  | .table (member :: rest) => '{' :: (indentedMembers (depth + 1) (member :: rest) ++ lineBreak depth ++ ['}'])
  | .null => scalar .null
  | .bool value => scalar (.bool value)
  | .number value => scalar (.number value)
  | .text value => scalar (.text value)

def indentedItems (depth : Nat) : List Document → List Char
  | [] => []
  | [item] => lineBreak depth ++ indentedChars depth item
  | item :: rest => lineBreak depth ++ (indentedChars depth item ++ ',' :: indentedItems depth rest)

def indentedMembers (depth : Nat) : List (String × Document) → List Char
  | [] => []
  | [(name, value)] => lineBreak depth ++ (quote name ++ ':' :: ' ' :: indentedChars depth value)
  | (name, value) :: rest =>
    lineBreak depth ++
      (quote name ++ ':' :: ' ' :: (indentedChars depth value ++ ',' :: indentedMembers depth rest))

end

def compact (document : Document) : String :=
  String.ofList (compactChars document)

def pretty (document : Document) : String :=
  String.ofList (indentedChars 0 document)

end Compendium.Json
