import Compendium.Text.Reading

/-! The smallest parts of a TOML text: line ends, comments, and the four forms of quoted text. -/

set_option autoImplicit false
namespace Compendium.Toml

open Reading

def isSpace (c : Char) : Bool :=
  c == ' ' || c == '\t'

/-- Control characters but the tab stand nowhere in a text. -/
def isPlain (c : Char) : Bool :=
  c == '\t' || (0x20 ≤ c.toNat && c.toNat ≠ 0x7F)

def spaces : Reading Unit := do
  let _ ← run isSpace

def newline : Reading Unit :=
  char '\n' <|> exact ['\r', '\n']

def comment : Reading Unit := do
  char '#'
  let _ ← run isPlain

def lineEnd : Reading Unit :=
  newline <|> atEnd

/-- What may follow a statement on its line. -/
def restOfLine : Reading Unit := do
  spaces
  let _ ← Reading.optional comment
  lineEnd

/-- White space, line ends and comments, as they stand between the items of an array. -/
def gap : Reading Unit := do
  let _ ← many ((do let _ ← oneOf isSpace) <|> newline <|> (comment *> newline))

def hexValue (c : Char) : Nat :=
  if c.isDigit then c.toNat - '0'.toNat else c.toLower.toNat - 'a'.toNat + 10

def isHex (c : Char) : Bool :=
  c.isDigit || ('a' ≤ c.toLower && c.toLower ≤ 'f')

/-- The number that digits of a base write. -/
def readBase (base : Nat) (digits : List Char) : Nat :=
  digits.foldl (fun value digit => value * base + hexValue digit) 0

/-- A character given by so many hexadecimal digits of its code. -/
def coded (count : Nat) : Reading Char := do
  let code := readBase 16 (← times isHex count)
  if code.isValidChar then return Char.ofNat code else failure

def escape : Reading Char := do
  char '\\'
  match ← oneOf fun _ => true with
  | 'b' => return '\x08'
  | 't' => return '\t'
  | 'n' => return '\n'
  | 'f' => return '\x0c'
  | 'r' => return '\r'
  | '"' => return '"'
  | '\\' => return '\\'
  | 'u' => coded 4
  | 'U' => coded 8
  | _ => failure

/-- A plain character that is neither a double quote nor a backslash. -/
def basicChar : Reading Char :=
  oneOf (fun c => isPlain c && c ≠ '"' && c ≠ '\\') <|> escape

def literalChar : Reading Char :=
  oneOf fun c => isPlain c && c ≠ '\''

def basicText : Reading String := do
  char '"'
  let content ← many basicChar
  char '"'
  return String.ofList content

def literalText : Reading String := do
  char '\''
  let content ← many literalChar
  char '\''
  return String.ofList content

/-- A backslash at the end of a line stands for nothing, and so does all white space after it. -/
def continuation : Reading (List Char) := do
  char '\\'
  spaces
  newline
  let _ ← many ((do let _ ← oneOf isSpace) <|> newline)
  return []

def lineBreak : Reading (List Char) := do
  newline
  return ['\n']

/-- One or two quotes within a text of several lines. -/
def innerQuotes (quote : Char) : Reading (List Char) := do
  let quotes ← run (· == quote)
  if quotes.length = 1 ∨ quotes.length = 2 then return quotes else failure

/-- The three closing quotes; one or two before them belong to the text. -/
def closingQuotes (quote : Char) : Reading (List Char) := do
  let quotes ← run (· == quote)
  if 3 ≤ quotes.length ∧ quotes.length ≤ 5 then return quotes.drop 3 else failure

/-- A text of several lines between triple quotes. A line end right behind the opening ones is not part of it. -/
def multiLine (quote : Char) (content : Reading (List Char)) : Reading String := do
  exact [quote, quote, quote]
  let _ ← Reading.optional newline
  let body ← many (content <|> lineBreak <|> innerQuotes quote)
  return String.ofList (body.flatten ++ (← closingQuotes quote))

def multiLineBasic : Reading String :=
  multiLine '"' (continuation <|> (fun c => [c]) <$> basicChar)

def multiLineLiteral : Reading String :=
  multiLine '\'' ((fun c => [c]) <$> literalChar)

def quotedText : Reading String :=
  multiLineBasic <|> basicText <|> multiLineLiteral <|> literalText

end Compendium.Toml
