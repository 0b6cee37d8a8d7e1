import Compendium.Document.Basic
import Compendium.Toml.Lexeme

/-! Numbers, truth values and moments in TOML. A number that is not finite is read as null. Nothing looks into a
moment, and it is read as a table without members. -/

set_option autoImplicit false
namespace Compendium.Toml

open Reading

/-- A digit, then digits each of which may have an underscore before it. -/
def digitsOf (kind : Char → Bool) : Reading (List Char) := do
  let first ← oneOf kind
  let others ← many (Reading.optional (char '_') *> oneOf kind)
  return first :: others

def sign : Reading (List Char) :=
  (fun c => [c]) <$> oneOf (fun c => c == '+' || c == '-') <|> pure []

/-- Digits without a leading zero, unless zero is all. -/
def wholeDigits : Reading (List Char) := fun text =>
  match text with
  | '0' :: rest => some (['0'], rest)
  | _ => digitsOf Char.isDigit text

def fraction : Reading (List Char) := do
  char '.'
  return '.' :: (← digitsOf Char.isDigit)

def exponent : Reading (List Char) := do
  let _ ← oneOf fun c => c == 'e' || c == 'E'
  return 'e' :: ((← sign) ++ (← digitsOf Char.isDigit))

/-- Numbers beyond the largest double are refused, those below the least one are not. -/
def finiteDouble : Reading Document := do
  let start := (← sign) ++ (← wholeDigits)
  let rest ← exponent <|> (do return (← fraction) ++ (← exponent <|> pure []))
  match Numeral.ofText? (start ++ rest) with
  | some (.finite value) => return .number (.double value)
  | _ => if start.head? = some '-' then return .null else failure

def notFinite : Reading Document := do
  let _ ← sign
  exact ['i', 'n', 'f'] <|> exact ['n', 'a', 'n']
  return .null

def inRange (value : Int) : Reading Document :=
  if Number.leastInteger ≤ value ∧ value ≤ Number.greatestInteger then return .integer value else failure

def decimalInteger : Reading Document := do
  let mark ← sign
  let value : Int := readDigits (← wholeDigits)
  inRange (if mark = ['-'] then -value else value)

/-- An integer to another base behind a mark. -/
def markedInteger (mark : Char) (base : Nat) (kind : Char → Bool) : Reading Document := do
  exact ['0', mark]
  inRange (readBase base (← digitsOf kind))

def integer : Reading Document :=
  markedInteger 'x' 16 isHex
    <|> markedInteger 'o' 8 (fun c => '0' ≤ c && c ≤ '7')
    <|> markedInteger 'b' 2 (fun c => c == '0' || c == '1')
    <|> decimalInteger

/-- A number of so many digits between two bounds. -/
def bounded (count least greatest : Nat) : Reading Nat := do
  let value := readDigits (← times Char.isDigit count)
  if least ≤ value ∧ value ≤ greatest then return value else failure

def isLeapYear (year : Nat) : Bool :=
  year % 4 == 0 && (year % 100 != 0 || year % 400 == 0)

def daysOfMonth (year month : Nat) : Nat :=
  if month = 2 then if isLeapYear year then 29 else 28
  else if month ∈ [4, 6, 9, 11] then 30
  else 31

def date : Reading Unit := do
  let year ← bounded 4 0 9999
  char '-'
  let month ← bounded 2 1 12
  char '-'
  let _ ← bounded 2 1 (daysOfMonth year month)

def time : Reading Unit := do
  let _ ← bounded 2 0 23
  char ':'
  let _ ← bounded 2 0 59
  char ':'
  let _ ← bounded 2 0 60
  let _ ← Reading.optional do
    char '.'
    let _ ← oneOf Char.isDigit
    run Char.isDigit

def offset : Reading Unit :=
  (do let _ ← oneOf fun c => c == 'Z' || c == 'z')
    <|> do
      let _ ← oneOf fun c => c == '+' || c == '-'
      let _ ← bounded 2 0 23
      char ':'
      let _ ← bounded 2 0 59

/-- A date, a time, or both, the latter also with an offset. -/
def moment : Reading Document := do
  (do
    date
    let _ ← Reading.optional do
      let _ ← oneOf fun c => c == 'T' || c == 't' || c == ' '
      time
      Reading.optional offset) <|> time
  return .table []

def truthValue : Reading Document :=
  (do exact ['t', 'r', 'u', 'e']; return .bool true) <|> (do exact ['f', 'a', 'l', 's', 'e']; return .bool false)

def scalar : Reading Document :=
  (Document.text <$> quotedText) <|> moment <|> finiteDouble <|> notFinite <|> integer <|> truthValue

end Compendium.Toml
