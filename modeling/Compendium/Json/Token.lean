import Compendium.Json.Number
import Compendium.Document.Basic

/-! The tokens of a JSON text, found by a machine that takes one character at a time. Strings must be closed and
hold no control character; an escaped surrogate must be half of a pair. -/

set_option autoImplicit false
namespace Compendium.Json

inductive Token where
  | openList
  | closeList
  | openTable
  | closeTable
  | comma
  | colon
  | text (value : String)
  | scalar (value : Document)

/-- What the machine is inside of. Held characters are in reverse order. -/
inductive Mode where
  | between
  | word (held : List Char)
  | quoted (held : List Char)
  /-- After a backslash. A first half of a surrogate pair may be waiting. -/
  | escape (held : List Char) (waiting : Option Nat)
  /-- `missing` hexadecimal digits are still to come. -/
  | codePoint (held : List Char) (waiting : Option Nat) (missing : Nat) (value : Nat)
  /-- After a first surrogate half, where only a backslash may follow. -/
  | halfPair (held : List Char) (first : Nat)

structure Scanner where
  mode : Mode
  /-- Latest first. -/
  tokens : List Token

def Scanner.start : Scanner :=
  ⟨.between, []⟩

/-- Words are the literals and the numbers. -/
def wordToken? (word : List Char) : Option Token :=
  if word = ['n', 'u', 'l', 'l'] then some (.scalar .null)
  else if word = ['t', 'r', 'u', 'e'] then some (.scalar (.bool true))
  else if word = ['f', 'a', 'l', 's', 'e'] then some (.scalar (.bool false))
  else (number? word).map fun value => .scalar (.number value)

def isWordChar (c : Char) : Bool :=
  c.isAlphanum || c == '+' || c == '-' || c == '.'

def between? (tokens : List Token) (c : Char) : Option Scanner :=
  if c = ' ' ∨ c = '\n' ∨ c = '\t' ∨ c = '\r' then some ⟨.between, tokens⟩
  else if c = '[' then some ⟨.between, .openList :: tokens⟩
  else if c = ']' then some ⟨.between, .closeList :: tokens⟩
  else if c = '{' then some ⟨.between, .openTable :: tokens⟩
  else if c = '}' then some ⟨.between, .closeTable :: tokens⟩
  else if c = ',' then some ⟨.between, .comma :: tokens⟩
  else if c = ':' then some ⟨.between, .colon :: tokens⟩
  else if c = '"' then some ⟨.quoted [], tokens⟩
  else if isWordChar c then some ⟨.word [c], tokens⟩
  else none

/-- The character that a one-letter escape stands for. -/
def escaped? (c : Char) : Option Char :=
  if c = '"' ∨ c = '\\' ∨ c = '/' then some c
  else if c = 'b' then some (Char.ofNat 8)
  else if c = 'f' then some (Char.ofNat 12)
  else if c = 'n' then some '\n'
  else if c = 'r' then some '\r'
  else if c = 't' then some '\t'
  else none

def hexValue? (c : Char) : Option Nat :=
  if c.isDigit then some (c.toNat - '0'.toNat)
  else if 'a' ≤ c ∧ c ≤ 'f' then some (c.toNat - 'a'.toNat + 10)
  else if 'A' ≤ c ∧ c ≤ 'F' then some (c.toNat - 'A'.toNat + 10)
  else none

/-- The mode after a complete escaped code unit. -/
def unitMode? (held : List Char) (waiting : Option Nat) (value : Nat) : Option Mode :=
  let isFirst := 0xD800 ≤ value && value < 0xDC00
  let isSecond := 0xDC00 ≤ value && value < 0xE000
  match waiting with
  | some first =>
    if isSecond then
      some (.quoted (Char.ofNat (0x10000 + (first - 0xD800) * 0x400 + (value - 0xDC00)) :: held))
    else none
  | none =>
    if isFirst then some (.halfPair held value)
    else if isSecond then none
    else some (.quoted (Char.ofNat value :: held))

def step? (scanner : Scanner) (c : Char) : Option Scanner :=
  let tokens := scanner.tokens
  match scanner.mode with
  | .between => between? tokens c
  | .word held =>
    if isWordChar c then some ⟨.word (c :: held), tokens⟩
    else (wordToken? held.reverse).bind fun token => between? (token :: tokens) c
  | .quoted held =>
    if c = '"' then some ⟨.between, .text (String.ofList held.reverse) :: tokens⟩
    else if c = '\\' then some ⟨.escape held none, tokens⟩
    else if c.toNat < 0x20 then none
    else some ⟨.quoted (c :: held), tokens⟩
  | .escape held waiting =>
    if c = 'u' then some ⟨.codePoint held waiting 4 0, tokens⟩
    else if waiting.isSome then none
    else (escaped? c).map fun plain => ⟨.quoted (plain :: held), tokens⟩
  | .codePoint held waiting missing value =>
    (hexValue? c).bind fun digit =>
      let value := value * 16 + digit
      if missing ≤ 1 then (unitMode? held waiting value).map fun mode => ⟨mode, tokens⟩
      else some ⟨.codePoint held waiting (missing - 1) value, tokens⟩
  | .halfPair held first =>
    if c = '\\' then some ⟨.escape held (some first), tokens⟩ else none

def finish? (scanner : Scanner) : Option (List Token) :=
  match scanner.mode with
  | .between => some scanner.tokens.reverse
  | .word held => (wordToken? held.reverse).map fun token => (token :: scanner.tokens).reverse
  | _ => none

/-- The tokens of a whole text. -/
def tokens? (text : String) : Option (List Token) :=
  (text.toList.foldlM step? Scanner.start).bind finish?

end Compendium.Json
