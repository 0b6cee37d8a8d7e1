import Compendium.Text.Blank

/-! The tokens of a block text with the lines they start on. White space, comments from two slashes to the end of
the line and conditionals in square brackets separate tokens. In a quoted text a backslash takes the next character
along, and both are kept. -/

set_option autoImplicit false
namespace Compendium.KeyValues

inductive Token where
  | text (value : String)
  | opening
  | closing
  deriving DecidableEq, Repr

structure Lexeme where
  token : Token
  line : Nat
  deriving DecidableEq, Repr

/-- What a text ends with: the end of its tokens, or a quoted text that is never closed. -/
inductive Ending where
  | complete
  | unterminated (line : Nat)
  deriving DecidableEq, Repr

structure Lexed where
  lexemes : List Lexeme
  ending : Ending
  deriving DecidableEq, Repr

/-- What the scanner is inside of. Held characters are in reverse order, and a quoted text knows the line it
starts on. -/
inductive Mode where
  | between
  /-- After a slash, which may open a comment. -/
  | slash
  | comment
  | conditional
  | bare (held : List Char)
  | quoted (start : Nat) (held : List Char)
  | escaped (start : Nat) (held : List Char)
  deriving DecidableEq, Repr

structure Scanner where
  mode : Mode
  line : Nat
  /-- Latest first. -/
  lexemes : List Lexeme
  deriving DecidableEq, Repr

namespace Scanner

def start : Scanner :=
  ⟨.between, 1, []⟩

def emit (scanner : Scanner) (token : Token) (line : Nat) : Scanner :=
  ⟨.between, scanner.line, ⟨token, line⟩ :: scanner.lexemes⟩

def emitText (scanner : Scanner) (held : List Char) (line : Nat) : Scanner :=
  scanner.emit (.text (String.ofList held.reverse)) line

def enter (scanner : Scanner) (mode : Mode) : Scanner :=
  ⟨mode, scanner.line, scanner.lexemes⟩

/-- A line break moves to the next line. -/
def pass (scanner : Scanner) (mode : Mode) (c : Char) : Scanner :=
  ⟨mode, if c = '\n' then scanner.line + 1 else scanner.line, scanner.lexemes⟩

/-- A character outside of tokens, comments and conditionals. -/
def between (scanner : Scanner) (c : Char) : Scanner :=
  if Text.isBlank c then scanner.pass .between c
  else if c = '/' then scanner.enter .slash
  else if c = '[' then scanner.enter .conditional
  else if c = '{' then scanner.emit .opening scanner.line
  else if c = '}' then scanner.emit .closing scanner.line
  else if c = '"' then scanner.enter (.quoted scanner.line [])
  else scanner.enter (.bare [c])

/-- What ends a bare text. -/
def endsBare (c : Char) : Bool :=
  Text.isBlank c || c == '"' || c == '{' || c == '}'

/-- A character after the start of a bare text. -/
def bare (scanner : Scanner) (held : List Char) (c : Char) : Scanner :=
  if endsBare c then (scanner.emitText held scanner.line).between c
  else scanner.enter (.bare (c :: held))

def step (scanner : Scanner) (c : Char) : Scanner :=
  match scanner.mode with
  | .between => scanner.between c
  | .slash => if c = '/' then scanner.enter .comment else scanner.bare ['/'] c
  | .comment => scanner.pass (if c = '\n' then .between else .comment) c
  | .conditional => scanner.pass (if c = ']' then .between else .conditional) c
  | .bare held => scanner.bare held c
  | .quoted line held =>
    if c = '"' then scanner.emitText held line
    else if c = '\\' then scanner.enter (.escaped line (c :: held))
    else scanner.pass (.quoted line (c :: held)) c
  | .escaped line held => scanner.pass (.quoted line (c :: held)) c

def finish (scanner : Scanner) : Lexed :=
  match scanner.mode with
  | .between | .comment | .conditional => ⟨scanner.lexemes.reverse, .complete⟩
  | .slash => ⟨(scanner.emitText ['/'] scanner.line).lexemes.reverse, .complete⟩
  | .bare held => ⟨(scanner.emitText held scanner.line).lexemes.reverse, .complete⟩
  | .quoted line _ | .escaped line _ => ⟨scanner.lexemes.reverse, .unterminated line⟩

end Scanner

def lexChars (text : List Char) : Lexed :=
  (text.foldl Scanner.step Scanner.start).finish

def lex (text : String) : Lexed :=
  lexChars text.toList

end Compendium.KeyValues
