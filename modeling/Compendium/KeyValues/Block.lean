import Compendium.KeyValues.Lexeme
import Compendium.Document.Basic

/-! Block texts as trees, and their reading. A block opened again under the same key is merged into the earlier one;
a value written again replaces the earlier value or block. -/

set_option autoImplicit false
namespace Compendium.KeyValues

inductive Node where
  | text (value : String)
  | block (entries : List (String × Node))
  deriving Repr, Inhabited

abbrev Entries := List (String × Node)

mutual

/-- What stands under a key after this node was written there. -/
def Node.over (existing : Option Node) : Node → Node
  | .text value => .text value
  | .block incoming =>
    match existing with
    | some (.block target) => .block (mergeEntries target incoming)
    | _ => .block incoming

/-- Writes the incoming entries one after the other into the target. -/
def mergeEntries (target : Entries) : List (String × Node) → Entries
  | [] => target
  | (key, node) :: rest => mergeEntries (Members.put target key (node.over (Members.at? target key))) rest

end

namespace Entries

def store (entries : Entries) (key : String) (node : Node) : Entries :=
  Members.put entries key (node.over (Members.at? entries key))

end Entries

mutual

def Node.toDocument : Node → Document
  | .text value => .text value
  | .block entries => .table (entriesToMembers entries)

def entriesToMembers : List (String × Node) → List (String × Document)
  | [] => []
  | (key, node) :: rest => (key, node.toDocument) :: entriesToMembers rest

end

/-- Why a text is no block text. Lines are counted from one. -/
inductive Fault where
  | unterminatedText (line : Nat)
  | unexpectedClosing (line : Nat)
  | unexpectedOpening (line : Nat)
  | missingValue (key : String) (line : Nat)
  | unclosedBlocks (depth : Nat)
  deriving DecidableEq, Repr

def Fault.message : Fault → String
  | .unterminatedText line => "unterminated string starting on line " ++ toString line
  | .unexpectedClosing line => "unexpected '\x7d' on line " ++ toString line
  | .unexpectedOpening line => "unexpected '\x7b' on line " ++ toString line
  | .missingValue key line => "missing value for key '" ++ key ++ "' on line " ++ toString line
  | .unclosedBlocks depth => toString depth ++ " unclosed block(s) at end of input"

/-- An open block: the entries before it, and the key it will be stored under. -/
structure Frame where
  entries : Entries
  key : String

/-- Reading is between entries, or after the key of one. -/
structure Reader where
  outer : List Frame
  entries : Entries
  pending : Option (String × Nat)

namespace Reader

def start : Reader :=
  ⟨[], [], none⟩

def step (reader : Reader) (lexeme : Lexeme) : Except Fault Reader :=
  match reader.pending, lexeme.token with
  | none, .text key => .ok ⟨reader.outer, reader.entries, some (key, lexeme.line)⟩
  | none, .closing =>
    match reader.outer with
    | [] => .error (.unexpectedClosing lexeme.line)
    | frame :: outer => .ok ⟨outer, Entries.store frame.entries frame.key (.block reader.entries), none⟩
  | none, .opening => .error (.unexpectedOpening lexeme.line)
  | some (key, _), .text value => .ok ⟨reader.outer, Entries.store reader.entries key (.text value), none⟩
  | some (key, _), .opening => .ok ⟨⟨reader.entries, key⟩ :: reader.outer, [], none⟩
  | some (key, line), .closing => .error (.missingValue key line)

def finish (reader : Reader) (ending : Ending) : Except Fault Entries :=
  match ending, reader.pending with
  | .unterminated line, _ => .error (.unterminatedText line)
  | .complete, some (key, line) => .error (.missingValue key line)
  | .complete, none =>
    if reader.outer = [] then .ok reader.entries else .error (.unclosedBlocks reader.outer.length)

end Reader

def readLexed (lexed : Lexed) : Except Fault Entries := do
  let reader ← lexed.lexemes.foldlM Reader.step Reader.start
  reader.finish lexed.ending

/-- The top-level entries of a block text. -/
def read (text : String) : Except Fault Entries :=
  readLexed (lex text)

end Compendium.KeyValues
