import Compendium.Json.Token

/-! Reading a JSON text as a document. The machine keeps the open containers on a stack and says what may come next.
A name that is repeated in a table keeps its first place and takes its last value. -/

set_option autoImplicit false
namespace Compendium.Json

/-- Containers may be nested this deep. -/
def depthLimit : Nat := 127

/-- An open container. Items are held in reverse; a table also holds the name its next value belongs to. -/
inductive Frame where
  | list (items : List Document)
  | table (members : Members Document) (name : String)

inductive Expect where
  | value
  | valueOrClose
  | commaOrClose
  | name
  | nameOrClose
  | colon
  | nothing (document : Document)

structure Reader where
  frames : List Frame
  expect : Expect

def Reader.start : Reader :=
  ⟨[], .value⟩

/-- Hands a complete value to the innermost open container. -/
def Reader.deliver (frames : List Frame) (value : Document) : Reader :=
  match frames with
  | [] => ⟨[], .nothing value⟩
  | .list items :: outer => ⟨.list (value :: items) :: outer, .commaOrClose⟩
  | .table members name :: outer => ⟨.table (Members.put members name value) name :: outer, .commaOrClose⟩

def Reader.open? (frames : List Frame) (frame : Frame) (expect : Expect) : Option Reader :=
  if frames.length < depthLimit then some ⟨frame :: frames, expect⟩ else none

def Reader.close? (frames : List Frame) (token : Token) : Option Reader :=
  match frames, token with
  | .list items :: outer, .closeList => some (deliver outer (.list items.reverse))
  | .table members _ :: outer, .closeTable => some (deliver outer (.table members))
  | _, _ => none

def Reader.value? (frames : List Frame) : Token → Option Reader
  | .text value => some (deliver frames (.text value))
  | .scalar value => some (deliver frames value)
  | .openList => open? frames (.list []) .valueOrClose
  | .openTable => open? frames (.table [] "") .nameOrClose
  | _ => none

def Reader.name? (frames : List Frame) (name : String) : Option Reader :=
  match frames with
  | .table members _ :: outer => some ⟨.table members name :: outer, .colon⟩
  | _ => none

def Reader.step? (reader : Reader) (token : Token) : Option Reader :=
  let frames := reader.frames
  match reader.expect, token with
  | .value, token => value? frames token
  | .valueOrClose, .closeList => close? frames .closeList
  | .valueOrClose, token => value? frames token
  | .commaOrClose, .comma =>
    match frames with
    | .list _ :: _ => some ⟨frames, .value⟩
    | .table _ _ :: _ => some ⟨frames, .name⟩
    | [] => none
  | .commaOrClose, token => close? frames token
  | .nameOrClose, .closeTable => close? frames .closeTable
  | .nameOrClose, .text name => name? frames name
  | .name, .text name => name? frames name
  | .colon, .colon => some ⟨frames, .value⟩
  | _, _ => none

/-- Reads the whole text as one document. -/
def read? (text : String) : Option Document := do
  let tokens ← tokens? text
  let reader ← tokens.foldlM Reader.step? Reader.start
  match reader.expect with
  | .nothing document => some document
  | _ => none

end Compendium.Json
