import Compendium.Notice
import Compendium.Tooltip.Lookup

/-! Item descriptions sorted by line. A line with a header `<h1>Kind: Name</h1>` opens a section of that kind; any
other line is a hint. -/

set_option autoImplicit false
namespace Compendium

structure Section where
  name : String
  desc : String
  deriving DecidableEq, Repr

structure ItemText where
  hints : List String
  /-- Kinds in the order of their first line. -/
  sections : Members (List Section)
  deriving DecidableEq, Repr

/-- What one line becomes. -/
inductive LineReading where
  | hint (text : String)
  | entry (kind : String) (content : Section)
  | malformed
  deriving DecidableEq, Repr

namespace ItemText

def empty : ItemText :=
  ⟨[], []⟩

def isEmpty (item : ItemText) : Bool :=
  item.hints.isEmpty && item.sections.isEmpty

def openTag : List Char := ['<', 'h', '1', '>']

def closeTag : List Char := ['<', '/', 'h', '1', '>']

/-- The tag that goes on with `text`, up to its end, and what follows it. -/
def cutTag? : List Char → Option (List Char × List Char)
  | [] => none
  | c :: rest =>
    if c = '>' then some ([c], rest) else (cutTag? rest).map fun (tag, after) => (c :: tag, after)

theorem length_cutTag? {text tag after : List Char} (h : cutTag? text = some (tag, after)) :
    after.length < text.length := by
  induction text generalizing tag with
  | nil => cases h
  | cons c rest ih =>
    simp only [cutTag?] at h
    split at h
    · cases h
      exact Nat.lt_succ_self _
    · obtain ⟨⟨inner, last⟩, found, same⟩ := Option.map_eq_some_iff.mp h
      cases same
      exact Nat.lt_succ_of_lt (ih found)

def isHeaderTag (tag : List Char) : Bool :=
  Text.eqIgnoringAsciiCase tag openTag || Text.eqIgnoringAsciiCase tag closeTag

/-- Drops every tag that neither opens nor closes a header. -/
def keepHeaders (text : List Char) : List Char :=
  match text with
  | [] => []
  | c :: rest =>
    if c = '<' then
      match _found : cutTag? rest with
      | some (tag, after) => (if isHeaderTag (c :: tag) then c :: tag else []) ++ keepHeaders after
      | none => c :: keepHeaders rest
    else c :: keepHeaders rest
termination_by text.length
decreasing_by
  · exact Nat.lt_succ_of_lt (length_cutTag? _found)
  · exact Nat.lt_succ_self _
  · exact Nat.lt_succ_self _

/-- What stands before and after the first occurrence of a tag in any letter case. -/
def splitAtTag? (tag : List Char) : List Char → Option (List Char × List Char)
  | [] => none
  | c :: rest =>
    if Text.eqIgnoringAsciiCase ((c :: rest).take tag.length) tag then some ([], (c :: rest).drop tag.length)
    else (splitAtTag? tag rest).map fun (before, after) => (c :: before, after)

def isColon (c : Char) : Bool :=
  c == ':' || c == '：'

/-- Reads a header line whose other tags are gone: the kind runs to the first colon after the opening tag, the name
to the next closing tag, and the description to the end. -/
def readHeader? (text : List Char) : Option (String × Section) := do
  let (_, body) ← splitAtTag? openTag text
  let kind := body.takeWhile fun c => !isColon c
  match body.dropWhile fun c => !isColon c with
  | [] => none
  | _ :: afterColon =>
    let (name, desc) ← splitAtTag? closeTag afterColon
    let trimmed (part : List Char) := String.ofList (Text.trim part)
    return (Text.lower (trimmed kind), ⟨trimmed name, trimmed desc⟩)

/-- A hint has its doubled percent signs halved, its tokens looked up in the script and its tags dropped. -/
def readHint (script : Document) (line : String) : String :=
  let single := Text.replaceAll line "%%" "%"
  Markup.stripTags (TokenGrammar.smallName.fill (fun name => Lookup.textOf name script) single)

def readLine (script : Document) (line : String) : LineReading :=
  if Text.occursIn "<h1>" line then
    match readHeader? (keepHeaders line.toList) with
    | some (kind, content) => .entry kind content
    | none => .malformed
  else .hint (readHint script line)

def addEntry (item : ItemText) (kind : String) (content : Section) : ItemText :=
  let earlier := (Members.at? item.sections kind).getD []
  { item with sections := Members.put item.sections kind (earlier ++ [content]) }

def addLine (script : Document) (item : ItemText) (line : String) : Report ItemText :=
  match readLine script line with
  | .hint text => pure { item with hints := item.hints ++ [text] }
  | .entry kind content => pure (item.addEntry kind content)
  | .malformed => do
    Report.tell (.malformedHeader line)
    return item

/-- Sorts lines into hints and sections. -/
def ofLines (lines : List String) (script : Document) : Report ItemText :=
  lines.foldlM (addLine script) empty

def sectionsOf (item : ItemText) (kind : String) : List Section :=
  (Members.at? item.sections kind).getD []

def sectionDocument (content : Section) : Document :=
  .table [("name", .text content.name), ("desc", .text content.desc)]

/-- The members of the description: its hints if there are any, then its sections by kind. A section may be of the
kind `hint` too. -/
def toMembers (item : ItemText) : List (String × Document) :=
  let hints := if item.hints.isEmpty then [] else [("hint", Document.texts item.hints)]
  hints ++ item.sections.map fun (kind, contents) => (kind, .list (contents.map sectionDocument))

def toDocument (item : ItemText) : Document :=
  .table (Members.ofPairs item.toMembers)

end ItemText
end Compendium
