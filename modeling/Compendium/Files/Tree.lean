import Compendium.Files.Path
import Compendium.Document.Members

/-! A tree of files, and how paths are looked up, read, created and written in it. A relative path starts at the
working directory. Locations are lists of names with the innermost first; one that ends in a slash or in double dots
lies outside of the working directory. -/

set_option autoImplicit false
namespace Compendium

inductive FileError where
  | notFound
  | alreadyExists
  | notDirectory
  | isDirectory
  | nameTooLong
  | zeroInName
  | notText
  | noTree
  deriving DecidableEq, Repr

def FileError.message : FileError → String
  | .notFound => "No such file or directory (os error 2)"
  | .alreadyExists => "File exists (os error 17)"
  | .notDirectory => "Not a directory (os error 20)"
  | .isDirectory => "Is a directory (os error 21)"
  | .nameTooLong => "File name too long (os error 36)"
  | .zeroInName => "file name contained an unexpected NUL byte"
  | .notText => "stream did not contain valid UTF-8"
  | .noTree => "failed to create whole tree"

/-- Bytes that are no text are held as they are. -/
inductive Content where
  | text (value : String)
  | binary (bytes : List UInt8)
  deriving DecidableEq, Repr

def Content.ofBytes (bytes : ByteArray) : Content :=
  match String.fromUTF8? bytes with
  | some value => .text value
  | none => .binary bytes.toList

inductive Entry where
  | file (content : Content)
  | directory
  deriving DecidableEq, Repr

abbrev Location := List String

namespace Location

/-- The working directory, the directories above it and the root exist in every tree. -/
def isGiven (location : Location) : Bool :=
  location == ["/"] || location.all (· == "..")

def up : Location → Location
  | [] => [".."]
  | name :: rest => if name = ".." then name :: name :: rest else if name = "/" then name :: rest else rest

def enter (location : Location) (segment : String) : Location :=
  if segment = "" ∨ segment = "." then location
  else if segment = ".." then location.up
  else segment :: location

/-- Whether a location lies in the working directory. -/
def isInside (location : Location) : Bool :=
  location.all fun name => name != ".." && name != "/"

/-- The path of a location inside of the working directory. -/
def path (location : Location) : Path :=
  ⟨Text.join "/" location.reverse⟩

end Location

structure FileTree where
  entries : List (Location × Entry)
  deriving DecidableEq, Repr

namespace FileTree

def empty : FileTree :=
  ⟨[]⟩

def lookup? (entries : List (Location × Entry)) (location : Location) : Option Entry :=
  match entries with
  | [] => none
  | (place, entry) :: rest => if place = location then some entry else lookup? rest location

def entryAt? (tree : FileTree) (location : Location) : Option Entry :=
  if location.isGiven then some .directory else lookup? tree.entries location

def putEntry (location : Location) (entry : Entry) : List (Location × Entry) → List (Location × Entry)
  | [] => [(location, entry)]
  | (place, old) :: rest =>
    if place = location then (place, entry) :: rest else (place, old) :: putEntry location entry rest

def put (tree : FileTree) (location : Location) (entry : Entry) : FileTree :=
  ⟨putEntry location entry tree.entries⟩

/-- Follows segments from a location; every place passed through must be a directory. -/
def walk (tree : FileTree) (location : Location) : List String → Except FileError Location
  | [] => .ok location
  | segment :: rest =>
    match tree.entryAt? location with
    | none => .error .notFound
    | some (.file _) => .error .notDirectory
    | some .directory =>
      if 255 < segment.utf8ByteSize then .error .nameTooLong else tree.walk (location.enter segment) rest

def startOf (path : Path) : Location :=
  if path.isAbsolute then ["/"] else []

def checkName (path : Path) : Except FileError Unit :=
  if path.text.toList.contains '\x00' then .error .zeroInName
  else if path.text = "" then .error .notFound
  else if 4096 ≤ path.text.utf8ByteSize then .error .nameTooLong
  else .ok ()

def find (tree : FileTree) (path : Path) : Except FileError (Location × Entry) := do
  checkName path
  let location ← tree.walk (startOf path) path.segments
  match tree.entryAt? location with
  | none => .error .notFound
  | some entry => .ok (location, entry)

def isFile (tree : FileTree) (path : Path) : Bool :=
  match tree.find path with
  | .ok (_, .file _) => true
  | _ => false

def isDirectory (tree : FileTree) (path : Path) : Bool :=
  match tree.find path with
  | .ok (_, .directory) => true
  | _ => false

/-- The whole text of a file. -/
def readText (tree : FileTree) (path : Path) : Except FileError String := do
  match ← tree.find path with
  | (_, .directory) => .error .isDirectory
  | (_, .file (.binary _)) => .error .notText
  | (_, .file (.text value)) => .ok value

/-- Splits the last segment off; `trailing` says whether slashes follow it. -/
structure Target where
  parent : Location
  name : String
  trailing : Bool

def target (tree : FileTree) (path : Path) : Except FileError Target := do
  checkName path
  let reversed := path.segments.reverse
  let trailing := reversed.head? == some ""
  match reversed.dropWhile (· == "") with
  | [] => .ok ⟨["/"], ".", trailing⟩
  | name :: rest =>
    let parent ← tree.walk (startOf path) rest.reverse
    match tree.entryAt? parent with
    | none => .error .notFound
    | some (.file _) => .error .notDirectory
    | some .directory => if 255 < name.utf8ByteSize then .error .nameTooLong else .ok ⟨parent, name, trailing⟩

/-- Creates one directory in an existing one. -/
def makeDirectory (tree : FileTree) (path : Path) : Except FileError FileTree := do
  let target ← tree.target path
  let location := Location.enter target.parent target.name
  match tree.entryAt? location with
  | some _ => .error .alreadyExists
  | none => .ok (tree.put location .directory)

/-- The path and the paths above it, as far as they have a parent. -/
def lineage (path : Path) (fuel : Nat) : List Path :=
  match fuel with
  | 0 => [path]
  | fuel + 1 =>
    match path.parent? with
    | none => [path]
    | some parent => path :: lineage parent fuel

/-- Creates the first directory of the list after those further up that are missing. What was created before a
failure stays. -/
def makeLineage (tree : FileTree) : List Path → FileTree × Except FileError Unit
  | [] => (tree, .error .noTree)
  | path :: above =>
    if path.text = "" then (tree, .ok ())
    else
      match tree.makeDirectory path with
      | .ok created => (created, .ok ())
      | .error .notFound =>
        match tree.makeLineage above with
        | (grown, .error error) => (grown, .error error)
        | (grown, .ok ()) =>
          match grown.makeDirectory path with
          | .ok created => (created, .ok ())
          | .error error => (grown, if grown.isDirectory path then .ok () else .error error)
      | .error error => (tree, if tree.isDirectory path then .ok () else .error error)

/-- Makes sure that a directory and all above it exist. -/
def makeDirectories (tree : FileTree) (path : Path) : FileTree × Except FileError Unit :=
  tree.makeLineage (lineage path path.text.length)

/-- Creates a file or replaces its content. -/
def write (tree : FileTree) (path : Path) (content : Content) : Except FileError FileTree := do
  let target ← tree.target path
  if target.trailing ∨ target.name = "." ∨ target.name = ".." then .error .isDirectory
  else
    let location := Location.enter target.parent target.name
    match tree.entryAt? location with
    | some .directory => .error .isDirectory
    | _ => .ok (tree.put location (.file content))

def writeText (tree : FileTree) (path : Path) (text : String) : Except FileError FileTree :=
  tree.write path (.text text)

/-- The names that lead from one location to another one below it. -/
def namesBelow? (base location : Location) : Option (List String) :=
  (base.reverse.isPrefixOf? location.reverse).filter Location.isInside

/-- Compares name by name; a list comes before its continuations. -/
def namesLe : List String → List String → Bool
  | [], _ => true
  | _ :: _, [] => false
  | a :: as, b :: bs => a < b || (a == b && namesLe as bs)

/-- All JSON files at or below a path, ordered by the names that lead to them. -/
def jsonFiles (tree : FileTree) (path : Path) : List Path :=
  match tree.find path with
  | .error _ => []
  | .ok (_, .file _) => if path.isJson then [path] else []
  | .ok (base, .directory) =>
    let found := tree.entries.filterMap fun (location, entry) =>
      match entry with
      | .directory => none
      | .file _ => namesBelow? base location
    let paths := (found.mergeSort namesLe).map fun names => names.foldl Path.child path
    paths.filter Path.isJson

/-- Adds a file, or an empty directory, and all directories above it. -/
def plant (tree : FileTree) (path : Path) (content : Option Content) : FileTree :=
  match content with
  | none => (tree.makeDirectories path).1
  | some content =>
    let grown := match path.parent? with
      | some parent => (tree.makeDirectories parent).1
      | none => tree
    match grown.write path content with
    | .ok written => written
    | .error _ => grown

/-- The files of the working directory that `after` holds and `before` does not hold with the same content. -/
def changedFiles (before after : FileTree) : List (Path × Content) :=
  after.entries.filterMap fun (location, entry) =>
    match entry with
    | .directory => none
    | .file content =>
      if location.isInside && before.entryAt? location != some (.file content) then some (location.path, content)
      else none

end FileTree
end Compendium
