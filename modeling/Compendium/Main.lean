import Compendium.Command.Consulted
import Compendium.Command.Duration
import Compendium.Command.Run

/-! The program. It reads what a command looks at into a file tree, runs the command over the tree, and writes the
files that the command changed. -/

set_option autoImplicit false
namespace Compendium.Program

def content? (path : Path) : IO (Option Content) := do
  try
    return some (Content.ofBytes (← IO.FS.readBinFile path.text))
  catch _ => return none

/-- The names in a directory. -/
def names? (path : Path) : IO (Option (List String)) := do
  try
    let entries ← ((← IO.currentDir) / path.text).readDir
    return some (entries.toList.map fun entry => entry.fileName)
  catch _ => return none

/-- Adds what a path leads to, or the first path above it that leads to something. -/
def addPath (tree : FileTree) (path : Path) : Nat → IO FileTree
  | 0 => return tree
  | fuel + 1 => do
    if let some content ← content? path then return tree.plant path (some content)
    if (← names? path).isSome then return tree.plant path none
    match path.parent? with
    | some parent => addPath tree parent fuel
    | none => return tree

/-- Adds a directory with all that lies in it, down to a depth. -/
def addDirectory (tree : FileTree) (path : Path) : Nat → IO FileTree
  | 0 => return tree
  | depth + 1 => do
    if let some content ← content? path then return tree.plant path (some content)
    match ← names? path with
    | none => return tree
    | some names => names.foldlM (fun tree name => addDirectory tree (path.child name) depth) (tree.plant path none)

/-- Directories are followed down to this depth. -/
def depthLimit : Nat := 1000

def addConsulted (tree : FileTree) (command : Command) : IO FileTree := do
  let tree ← (command.files tree).foldlM (fun grown path => addPath grown path (path.text.length + 1)) tree
  (command.directories tree).foldlM (fun grown path => addDirectory grown path depthLimit) tree

/-- Writes what differs between two trees. -/
def store (before after : FileTree) : IO Unit := do
  for (location, entry) in after.entries do
    if before.entryAt? location != some entry then
      match entry with
      | .directory => IO.FS.createDirAll location.path.text
      | .file (.text text) => IO.FS.writeFile location.path.text text
      | .file (.binary bytes) => IO.FS.writeBinFile location.path.text ⟨bytes.toArray⟩

def usage : String :=
  "Usage: compendium build [OPTIONS]\n" ++
  "       compendium vdf --source FILE [--destination FILE] [--root]\n" ++
  "       compendium tooltip --strings FILE --scripts FILE --key NAME [--item]"

def version : String := "compendium 0.1.0"

def refuse (error : UsageError) : IO UInt32 := do
  match error with
  | .helpAsked => IO.println usage; return 0
  | .versionAsked => IO.println version; return 0
  | _ => IO.eprintln usage; return 2

def carryOut (command : Command) : IO UInt32 := do
  let start ← IO.monoMsNow
  let manifests ← addConsulted FileTree.empty command
  let before ← addConsulted manifests command
  let outcome := command.run before
  store before outcome.tree
  IO.print (outcome.output (Duration.text ((← IO.monoMsNow) - start)))
  match outcome.result with
  | .ok () => return 0
  | .error error => IO.eprintln ("Error: " ++ error.message); return 1

end Compendium.Program

def main (arguments : List String) : IO UInt32 :=
  match Compendium.Command.ofArguments arguments with
  | .ok command => Compendium.Program.carryOut command
  | .error error => Compendium.Program.refuse error
