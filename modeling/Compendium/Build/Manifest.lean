import Compendium.Build.Job
import Compendium.Document.Record
import Compendium.Toml.Reader

/-! The manifest of a build: where its sources are, what it writes, and which jobs are on. Everything has a default,
and what the manifest does not know it passes over. -/

set_option autoImplicit false
namespace Compendium

structure BuildSettings where
  language : String := "schinese"
  /-- Put behind the name of every job's file. -/
  suffix : String := "_cn"
  outputDirectory : Path := ⟨"build"⟩
  /-- How many jobs may run at once. -/
  concurrency : Nat := 10
  deriving DecidableEq, Repr

structure SourceSettings where
  dataDirectory : Path := ⟨"data"⟩
  heroDataDirectory : Path := ⟨"data/herodata"⟩
  heroOverrides : Option Path := none
  deriving DecidableEq, Repr

structure JobSwitches where
  items : Bool := true
  abilities : Bool := true
  heroes : Bool := true
  heroNames : Bool := true
  heroLore : Bool := true
  aghanim : Bool := true
  deriving DecidableEq, Repr

structure Manifest where
  build : BuildSettings := {}
  sources : SourceSettings := {}
  jobs : JobSwitches := {}
  deriving DecidableEq, Repr

open Document

def Document.count? (document : Document) : Option Nat :=
  document.integer?.bind fun value => if 0 ≤ value then some value.toNat else none

def Document.path? (document : Document) : Option Path :=
  document.text?.map Path.mk

def BuildSettings.ofDocument? (document : Document) : Option BuildSettings := do
  let members ← document.record? ["language", "suffix", "output_dir", "concurrency"]
  let defaults : BuildSettings := {}
  return {
    language := ← fieldOr members "language" defaults.language text?
    suffix := ← fieldOr members "suffix" defaults.suffix text?
    outputDirectory := ← fieldOr members "output_dir" defaults.outputDirectory path?
    concurrency := ← fieldOr members "concurrency" defaults.concurrency count? }

def SourceSettings.ofDocument? (document : Document) : Option SourceSettings := do
  let members ← document.record? ["data_dir", "herodata_dir", "hero_overrides"]
  let defaults : SourceSettings := {}
  return {
    dataDirectory := ← fieldOr members "data_dir" defaults.dataDirectory path?
    heroDataDirectory := ← fieldOr members "herodata_dir" defaults.heroDataDirectory path?
    heroOverrides := ← fieldOr members "hero_overrides" none fun value => value.path?.map some }

def JobSwitches.ofDocument? (document : Document) : Option JobSwitches := do
  let members ← document.record? ["items", "abilities", "heroes", "hero_names", "hero_lore", "aghs"]
  return {
    items := ← fieldOr members "items" true bool?
    abilities := ← fieldOr members "abilities" true bool?
    heroes := ← fieldOr members "heroes" true bool?
    heroNames := ← fieldOr members "hero_names" true bool?
    heroLore := ← fieldOr members "hero_lore" true bool?
    aghanim := ← fieldOr members "aghs" true bool? }

def JobSwitches.isOn (switches : JobSwitches) : Job → Bool
  | .items => switches.items
  | .abilities => switches.abilities
  | .heroes => switches.heroes
  | .heroNames => switches.heroNames
  | .heroLore => switches.heroLore
  | .aghanim => switches.aghanim

namespace Manifest

/-- The name of the file that holds the manifest unless another one is given. -/
def defaultFile : String := "dotaconst.toml"

def ofDocument? (document : Document) : Option Manifest := do
  let members ← document.record? ["build", "sources", "jobs"]
  return {
    build := ← fieldOr members "build" {} BuildSettings.ofDocument?
    sources := ← fieldOr members "sources" {} SourceSettings.ofDocument?
    jobs := ← fieldOr members "jobs" {} JobSwitches.ofDocument? }

def ofText (text : String) : Except BuildError Manifest :=
  match (Toml.read? text).bind ofDocument? with
  | some manifest => .ok manifest
  | none => .error .manifest

/-- Puts every relative path of the manifest below a directory. -/
def below (base : Path) (manifest : Manifest) : Manifest where
  build := { manifest.build with outputDirectory := base.below manifest.build.outputDirectory }
  sources := {
    dataDirectory := base.below manifest.sources.dataDirectory
    heroDataDirectory := base.below manifest.sources.heroDataDirectory
    heroOverrides := manifest.sources.heroOverrides.map base.below }
  jobs := manifest.jobs

/-- Reads a manifest, whose paths start at the directory of its file. -/
def load (tree : FileTree) (path : Path) : Except BuildError Manifest := do
  let text ← (tree.readText path).mapError .file
  let manifest ← ofText text
  return match path.parent? with
    | some base => manifest.below base
    | none => manifest

/-- The defaults stand for a missing file. -/
def loadOrDefault (tree : FileTree) (path : Path) : Except BuildError Manifest :=
  if tree.isFile path then load tree path else .ok {}

/-- The jobs that are on, in their usual order. -/
def enabledJobs (manifest : Manifest) : List Job :=
  Job.all.filter manifest.jobs.isOn

/-- The file that a job writes. -/
def outputOf (manifest : Manifest) (job : Job) : Path :=
  manifest.build.outputDirectory.child (job.name ++ manifest.build.suffix ++ ".json")

end Manifest
end Compendium
