import Compendium.Build.Manifest
import Compendium.Command.Usage

/-! The commands of the program, and how a command line says which one to carry out. -/

set_option autoImplicit false
namespace Compendium

/-- Values that take precedence over those of the manifest. -/
structure ManifestChanges where
  dataDirectory : Option Path
  heroDataDirectory : Option Path
  outputDirectory : Option Path
  language : Option String
  suffix : Option String
  concurrency : Option Nat
  deriving DecidableEq, Repr

def ManifestChanges.apply (changes : ManifestChanges) (manifest : Manifest) : Manifest where
  build := {
    language := changes.language.getD manifest.build.language
    suffix := changes.suffix.getD manifest.build.suffix
    outputDirectory := changes.outputDirectory.getD manifest.build.outputDirectory
    concurrency := changes.concurrency.getD manifest.build.concurrency }
  sources := {
    dataDirectory := changes.dataDirectory.getD manifest.sources.dataDirectory
    heroDataDirectory := changes.heroDataDirectory.getD manifest.sources.heroDataDirectory
    heroOverrides := manifest.sources.heroOverrides }
  jobs := manifest.jobs

/-- Builds the documents of some jobs, or of all that the manifest enables. -/
structure BuildRequest where
  manifest : Path
  changes : ManifestChanges
  jobs : List Job
  quiet : Bool
  deriving DecidableEq, Repr

/-- Converts a block text to JSON, or JSON to a block text. -/
structure ConvertRequest where
  source : Path
  destination : Option Path
  /-- Whether the root of a block text is taken out of it. -/
  rooted : Bool
  deriving DecidableEq, Repr

/-- Shows the tooltip of one ability or item. -/
structure InspectRequest where
  strings : Path
  scripts : Path
  key : String
  isItem : Bool
  deriving DecidableEq, Repr

inductive Command where
  | build (request : BuildRequest)
  | convert (request : ConvertRequest)
  | inspect (request : InspectRequest)
  deriving DecidableEq, Repr

def helpOption : OptionSpec := ⟨"help", some 'h', .help, false⟩

namespace BuildRequest

def options : List OptionSpec :=
  [helpOption,
   ⟨"manifest", some 'm', .path, false⟩,
   ⟨"data-dir", none, .path, false⟩,
   ⟨"herodata-dir", none, .path, false⟩,
   ⟨"output-dir", some 'o', .path, false⟩,
   ⟨"language", some 'l', .text, false⟩,
   ⟨"suffix", none, .text, false⟩,
   ⟨"concurrency", some 'c', .count, false⟩,
   ⟨"job", some 'j', .job, false⟩,
   ⟨"quiet", some 'q', .switch, false⟩]

def ofGiven (given : Given) : BuildRequest where
  manifest := (given.path? "manifest").getD ⟨Manifest.defaultFile⟩
  changes := {
    dataDirectory := given.path? "data-dir"
    heroDataDirectory := given.path? "herodata-dir"
    outputDirectory := given.path? "output-dir"
    language := given.value? "language"
    suffix := given.value? "suffix"
    concurrency := (given.value? "concurrency").bind readCount? }
  jobs := (given.values "job").filterMap fun name => (Job.ofName name).toOption
  quiet := given.isOn "quiet"

end BuildRequest

namespace ConvertRequest

def options : List OptionSpec :=
  [helpOption,
   ⟨"source", some 's', .path, true⟩,
   ⟨"destination", some 'd', .path, false⟩,
   ⟨"root", none, .switch, false⟩]

def ofGiven (given : Given) : ConvertRequest where
  source := (given.path? "source").getD ⟨""⟩
  destination := given.path? "destination"
  rooted := given.isOn "root"

end ConvertRequest

namespace InspectRequest

def options : List OptionSpec :=
  [helpOption,
   ⟨"strings", none, .path, true⟩,
   ⟨"scripts", none, .path, true⟩,
   ⟨"key", some 'k', .text, true⟩,
   ⟨"item", none, .switch, false⟩]

def ofGiven (given : Given) : InspectRequest where
  strings := (given.path? "strings").getD ⟨""⟩
  scripts := (given.path? "scripts").getD ⟨""⟩
  key := (given.value? "key").getD ""
  isItem := given.isOn "item"

end InspectRequest

namespace Command

def names : List String :=
  ["build", "vdf", "tooltip", "help"]

/-- Help on a command is asked for by its name, and on the program without one. -/
def readHelp : List String → UsageError
  | [] => .helpAsked
  | [name] => if name ∈ names then .helpAsked else .unknownCommand
  | _ => .unknownCommand

/-- An argument in the place of a command that is no command's name. -/
def readOther (argument : String) (rest : List String) : UsageError :=
  match argument.toList with
  | ['-', '-'] =>
    match rest with
    | [] => .missingCommand
    | name :: _ => if name ∈ names then .unknownArgument else .unknownCommand
  | '-' :: '-' :: text =>
    let name := String.ofList (text.takeWhile (· ≠ '='))
    if name ≠ "help" ∧ name ≠ "version" then .unknownArgument
    else if '=' ∈ text then .unneededValue
    else if name = "help" then .helpAsked
    else .versionAsked
  | '-' :: 'h' :: _ => .helpAsked
  | '-' :: 'V' :: _ => .versionAsked
  | '-' :: _ :: _ => .unknownArgument
  | _ => .unknownCommand

def ofArguments : List String → Except UsageError Command
  | [] => .error .missingCommand
  | "build" :: rest => do return .build (.ofGiven (← Given.ofArguments BuildRequest.options rest))
  | "vdf" :: rest => do return .convert (.ofGiven (← Given.ofArguments ConvertRequest.options rest))
  | "tooltip" :: rest => do return .inspect (.ofGiven (← Given.ofArguments InspectRequest.options rest))
  | "help" :: rest => .error (readHelp rest)
  | argument :: rest => .error (readOther argument rest)

end Command
end Compendium
