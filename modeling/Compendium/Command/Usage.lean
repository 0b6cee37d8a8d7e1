import Compendium.Build.Job

/-! Options on a command line. An option is given by its long name or by one letter; its value follows, or is
attached to it. A value is looked at when the next known option comes or the line ends, so an argument that nothing
knows is told first. -/

set_option autoImplicit false
namespace Compendium

/-- Why a command line is not carried out. -/
inductive UsageError where
  | helpAsked
  | versionAsked
  | missingCommand
  | unknownCommand
  | unknownArgument
  | missingOption
  /-- An option has no value, or an empty one where a path is needed. -/
  | missingValue
  | badValue
  | repeatedOption
  /-- A value is attached to an option that takes none. -/
  | unneededValue
  deriving DecidableEq, Repr

/-- What kind of value an option takes, if it takes one. -/
inductive OptionKind where
  | help
  | switch
  | path
  | text
  | count
  /-- The name of a job. The option may be given several times. -/
  | job
  deriving DecidableEq, Repr

structure OptionSpec where
  name : String
  letter : Option Char
  kind : OptionKind
  required : Bool
  deriving DecidableEq, Repr

/-- A number without sign of at most 64 bits; a plus sign may stand in front of it. -/
def readCount? (text : String) : Option Nat :=
  let digits := match text.toList with
    | '+' :: rest => rest
    | rest => rest
  if digits ≠ [] ∧ digits.all Char.isDigit ∧ readDigits digits < Nat.pow 2 64 then some (readDigits digits) else none

namespace OptionKind

def takesValue : OptionKind → Bool
  | help | switch => false
  | _ => true

def check (kind : OptionKind) (value : String) : Except UsageError Unit :=
  match kind with
  | path => if value = "" then .error .missingValue else .ok ()
  | count => if (readCount? value).isSome then .ok () else .error .badValue
  | job =>
    match Job.ofName value with
    | .ok _ => .ok ()
    | .error _ => .error .badValue
  | _ => .ok ()

end OptionKind

/-- The values of options by their long names, in the order in which they were given. A switch has the empty value. -/
abbrev Given := List (String × String)

namespace Given

def value? (given : Given) (name : String) : Option String :=
  Members.at? given name

def isOn (given : Given) (name : String) : Bool :=
  (given.value? name).isSome

def values (given : Given) (name : String) : List String :=
  given.filterMap fun entry => if entry.1 = name then some entry.2 else none

def path? (given : Given) (name : String) : Option Path :=
  (given.value? name).map Path.mk

/-- Adds an option with its value. -/
def add (given : Given) (option : OptionSpec) (value : Option String) : Except UsageError Given :=
  if option.kind = .help then .error .helpAsked
  else if option.kind.takesValue ∧ value = none then .error .missingValue
  else if option.kind ≠ .job ∧ given.isOn option.name then .error .repeatedOption
  else do
    let content := value.getD ""
    option.kind.check content
    return given ++ [(option.name, content)]

end Given

/-- How far a command line has been read. The last option may still lack its value. -/
structure Intake where
  given : Given
  pending : Option (OptionSpec × Option String)

namespace Intake

/-- Adds the option that is pending. -/
def settle (intake : Intake) : Except UsageError Given :=
  match intake.pending with
  | none => .ok intake.given
  | some (option, value) => intake.given.add option value

def addNow (intake : Intake) (option : OptionSpec) (value : Option String) : Except UsageError Intake := do
  let given ← intake.settle
  return ⟨← given.add option value, none⟩

/-- Starts an option whose value is to follow, or adds one that takes none. -/
def start (intake : Intake) (option : OptionSpec) : Except UsageError Intake :=
  if option.kind.takesValue then do
    let given ← intake.settle
    return ⟨given, some (option, none)⟩
  else intake.addNow option none

/-- Reads an option given by its long name, up to an equals sign. -/
def readLong (options : List OptionSpec) (intake : Intake) (text : List Char) : Except UsageError Intake :=
  let name := String.ofList (text.takeWhile (· ≠ '='))
  let attached := match text.dropWhile (· ≠ '=') with
    | [] => none
    | _ :: value => some (String.ofList value)
  match options.find? (·.name == name), attached with
  | none, _ => .error .unknownArgument
  | some option, none => intake.start option
  | some option, some value =>
    if option.kind.takesValue then intake.addNow option (some value) else .error .unneededValue

/-- Reads options given by letters. What follows the letter of an option that takes a value is its value; an equals
sign between them is passed over. -/
def readLetters (options : List OptionSpec) (intake : Intake) : List Char → Except UsageError Intake
  | [] => .ok intake
  | letter :: rest =>
    match options.find? (·.letter == some letter) with
    | none => .error .unknownArgument
    | some option =>
      if option.kind.takesValue then
        match rest with
        | [] => intake.start option
        | '=' :: value => intake.addNow option (some (String.ofList value))
        | value => intake.addNow option (some (String.ofList value))
      else do
        let next ← intake.addNow option none
        next.readLetters options rest

/-- Reads an argument that is no option: the value of the option before it. -/
def readValue (intake : Intake) (value : String) : Except UsageError Intake :=
  match intake.pending with
  | some (option, none) => .ok { intake with pending := some (option, some value) }
  | _ => .error .unknownArgument

/-- Reads arguments. Behind two dashes nothing may follow. -/
def readAll (options : List OptionSpec) (intake : Intake) : List String → Except UsageError Given
  | [] => intake.settle
  | argument :: rest =>
    match argument.toList with
    | ['-', '-'] => if rest = [] then intake.settle else .error .unknownArgument
    | '-' :: '-' :: text => do (← intake.readLong options text).readAll options rest
    | '-' :: letter :: letters => do (← intake.readLetters options (letter :: letters)).readAll options rest
    | _ => do (← intake.readValue argument).readAll options rest

end Intake

/-- Reads the options of a command. All required ones must be given. -/
def Given.ofArguments (options : List OptionSpec) (arguments : List String) : Except UsageError Given := do
  let given ← Intake.readAll options ⟨[], none⟩ arguments
  if options.all fun option => !option.required || given.isOn option.name then return given
  else .error .missingOption

end Compendium
