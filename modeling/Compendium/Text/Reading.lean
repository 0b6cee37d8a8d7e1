/-! Reading a text from the left. A step takes characters off the text or fails, and a step that fails has taken
nothing. -/

set_option autoImplicit false
namespace Compendium

abbrev Reading := StateT (List Char) Option

namespace Reading

variable {α : Type}

/-- A character of the given kind. -/
def oneOf (kind : Char → Bool) : Reading Char
  | [] => none
  | c :: rest => if kind c then some (c, rest) else none

def char (c : Char) : Reading Unit := do
  let _ ← oneOf (· == c)

/-- Exactly the given characters. -/
def exact (chars : List Char) : Reading Unit := fun text =>
  (chars.isPrefixOf? text).map fun rest => ((), rest)

/-- All characters of the given kind up to the first other one. -/
def run (kind : Char → Bool) : Reading (List Char) := fun text =>
  some (text.takeWhile kind, text.dropWhile kind)

/-- A given number of characters of one kind. -/
def times (kind : Char → Bool) : Nat → Reading (List Char)
  | 0 => pure []
  | count + 1 => do
    let c ← oneOf kind
    return c :: (← times kind count)

def atEnd : Reading Unit
  | [] => some ((), [])
  | _ :: _ => none

def optional (step : Reading α) : Reading (Option α) :=
  (some <$> step) <|> pure none

/-- At most `fuel` steps, until one fails. -/
def repeated (step : Reading α) : Nat → Reading (List α)
  | 0 => pure []
  | fuel + 1 =>
    (do
      let value ← step
      return value :: (← repeated step fuel)) <|> pure []

/-- All steps until one fails. Each is meant to take a character off at least, so their number is bounded by the
length of the text. -/
def many (step : Reading α) : Reading (List α) := do
  repeated step (← get).length

/-- Any number of steps with commas between them. -/
def separated (step : Reading α) : Reading (List α) :=
  (do
    let first ← step
    return first :: (← many (char ',' *> step))) <|> pure []

end Reading
end Compendium
