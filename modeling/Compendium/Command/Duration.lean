/-! How long something took, told in one unit. -/

set_option autoImplicit false
namespace Compendium.Duration

/-- Units from the longest to the shortest, in milliseconds. -/
def longUnits : List (Nat × String) :=
  [(31536000000, "year"), (604800000, "week"), (86400000, "day"), (3600000, "hour"), (60000, "minute")]

def second : Nat := 1000

def rounded (duration unit : Nat) : Nat :=
  (2 * duration + unit) / (2 * unit)

/-- The first unit that fits one and a half times, give or take half of the unit below it. -/
def unitOf? (duration : Nat) : List (Nat × String) → Option (Nat × String)
  | [] => none
  | (unit, name) :: rest =>
    let below := match rest with
      | [] => second
      | (smaller, _) :: _ => smaller
    if unit + unit / 2 ≤ duration + below / 2 then some (unit, name) else unitOf? duration rest

/-- Longer units than the second are told at least twice. -/
def text (duration : Nat) : String :=
  match unitOf? duration longUnits with
  | some (unit, name) => toString (max 2 (rounded duration unit)) ++ " " ++ name ++ "s"
  | none =>
    let seconds := rounded duration second
    toString seconds ++ if seconds = 1 then " second" else " seconds"

end Compendium.Duration
