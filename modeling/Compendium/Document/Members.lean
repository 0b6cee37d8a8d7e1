/-! Named members in the order in which their names first appeared. Writing a name again keeps its place and
replaces its value, so a list built by `put` has pairwise distinct names. -/

set_option autoImplicit false
namespace Compendium

abbrev Members (α : Type) := List (String × α)

namespace Members

variable {α β : Type}

def at? : Members α → String → Option α
  | [], _ => none
  | (name, value) :: rest, key => if name = key then some value else at? rest key

def put : Members α → String → α → Members α
  | [], key, new => [(key, new)]
  | (name, value) :: rest, key, new =>
    if name = key then (name, new) :: rest else (name, value) :: put rest key new

/-- Puts the pairs one after the other into `members`. -/
def putAll (members : Members α) (pairs : List (String × α)) : Members α :=
  pairs.foldl (fun result pair => put result pair.1 pair.2) members

def ofPairs (pairs : List (String × α)) : Members α :=
  putAll [] pairs

def names (members : Members α) : List String :=
  members.map Prod.fst

def values (members : Members α) : List α :=
  members.map Prod.snd

def mapValues (f : α → β) (members : Members α) : Members β :=
  members.map fun (name, value) => (name, f value)

def has (members : Members α) (key : String) : Bool :=
  (at? members key).isSome

/-- No name occurs twice. -/
def Distinct (members : Members α) : Prop :=
  (names members).Nodup

theorem at?_put_self (members : Members α) (key : String) (new : α) :
    at? (put members key new) key = some new := by
  induction members with
  | nil => simp [put, at?]
  | cons entry rest ih =>
    obtain ⟨name, value⟩ := entry
    by_cases h : name = key
    · simp [put, at?, h]
    · simp [put, at?, h, ih]

theorem at?_put_of_ne (members : Members α) {key other : String} (new : α) (h : key ≠ other) :
    at? (put members key new) other = at? members other := by
  induction members with
  | nil => simp [put, at?, h]
  | cons entry rest ih =>
    obtain ⟨name, value⟩ := entry
    by_cases hk : name = key
    · subst hk
      simp [put, at?, h]
    · rw [put, if_neg hk, at?, at?, ih]

theorem at?_put (members : Members α) (key other : String) (new : α) :
    at? (put members key new) other = if key = other then some new else at? members other := by
  by_cases h : key = other
  · subst h
    simp [at?_put_self]
  · simp [at?_put_of_ne members new h, h]

theorem at?_map (members : Members α) (f : String → α → β) (key : String) :
    at? (members.map fun entry => (entry.1, f entry.1 entry.2)) key = (at? members key).map (f key) := by
  induction members with
  | nil => rfl
  | cons entry rest ih =>
    obtain ⟨name, value⟩ := entry
    by_cases same : name = key
    · simp [at?, same]
    · simp [at?, same, ih]

theorem at?_filter (members : Members α) (keep : String → Bool) (key : String) :
    at? (members.filter fun entry => keep entry.1) key = if keep key then at? members key else none := by
  induction members with
  | nil => simp [at?]
  | cons entry rest ih =>
    obtain ⟨name, value⟩ := entry
    rw [List.filter_cons]
    by_cases same : name = key
    · subst same
      cases kept : keep name with
      | true => simp [at?]
      | false => simp [kept, ih]
    · cases keep name with
      | true => simp [at?, same, ih]
      | false => simp [at?, same, ih]

/-- A new name goes to the end, a known one keeps its place. -/
theorem names_put (members : Members α) (key : String) (new : α) :
    names (put members key new) = if key ∈ names members then names members else names members ++ [key] := by
  induction members with
  | nil => simp [put, names]
  | cons entry rest ih =>
    obtain ⟨name, value⟩ := entry
    by_cases h : name = key
    · simp [put, names, h]
    · have : ¬ key = name := fun e => h e.symm
      simp only [names] at ih
      by_cases hm : key ∈ rest.map Prod.fst
      · simp [put, names, h, this, ih, hm]
      · simp [put, names, h, this, ih, hm]

theorem distinct_put {members : Members α} (h : Distinct members) (key : String) (new : α) :
    Distinct (put members key new) := by
  unfold Distinct at *
  rw [names_put]
  split
  · exact h
  · next hm => exact List.nodup_append.mpr ⟨h, by simp, by simp; intro a ha e; exact hm (e ▸ ha)⟩

theorem distinct_putAll {members : Members α} (h : Distinct members) (pairs : List (String × α)) :
    Distinct (putAll members pairs) := by
  induction pairs generalizing members with
  | nil => exact h
  | cons pair rest ih => exact ih (distinct_put h pair.1 pair.2)

theorem distinct_ofPairs (pairs : List (String × α)) : Distinct (ofPairs pairs) :=
  have empty : Distinct ([] : Members α) := List.nodup_nil
  distinct_putAll empty pairs

end Members
end Compendium
