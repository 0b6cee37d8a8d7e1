import Compendium.Proofs.Files.Segments

/-! Walking through a file tree. Every place on the way must be a directory, so that what is found depends on the
directories that are there and on the entry at the end. -/

set_option autoImplicit false
namespace Compendium

namespace Location

/-- Double dots lead only out of places that have a property. -/
def LeavesOnly (held : Location → Prop) (location : Location) : List String → Prop
  | [] => True
  | segment :: rest => (segment = ".." → held location) ∧ LeavesOnly held (location.enter segment) rest

instance decidableLeavesOnly (held : Location → Prop) [DecidablePred held] (location : Location)
    (segments : List String) : Decidable (LeavesOnly held location segments) :=
  match segments with
  | [] => inferInstanceAs (Decidable True)
  | segment :: rest =>
    have := decidableLeavesOnly held (location.enter segment) rest
    inferInstanceAs (Decidable ((segment = ".." → _) ∧ _))

section
variable {held more : Location → Prop}

theorem LeavesOnly.mono (wider : ∀ place, held place → more place) {location : Location} {segments : List String}
    (leaves : LeavesOnly held location segments) : LeavesOnly more location segments := by
  induction segments generalizing location with
  | nil => trivial
  | cons segment rest ih => exact ⟨fun up => wider _ (leaves.1 up), ih leaves.2⟩

theorem leavesOnly_append (location : Location) (segments rest : List String) :
    LeavesOnly held location (segments ++ rest) ↔
      LeavesOnly held location segments ∧ LeavesOnly held (segments.foldl enter location) rest := by
  induction segments generalizing location with
  | nil => simp [LeavesOnly]
  | cons segment segments ih => simp [LeavesOnly, ih, and_assoc]

theorem leavesOnly_filter (location : Location) (segments : List String) :
    LeavesOnly held location (segments.filter fun segment => !isIdle segment) ↔ LeavesOnly held location segments := by
  induction segments generalizing location with
  | nil => rfl
  | cons segment rest ih =>
    cases idle : isIdle segment with
    | true =>
      have stays : segment ≠ ".." := by
        rintro rfl
        cases idle
      simp [idle, LeavesOnly, ih, stays, enter_of_isIdle idle]
    | false => simp [idle, LeavesOnly, ih]

end
end Location

namespace Path

/-- The double dots of a path lead only out of places that have a property. -/
structure LeavesOnly (held : Location → Prop) (path : Path) : Prop where
  leaves : Location.LeavesOnly held (FileTree.startOf path) path.segments

instance (held : Location → Prop) [DecidablePred held] (path : Path) : Decidable (path.LeavesOnly held) :=
  decidable_of_iff (Location.LeavesOnly held (FileTree.startOf path) path.segments) ⟨LeavesOnly.mk, LeavesOnly.leaves⟩

section
variable {held more : Location → Prop} {base path : Path} {name : String}

theorem LeavesOnly.mono (wider : ∀ place, held place → more place) (leavesOnly : path.LeavesOnly held) :
    path.LeavesOnly more :=
  ⟨leavesOnly.leaves.mono wider⟩

theorem leavesOnly_iff (leads : base.Leads name path) :
    path.LeavesOnly held ↔ base.LeavesOnly held ∧ Location.LeavesOnly held base.location [name] := by
  obtain ⟨lead, segments, steps⟩ := leads.segments
  have same : Location.LeavesOnly held (FileTree.startOf path) path.segments ↔
      Location.LeavesOnly held (FileTree.startOf base) base.segments ∧ Location.LeavesOnly held base.location [name] := by
    rw [segments, Location.leavesOnly_append, ← Location.leavesOnly_filter _ lead, ← Location.foldl_enter_filter _ lead,
      steps, leads.startOf, ← Path.location_eq, Path.steps, Location.leavesOnly_filter]
  exact ⟨fun leavesOnly => (same.mp leavesOnly.leaves).imp_left LeavesOnly.mk,
    fun both => ⟨same.mpr (both.imp_left LeavesOnly.leaves)⟩⟩

end
end Path

namespace FileTree

/-- Something is at a place. -/
def IsThere (tree : FileTree) (location : Location) : Prop :=
  tree.entryAt? location ≠ none

instance (tree : FileTree) : DecidablePred tree.IsThere :=
  fun location => inferInstanceAs (Decidable (tree.entryAt? location ≠ none))

/-- What can be among the names of a location. -/
def IsPlaceName (name : String) : Prop :=
  name = ".." ∨ name = "/" ∨ IsFileName name

/-- Every entry stands in a directory, and its names are such as files have. -/
structure WellFormed (tree : FileTree) : Prop where
  parents : ∀ entry ∈ tree.entries, tree.entryAt? entry.1.tail = some .directory
  names : ∀ entry ∈ tree.entries, ∀ name ∈ entry.1, IsPlaceName name

section
variable {tree : FileTree} {location other : Location} {entry : Entry}

theorem entryAt?_of_isGiven (given : location.isGiven = true) : tree.entryAt? location = some .directory := by
  rw [entryAt?, if_pos given]

theorem lookup?_putEntry (entries : List (Location × Entry)) :
    lookup? (putEntry location entry entries) other = if other = location then some entry else lookup? entries other := by
  induction entries with
  | nil => simp [putEntry, lookup?, eq_comm]
  | cons head rest ih =>
    obtain ⟨place, old⟩ := head
    rw [putEntry]
    split
    · next same =>
      subst same
      simp only [lookup?, eq_comm]
      split <;> rfl
    · next apart =>
      rw [lookup?, lookup?, ih]
      split
      · next same =>
        subst same
        rw [if_neg apart]
      · rfl

theorem entryAt?_put (fresh : tree.entryAt? location ≠ some .directory) :
    (tree.put location entry).entryAt? other = if other = location then some entry else tree.entryAt? other := by
  rw [entryAt?, put, lookup?_putEntry, entryAt?]
  by_cases same : other = location
  · subst same
    have notGiven : ¬ other.isGiven = true := fun given => fresh (entryAt?_of_isGiven given)
    rw [if_neg notGiven, if_pos rfl, if_pos rfl]
  · rw [if_neg same, if_neg same]

theorem mem_of_lookup? {entries : List (Location × Entry)} (found : lookup? entries location = some entry) :
    (location, entry) ∈ entries := by
  induction entries with
  | nil => cases found
  | cons head rest ih =>
    obtain ⟨place, old⟩ := head
    rw [lookup?] at found
    split at found
    · next same =>
      cases found
      exact same ▸ List.mem_cons_self
    · exact List.mem_cons_of_mem _ (ih found)

theorem isGiven_tail {name : String} {rest : Location} (given : Location.isGiven (name :: rest) = true) :
    Location.isGiven rest = true := by
  rw [Location.isGiven, Bool.or_eq_true, beq_iff_eq] at given ⊢
  rcases given with root | up
  · right
    cases root
    rfl
  · right
    rw [List.all_cons, Bool.and_eq_true] at up
    exact up.2

theorem isGiven_suffix (given : location.isGiven = true) (above : other <:+ location) : other.isGiven = true := by
  induction location with
  | nil =>
    obtain rfl := List.suffix_nil.mp above
    rfl
  | cons name rest ih =>
    rcases List.suffix_cons_iff.mp above with rfl | above
    · exact given
    · exact ih (isGiven_tail given) above

theorem isGiven_startOf (path : Path) : (startOf path).isGiven = true := by
  unfold startOf
  split <;> rfl

theorem WellFormed.entryAt?_tail (wellFormed : tree.WellFormed) {name : String} {rest : Location}
    (present : tree.entryAt? (name :: rest) ≠ none) : tree.entryAt? rest = some .directory := by
  by_cases given : Location.isGiven (name :: rest) = true
  · exact entryAt?_of_isGiven (isGiven_tail given)
  · rw [entryAt?, if_neg given] at present
    obtain ⟨entry, found⟩ := Option.ne_none_iff_exists'.mp present
    exact wellFormed.parents _ (mem_of_lookup? found)

/-- All locations above an entry are directories. -/
theorem WellFormed.entryAt?_suffix (wellFormed : tree.WellFormed) (present : tree.entryAt? location ≠ none)
    (above : other <:+ location) : other = location ∨ tree.entryAt? other = some .directory := by
  induction location with
  | nil => exact .inl (List.suffix_nil.mp above)
  | cons name rest ih =>
    rcases List.suffix_cons_iff.mp above with same | above
    · exact .inl same
    · have directory := wellFormed.entryAt?_tail present
      right
      rcases ih (by simp [directory]) above with rfl | found
      · exact directory
      · exact found

end

section
variable {tree : FileTree} {location : Location} {segment : String} {segments rest : List String}

/-- Where a segment leads from a place that is not there, nothing is. -/
theorem WellFormed.isThere_of_enter (wellFormed : tree.WellFormed) (grounded : segment = ".." → tree.IsThere location)
    (present : tree.IsThere (location.enter segment)) : tree.IsThere location := by
  cases idle : isIdle segment with
  | true => rwa [Location.enter_of_isIdle idle] at present
  | false =>
    by_cases up : segment = ".."
    · exact grounded up
    · rw [Location.enter_of_ne idle up] at present
      simp [IsThere, wellFormed.entryAt?_tail present]

theorem WellFormed.isThere_of_foldl (wellFormed : tree.WellFormed)
    (grounded : Location.LeavesOnly tree.IsThere location segments)
    (present : tree.IsThere (segments.foldl Location.enter location)) : tree.IsThere location := by
  induction segments generalizing location with
  | nil => exact present
  | cons segment rest ih => exact wellFormed.isThere_of_enter grounded.1 (ih grounded.2 present)

/-- A place that is not there stays above everything that segments lead to from there. -/
theorem WellFormed.suffix_foldl (wellFormed : tree.WellFormed) {above : Location} (absent : tree.entryAt? above = none)
    (grounded : Location.LeavesOnly tree.IsThere location segments) (start : above <:+ location) :
    above <:+ segments.foldl Location.enter location := by
  induction segments generalizing location with
  | nil => exact start
  | cons segment rest ih =>
    apply ih grounded.2
    cases idle : isIdle segment with
    | true => rwa [Location.enter_of_isIdle idle]
    | false =>
      by_cases up : segment = ".."
      · -- double dots lead out of a place that is there, and then so is all that is above it
        rcases wellFormed.entryAt?_suffix (grounded.1 up) start with rfl | found
        · exact absurd absent (grounded.1 up)
        · rw [found] at absent
          cases absent
      · rw [Location.enter_of_ne idle up]
        exact start.trans (List.suffix_cons _ _)

theorem walk_cons_eq_ok {reached : Location} : tree.walk location (segment :: rest) = .ok reached ↔
    tree.entryAt? location = some .directory ∧ segment.utf8ByteSize ≤ 255 ∧
      tree.walk (location.enter segment) rest = .ok reached := by
  rw [walk]
  split
  · next none => simp [none]
  · next file => simp [file]
  · next directory =>
    split
    · next long => simp [Nat.not_le.mpr long]
    · next short => simp [directory, Nat.not_lt.mp short]

theorem eq_of_walk {reached : Location} (walked : tree.walk location segments = .ok reached) :
    reached = segments.foldl Location.enter location := by
  induction segments generalizing location with
  | nil => exact (Except.ok.inj walked).symm
  | cons segment rest ih => exact ih (walk_cons_eq_ok.mp walked).2.2

end

/-- One tree is the other one with directories and files at some places that had nothing or, for a file, another one. -/
inductive Extends (directories files : Location → Prop) (tree : FileTree) : FileTree → Prop where
  | same : Extends directories files tree tree
  | directory {grown : FileTree} {location : Location} : Extends directories files tree grown →
      grown.entryAt? location = none → directories location →
      Extends directories files tree (grown.put location .directory)
  | file {grown : FileTree} {location : Location} {content : Content} : Extends directories files tree grown →
      grown.entryAt? location ≠ some .directory → files location →
      Extends directories files tree (grown.put location (.file content))

namespace Extends

variable {directories files : Location → Prop} {tree grown : FileTree} {location : Location}

theorem trans {further : FileTree} (first : Extends directories files tree grown)
    (second : Extends directories files grown further) : Extends directories files tree further := by
  induction second with
  | same => exact first
  | directory _ absent allowed ih => exact .directory ih absent allowed
  | file _ fresh allowed ih => exact .file ih fresh allowed

theorem entryAt?_directory (extended : Extends directories files tree grown)
    (here : tree.entryAt? location = some .directory) : grown.entryAt? location = some .directory := by
  induction extended with
  | same => exact here
  | directory _ absent _ ih =>
    rw [entryAt?_put (by simp [absent])]
    split
    · rfl
    · exact ih
  | @file grown place content _ fresh _ ih =>
    have apart : location ≠ place := by
      rintro rfl
      exact fresh ih
    rw [entryAt?_put fresh, if_neg apart]
    exact ih

theorem present (extended : Extends directories files tree grown) (here : tree.entryAt? location ≠ none) :
    grown.entryAt? location ≠ none := by
  induction extended with
  | same => exact here
  | directory _ absent _ ih =>
    rw [entryAt?_put (by simp [absent])]
    split
    · simp
    · exact ih
  | file _ fresh _ ih =>
    rw [entryAt?_put fresh]
    split
    · simp
    · exact ih

theorem mono {moreDirectories moreFiles : Location → Prop} (extended : Extends directories files tree grown)
    (wider : ∀ location, tree.entryAt? location = none → directories location → moreDirectories location)
    (also : ∀ location, files location → moreFiles location) : Extends moreDirectories moreFiles tree grown := by
  induction extended with
  | same => exact .same
  | directory before absent allowed ih =>
    exact .directory ih absent (wider _ (Classical.not_not.mp fun there => before.present there absent) allowed)
  | file _ fresh allowed ih => exact .file ih fresh (also _ allowed)

/-- A directory was there before, or it is at a place that had nothing. -/
theorem directory_cases (extended : Extends directories files tree grown)
    (here : grown.entryAt? location = some .directory) :
    tree.entryAt? location = some .directory ∨ (tree.entryAt? location = none ∧ directories location) := by
  induction extended with
  | same => exact .inl here
  | @directory grown place before absent allowed ih =>
    rw [entryAt?_put (by simp [absent])] at here
    split at here
    · next same =>
      subst same
      right
      exact ⟨Classical.not_not.mp fun there => before.present there absent, allowed⟩
    · exact ih here
  | file _ fresh _ ih =>
    rw [entryAt?_put fresh] at here
    split at here
    · cases here
    · exact ih here

/-- Elsewhere than at the places of new files, the files are those that were there. -/
theorem file_iff (extended : Extends directories files tree grown) (apart : ¬ files location) (content : Content) :
    grown.entryAt? location = some (.file content) ↔ tree.entryAt? location = some (.file content) := by
  induction extended with
  | same => rfl
  | @directory grown place before absent allowed ih =>
    rw [entryAt?_put (by simp [absent])]
    split
    · next same =>
      subst same
      have nothing : tree.entryAt? location = none := Classical.not_not.mp fun there => before.present there absent
      simp [nothing]
    · exact ih
  | @file grown place content _ fresh allowed ih =>
    have elsewhere : location ≠ place := by
      rintro rfl
      exact apart allowed
    rw [entryAt?_put fresh, if_neg elsewhere]
    exact ih

theorem walk {segments : List String} {reached : Location} (extended : Extends directories files tree grown)
    (walked : tree.walk location segments = .ok reached) : grown.walk location segments = .ok reached := by
  induction segments generalizing location with
  | nil => exact walked
  | cons segment rest ih =>
    rw [walk_cons_eq_ok] at walked ⊢
    exact ⟨extended.entryAt?_directory walked.1, walked.2.1, ih walked.2.2⟩

/-- What is on a way to something that was there before was there before. -/
theorem isThere_back {segments : List String} {reached : Location} (extended : Extends directories files tree grown)
    (wellFormed : tree.WellFormed)
    (steady : Location.LeavesOnly (fun place => directories place → tree.IsThere place) location segments)
    (walked : grown.walk location segments = .ok reached) (there : tree.IsThere reached) : tree.IsThere location := by
  induction segments generalizing location with
  | nil =>
    cases walked
    exact there
  | cons segment rest ih =>
    rw [walk_cons_eq_ok] at walked
    refine wellFormed.isThere_of_enter ?_ (ih steady.2 walked.2.2)
    intro up
    -- this place is a directory now: it was one, or it was created, and then it must have been there
    rcases extended.directory_cases walked.1 with directory | ⟨-, created⟩
    · simp [IsThere, directory]
    · exact steady.1 up created

/-- A way to something that was there before goes through directories that were there before. -/
theorem walk_back {segments : List String} {reached : Location} (extended : Extends directories files tree grown)
    (wellFormed : tree.WellFormed)
    (steady : Location.LeavesOnly (fun place => directories place → tree.IsThere place) location segments)
    (walked : grown.walk location segments = .ok reached) (there : tree.IsThere reached) :
    tree.walk location segments = .ok reached := by
  induction segments generalizing location with
  | nil => exact walked
  | cons segment rest ih =>
    have reachable := extended.isThere_back wellFormed steady walked there
    rw [walk_cons_eq_ok] at walked ⊢
    refine ⟨?_, walked.2.1, ih steady.2 walked.2.2⟩
    rcases extended.directory_cases walked.1 with directory | ⟨absent, -⟩
    · exact directory
    · exact absurd absent reachable

end Extends
end FileTree
end Compendium
