import Compendium.Proofs.Files.Directories

/-! What is found in a tree to which directories and files were added. Files that were there before are found as before,
and so are those below a directory that got none. -/

set_option autoImplicit false
namespace Compendium

theorem FileTree.namesBelow?_eq_some_iff {base location : Location} {names : List String} :
    namesBelow? base location = some names ↔ location = names.reverse ++ base ∧ Location.isInside names = true := by
  have reversed : base.reverse ++ names = location.reverse ↔ location = names.reverse ++ base := by
    rw [← List.reverse_inj, List.reverse_append, List.reverse_reverse, List.reverse_reverse, eq_comm]
  rw [namesBelow?, Option.filter_eq_some_iff, List.isPrefixOf?_eq_some_iff_append_eq, reversed]

namespace Location

/-- Whether a location lies in a directory. -/
def IsBelow (location base : Location) : Prop :=
  location ≠ base ∧ (FileTree.namesBelow? base location).isSome = true

instance (location base : Location) : Decidable (location.IsBelow base) :=
  inferInstanceAs (Decidable (_ ∧ _))

/-- A location is always there, or plain names lead to it from one that is. -/
def Anchored (location : Location) : Prop :=
  ∃ inside given : Location, location = inside ++ given ∧ inside.isInside = true ∧ given.isGiven = true

section
variable {location : Location} {segment : String}

theorem isInside_cons (name : String) (rest : Location) :
    isInside (name :: rest) = true ↔ name ≠ ".." ∧ name ≠ "/" ∧ isInside rest = true := by
  simp [isInside, and_assoc]

theorem isGiven_up (given : location.isGiven = true) : location.up.isGiven = true := by
  cases location with
  | nil => rfl
  | cons name rest =>
    rw [up]
    split
    · next same =>
      subst same
      simpa [isGiven] using given
    · next down =>
      split
      · exact given
      · next inner => simp [isGiven, down, inner] at given

theorem Anchored.enter (anchored : location.Anchored) (slashless : '/' ∉ segment.toList) :
    (location.enter segment).Anchored := by
  obtain ⟨inside, given, rfl, plain, isGiven⟩ := anchored
  cases idle : isIdle segment with
  | true =>
    rw [enter_of_isIdle idle]
    exact ⟨inside, given, rfl, plain, isGiven⟩
  | false =>
    by_cases back : segment = ".."
    · subst back
      rw [enter_up]
      cases inside with
      | nil => exact ⟨[], given.up, rfl, rfl, isGiven_up isGiven⟩
      | cons name rest =>
        obtain ⟨down, inner, others⟩ := (isInside_cons name rest).mp plain
        refine ⟨rest, given, ?_, others, isGiven⟩
        rw [List.cons_append, up, if_neg down, if_neg inner]
    · rw [enter_of_ne idle back]
      have inner : segment ≠ "/" := by
        rintro rfl
        exact slashless (by simp)
      exact ⟨segment :: inside, given, rfl, (isInside_cons segment inside).mpr ⟨back, inner, plain⟩, isGiven⟩

theorem Anchored.foldl_enter (anchored : location.Anchored) {segments : List String}
    (slashless : ∀ segment ∈ segments, '/' ∉ segment.toList) : (segments.foldl Location.enter location).Anchored := by
  induction segments generalizing location with
  | nil => exact anchored
  | cons segment rest ih =>
    rw [List.forall_mem_cons] at slashless
    exact ih (anchored.enter slashless.1) slashless.2

theorem anchored_location (path : Path) : path.location.Anchored := by
  have start : (FileTree.startOf path).Anchored := ⟨[], _, rfl, rfl, FileTree.isGiven_startOf path⟩
  exact start.foldl_enter path.slash_not_mem_segments

/-- What is above a location and not always there has it below itself. -/
theorem Anchored.isBelow (anchored : location.Anchored) {base : Location} (above : base <:+ location)
    (other : location ≠ base) (unknown : base.isGiven = false) : location.IsBelow base := by
  obtain ⟨inside, given, rfl, plain, isGiven⟩ := anchored
  obtain ⟨front, split⟩ := above
  rcases List.append_eq_append_iff.mp split with ⟨middle, rfl, rfl⟩ | ⟨middle, rfl, rfl⟩
  · refine ⟨other, Option.isSome_iff_exists.mpr ⟨front.reverse, FileTree.namesBelow?_eq_some_iff.mpr ⟨?_, ?_⟩⟩⟩
    · simp
    · rw [Location.isInside, List.all_append, Bool.and_eq_true] at plain
      rw [Location.isInside, List.all_reverse]
      exact plain.1
  · rw [FileTree.isGiven_suffix isGiven (List.suffix_append _ _)] at unknown
    cases unknown

end

end Location

namespace FileTree

section
variable {tree grown : FileTree} {path : Path} {location : Location} {directories files : Location → Prop}

theorem find_eq_ok_iff {entry : Entry} : tree.find path = .ok (location, entry) ↔
    checkName path = .ok () ∧ tree.walk (startOf path) path.segments = .ok location ∧
      tree.entryAt? location = some entry := by
  rw [find]
  cases checkName path with
  | error error => simp [bind, Except.bind]
  | ok =>
    cases tree.walk (startOf path) path.segments with
    | error error => simp [bind, Except.bind]
    | ok reached =>
      simp only [bind, Except.bind, Except.ok.injEq, true_and]
      constructor
      · intro found
        split at found
        · cases found
        · next there =>
          cases found
          exact ⟨rfl, there⟩
      · rintro ⟨rfl, there⟩
        rw [there]

theorem isFile_iff : tree.isFile path = true ↔ ∃ location content, tree.find path = .ok (location, .file content) := by
  rw [isFile]
  cases tree.find path with
  | error error => simp
  | ok found =>
    obtain ⟨location, entry⟩ := found
    cases entry <;> simp

/-- A file that is there in both trees is found in both or in none. -/
theorem Extends.find_file_iff (extended : Extends directories files tree grown) (wellFormed : tree.WellFormed)
    (steady : path.LeavesOnly fun place => directories place → tree.IsThere place)
    (same : ∀ content, grown.entryAt? path.location = some (.file content) ↔
      tree.entryAt? path.location = some (.file content)) (content : Content) :
    grown.find path = .ok (location, .file content) ↔ tree.find path = .ok (location, .file content) := by
  rw [find_eq_ok_iff, find_eq_ok_iff]
  constructor
  · rintro ⟨named, walked, here⟩
    obtain rfl : location = path.location := eq_of_walk walked
    have there := (same content).mp here
    exact ⟨named, extended.walk_back wellFormed steady.leaves walked (by simp [IsThere, there]), there⟩
  · rintro ⟨named, walked, here⟩
    obtain rfl : location = path.location := eq_of_walk walked
    exact ⟨named, extended.walk walked, (same content).mpr here⟩

theorem Extends.isDirectory_eq (extended : Extends directories files tree grown) (wellFormed : tree.WellFormed)
    (steady : path.LeavesOnly fun place => directories place → tree.IsThere place)
    (apart : tree.entryAt? path.location = none → ¬ directories path.location) :
    grown.isDirectory path = tree.isDirectory path := by
  rw [Bool.eq_iff_iff, isDirectory_iff, isDirectory_iff]
  constructor
  · rintro ⟨named, there⟩
    have present : tree.IsThere path.location := by
      rcases extended.directory_cases (eq_location_of_descend there).2 with directory | ⟨absent, created⟩
      · simp [IsThere, directory]
      · exact absurd created (apart absent)
    exact ⟨named, extended.descend_back wellFormed steady there present⟩
  · rintro ⟨named, there⟩
    exact ⟨named, extended.descend there⟩

/-- The names that lead to a file below a location. -/
def namesOfFile? (base : Location) (entry : Location × Entry) : Option (List String) :=
  match entry.2 with
  | .directory => none
  | .file _ => namesBelow? base entry.1

theorem jsonFiles_of_isDirectory (there : tree.isDirectory path = true) :
    tree.jsonFiles path = (((tree.entries.filterMap (namesOfFile? path.location)).mergeSort namesLe).map fun names =>
      names.foldl Path.child path).filter Path.isJson := by
  obtain ⟨named, descended⟩ := isDirectory_iff.mp there
  obtain ⟨walked, directory⟩ := descend_eq_ok_iff_walk.mp descended
  have found : tree.find path = .ok (path.location, .directory) := find_eq_ok_iff.mpr ⟨named, walked, directory⟩
  rw [jsonFiles, found]
  rfl

theorem filterMap_putEntry {base : Location} {entry : Entry} {entries : List (Location × Entry)}
    (old : ∀ other, (location, other) ∈ entries → namesOfFile? base (location, other) = none)
    (new : namesOfFile? base (location, entry) = none) :
    (putEntry location entry entries).filterMap (namesOfFile? base) = entries.filterMap (namesOfFile? base) := by
  induction entries with
  | nil => simp [putEntry, new]
  | cons head rest ih =>
    obtain ⟨place, other⟩ := head
    rw [putEntry]
    split
    · next same =>
      subst same
      rw [List.filterMap_cons_none new, List.filterMap_cons_none (old other List.mem_cons_self)]
    · rw [List.filterMap_cons, List.filterMap_cons, ih fun other member => old other (List.mem_cons_of_mem _ member)]

theorem lookup?_of_mem {entries : List (Location × Entry)} {entry : Entry} (member : (location, entry) ∈ entries) :
    lookup? entries location ≠ none := by
  induction entries with
  | nil => cases member
  | cons head rest ih =>
    obtain ⟨place, other⟩ := head
    rw [lookup?]
    split
    · exact Option.some_ne_none _
    · next apart =>
      rcases List.mem_cons.mp member with same | later
      · cases same
        exact absurd rfl apart
      · exact ih later

/-- The files below a directory are the same, in the same order, if none was put there. -/
theorem Extends.filterMap_eq (extended : Extends directories files tree grown) {base : Location}
    (there : tree.entryAt? base = some .directory) (apart : ∀ location, files location → ¬ location.IsBelow base) :
    grown.entries.filterMap (namesOfFile? base) = tree.entries.filterMap (namesOfFile? base) := by
  induction extended with
  | same => rfl
  | @directory grown place before absent allowed ih =>
    rw [← ih]
    apply filterMap_putEntry
    · intro other member
      rw [entryAt?] at absent
      split at absent
      · cases absent
      · exact absurd absent (lookup?_of_mem member)
    · rfl
  | @file grown place content before fresh allowed ih =>
    -- the base is a directory, so that the new file is neither at it nor below it
    have other : place ≠ base := by
      rintro rfl
      exact fresh (before.entryAt?_directory there)
    have outside : namesBelow? base place = none := by
      rw [← Option.not_isSome_iff_eq_none]
      exact fun inside => apart place allowed ⟨other, inside⟩
    rw [← ih]
    apply filterMap_putEntry
    · intro old _
      cases old with
      | directory => rfl
      | file _ => exact outside
    · exact outside

theorem location_foldl_child (path : Path) {names : List String} (plain : ∀ name ∈ names, IsFileName name) :
    (names.foldl Path.child path).location = names.reverse ++ path.location := by
  induction names generalizing path with
  | nil => rfl
  | cons name rest ih =>
    rw [List.forall_mem_cons] at plain
    have step : (path.child name).location = name :: path.location := by
      rw [(path.leads_child plain.1).location, Location.enter_of_ne plain.1.isIdle plain.1.ne_up]
    rw [List.foldl_cons, ih (path.child name) plain.2, step]
    simp

theorem leavesOnly_foldl_child {held : Location → Prop} (leavesOnly : path.LeavesOnly held) {names : List String}
    (plain : ∀ name ∈ names, IsFileName name) : (names.foldl Path.child path).LeavesOnly held := by
  induction names generalizing path with
  | nil => exact leavesOnly
  | cons name rest ih =>
    rw [List.forall_mem_cons] at plain
    have leads := path.leads_child plain.1
    exact ih ((Path.leavesOnly_iff leads).mpr ⟨leavesOnly, fun up => absurd up plain.1.ne_up, trivial⟩) plain.2

/-- Below a directory that got no files the files are those that were there. -/
theorem Extends.file_iff_below (extended : Extends directories files tree grown) {base : Location}
    (there : tree.entryAt? base = some .directory) (apart : ∀ location, files location → ¬ location.IsBelow base)
    {names : List String} (plain : ∀ name ∈ names, IsFileName name) (content : Content) :
    grown.entryAt? (names.reverse ++ base) = some (.file content) ↔
      tree.entryAt? (names.reverse ++ base) = some (.file content) := by
  by_cases empty : names = []
  · subst empty
    simp [there, extended.entryAt?_directory there]
  · apply extended.file_iff
    intro allowed
    apply apart _ allowed
    have inside : Location.isInside names = true := by
      rw [Location.isInside, List.all_eq_true]
      intro name member
      have inner : name ≠ "/" := by
        rintro rfl
        exact (plain _ member).2 (by simp)
      simp [(plain name member).ne_up, inner]
    exact ⟨by simp [empty], Option.isSome_iff_exists.mpr ⟨names, namesBelow?_eq_some_iff.mpr ⟨rfl, inside⟩⟩⟩

/-- Plain names lead to every file that is found below a directory. -/
theorem WellFormed.exists_of_mem_jsonFiles (wellFormed : tree.WellFormed) (there : tree.isDirectory path = true)
    {found : Path} (member : found ∈ tree.jsonFiles path) :
    ∃ names : List String, (∀ name ∈ names, IsFileName name) ∧ found = names.foldl Path.child path := by
  rw [jsonFiles_of_isDirectory there, List.mem_filter, List.mem_map] at member
  obtain ⟨⟨names, sorted, rfl⟩, -⟩ := member
  rw [List.mem_mergeSort, List.mem_filterMap] at sorted
  obtain ⟨⟨place, entry⟩, stored, named⟩ := sorted
  refine ⟨names, ?_, rfl⟩
  cases entry with
  | directory => cases named
  | file content =>
    obtain ⟨rfl, inside⟩ := namesBelow?_eq_some_iff.mp named
    intro name member
    have plain := wellFormed.names _ stored name (by simp [member])
    have inner := List.all_eq_true.mp inside name member
    simp only [Bool.and_eq_true, bne_iff_ne, ne_eq] at inner
    exact (plain.resolve_left inner.1).resolve_left inner.2

end
end FileTree
end Compendium
