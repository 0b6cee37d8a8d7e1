import Compendium.Proofs.Files.Walking

/-! Following a path to a directory. A name leads from the directory of its base to that of the path, and a directory
that is reached is at the location of its path. -/

set_option autoImplicit false
namespace Compendium.FileTree

/-- A location that must be a directory. -/
def directoryAt (tree : FileTree) (location : Location) : Except FileError Location :=
  match tree.entryAt? location with
  | none => .error .notFound
  | some (.file _) => .error .notDirectory
  | some .directory => .ok location

def checkLength (segment : String) : Except FileError Unit :=
  if 255 < segment.utf8ByteSize then .error .nameTooLong else .ok ()

theorem eq_nameTooLong {segment : String} {error : FileError} (long : checkLength segment = .error error) :
    error = .nameTooLong := by
  rw [checkLength] at long
  split at long <;> cases long
  rfl

/-- Follows segments to a directory. -/
def reach (tree : FileTree) (location : Location) : List String → Except FileError Location
  | [] => tree.directoryAt location
  | segment :: rest => do
    let here ← tree.directoryAt location
    checkLength segment
    tree.reach (here.enter segment) rest

/-- Follows a path to a directory. -/
def descend (tree : FileTree) (path : Path) : Except FileError Location :=
  tree.reach (startOf path) path.steps

section
variable {tree : FileTree} {location : Location} {segment name : String} {segments : List String} {base path : Path}

theorem directoryAt_cases (tree : FileTree) (location : Location) :
    (tree.entryAt? location = some .directory ∧ tree.directoryAt location = .ok location) ∨
    ∃ error, tree.directoryAt location = .error error := by
  rw [directoryAt]
  cases tree.entryAt? location with
  | none => exact .inr ⟨_, rfl⟩
  | some entry =>
    cases entry with
    | file content => exact .inr ⟨_, rfl⟩
    | directory => exact .inl ⟨rfl, rfl⟩

theorem directoryAt_eq_ok_iff {reached : Location} :
    tree.directoryAt location = .ok reached ↔ tree.entryAt? location = some .directory ∧ reached = location := by
  rcases directoryAt_cases tree location with ⟨directory, same⟩ | ⟨error, same⟩
  · simp [same, directory, eq_comm]
  · rw [same]
    refine ⟨nofun, ?_⟩
    rintro ⟨directory, -⟩
    rw [directoryAt, directory] at same
    cases same

theorem reach_of_error {error : FileError} (absent : tree.directoryAt location = .error error) :
    tree.reach location segments = .error error := by
  cases segments with
  | nil => exact absent
  | cons segment rest =>
    rw [reach, absent]
    rfl

theorem reach_cons (here : tree.entryAt? location = some .directory) : tree.reach location (segment :: segments) =
    (checkLength segment).bind fun _ => tree.reach (location.enter segment) segments := by
  rw [reach, directoryAt_eq_ok_iff.mpr ⟨here, rfl⟩]
  rfl

theorem reach_append (tree : FileTree) (location : Location) (segments rest : List String) :
    tree.reach location (segments ++ rest) =
      (tree.reach location segments).bind fun parent => tree.reach parent rest := by
  induction segments generalizing location with
  | nil =>
    rcases directoryAt_cases tree location with ⟨directory, same⟩ | ⟨error, same⟩
    · rw [reach, same]
      rfl
    · rw [List.nil_append, reach_of_error same, reach, same]
      rfl
  | cons segment segments ih =>
    rw [List.cons_append, reach, reach]
    cases tree.directoryAt location with
    | error error => rfl
    | ok here =>
      cases checkLength segment with
      | error error => rfl
      | ok => exact ih (here.enter segment)

/-- Whoever walks to a directory reaches it, and fails otherwise for the same reason. -/
theorem walk_bind_directoryAt (tree : FileTree) (location : Location) (segments : List String) :
    (tree.walk location segments).bind tree.directoryAt = tree.reach location segments := by
  induction segments generalizing location with
  | nil => rfl
  | cons segment rest ih =>
    rw [walk, reach, directoryAt]
    cases tree.entryAt? location with
    | none => rfl
    | some entry =>
      cases entry with
      | file content => rfl
      | directory =>
        change (if _ then _ else _ : Except FileError Location).bind _ =
          (checkLength segment).bind fun _ => tree.reach (location.enter segment) rest
        rw [checkLength]
        split
        · rfl
        · exact ih (location.enter segment)

theorem reach_filter (tree : FileTree) (location : Location) (segments : List String) :
    tree.reach location (segments.filter fun segment => !isIdle segment) = tree.reach location segments := by
  induction segments generalizing location with
  | nil => rfl
  | cons segment rest ih =>
    cases idle : isIdle segment with
    | false =>
      rw [List.filter_cons_of_pos (by simp [idle]), reach, reach]
      simp only [ih]
    | true =>
      have short : checkLength segment = .ok () := by
        rw [isIdle, Bool.or_eq_true, beq_iff_eq, beq_iff_eq] at idle
        rcases idle with rfl | rfl <;> rfl
      rw [List.filter_cons_of_neg (by simp [idle]), ih]
      -- the check of the place is made once more, and comes to the same
      rcases directoryAt_cases tree location with ⟨directory, -⟩ | ⟨error, same⟩
      · rw [reach_cons directory, short, Location.enter_of_isIdle idle]
        rfl
      · rw [reach_of_error same, reach_of_error same]

theorem descend_eq (tree : FileTree) (path : Path) :
    tree.descend path = tree.reach (startOf path) path.segments :=
  reach_filter tree (startOf path) path.segments

theorem eq_location_of_descend {reached : Location} (descended : tree.descend path = .ok reached) :
    reached = path.location ∧ tree.entryAt? path.location = some .directory := by
  rw [descend_eq, ← walk_bind_directoryAt] at descended
  cases walked : tree.walk (startOf path) path.segments with
  | error error =>
    rw [walked] at descended
    cases descended
  | ok place =>
    rw [walked] at descended
    obtain ⟨directory, rfl⟩ := directoryAt_eq_ok_iff.mp descended
    obtain rfl := eq_of_walk walked
    exact ⟨rfl, directory⟩

/-- A name leads from the directory of its base to the place of the path. -/
theorem descend_of_leads (leads : base.Leads name path) (tree : FileTree) :
    tree.descend path = (do
      let _ ← tree.descend base
      checkLength name
      tree.directoryAt path.location) := by
  obtain ⟨lead, segments, steps⟩ := leads.segments
  rw [descend_eq, segments, reach_append, ← reach_filter _ _ lead, steps, leads.startOf, ← descend]
  cases descended : tree.descend base with
  | error error => rfl
  | ok parent =>
    obtain ⟨rfl, directory⟩ := eq_location_of_descend descended
    exact (reach_cons directory).trans (by rw [leads.location]; rfl)

theorem descend_eq_ok_iff (leads : base.Leads name path) : tree.descend path = .ok path.location ↔
    tree.descend base = .ok base.location ∧ checkLength name = .ok () ∧
      tree.entryAt? path.location = some .directory := by
  rw [descend_of_leads leads]
  cases descended : tree.descend base with
  | error error => simp [bind, Except.bind]
  | ok parent =>
    obtain ⟨rfl, -⟩ := eq_location_of_descend descended
    cases checkLength name with
    | error error => simp [bind, Except.bind]
    | ok => simp [bind, Except.bind, directoryAt_eq_ok_iff]

/-- The target of a path that a name leads to. -/
theorem target_of_leads (leads : base.Leads name path) (tree : FileTree) :
    tree.target path = (do
      checkName path
      let parent ← tree.descend base
      checkLength name
      return ⟨parent, name, false⟩) := by
  obtain ⟨lead, segments, steps⟩ := leads.segments
  have reversed : path.segments.reverse = name :: lead.reverse := by simp [segments]
  have busy : (name == "") = false := by simpa using leads.named
  have kept : (name :: lead.reverse).dropWhile (· == "") = name :: lead.reverse := by simp [busy]
  have descended : tree.descend base = (tree.walk (startOf path) lead).bind tree.directoryAt := by
    rw [walk_bind_directoryAt, ← reach_filter, steps, leads.startOf, descend]
  rw [descended]
  unfold target
  cases checkName path with
  | error error => rfl
  | ok =>
    simp only [reversed, kept, List.reverse_reverse, List.head?_cons, Option.some_beq_some, busy]
    cases tree.walk (startOf path) lead with
    | error error => rfl
    | ok parent =>
      simp only [bind, Except.bind, directoryAt, checkLength]
      cases tree.entryAt? parent with
      | none => rfl
      | some entry =>
        cases entry with
        | file content => rfl
        | directory =>
          dsimp only
          split <;> rfl

theorem isDirectory_iff : tree.isDirectory path = true ↔ checkName path = .ok () ∧ tree.descend path = .ok path.location := by
  rw [isDirectory, find, descend_eq, ← walk_bind_directoryAt]
  cases checkName path with
  | error error => simp [bind, Except.bind]
  | ok =>
    cases walked : tree.walk (startOf path) path.segments with
    | error error => simp [bind, Except.bind]
    | ok place =>
      have here : place = path.location := eq_of_walk walked
      simp only [bind, Except.bind, directoryAt, here]
      cases tree.entryAt? path.location with
      | none => simp
      | some entry => cases entry <;> simp

/-- A directory is there, or none is asked for. -/
def HasDirectory (tree : FileTree) (path : Path) : Prop :=
  path.text = "" ∨ tree.isDirectory path = true

theorem descend_root (root : path.segments = [""]) (tree : FileTree) : tree.descend path = .ok path.location := by
  rw [descend, Path.location_eq, Path.steps, root]
  exact directoryAt_eq_ok_iff.mpr ⟨entryAt?_of_isGiven (isGiven_startOf path), rfl⟩

theorem HasDirectory.descend (there : tree.HasDirectory path) : tree.descend path = .ok path.location := by
  rcases there with empty | directory
  · exact descend_root (Path.segments_of_empty empty) tree
  · exact (isDirectory_iff.mp directory).2

theorem checkName_root (root : path.segments = [""]) : path.text = "" ∨ checkName path = .ok () := by
  obtain ⟨body, text, relative⟩ := path.exists_body
  have joined := Text.join_splitOn body "/"
  rw [← Path.segments_of_text text relative, root] at joined
  have empty : body = "" := joined.symm
  rw [empty, String.append_empty] at text
  rw [checkName, text]
  cases path.isAbsolute
  · exact .inl rfl
  · exact .inr rfl

theorem hasDirectory_root (root : path.segments = [""]) (tree : FileTree) : tree.HasDirectory path :=
  (checkName_root root).imp_right fun named => isDirectory_iff.mpr ⟨named, descend_root root tree⟩

theorem descend_eq_ok_iff_walk : tree.descend path = .ok path.location ↔
    tree.walk (startOf path) path.segments = .ok path.location ∧ tree.entryAt? path.location = some .directory := by
  rw [descend_eq, ← walk_bind_directoryAt]
  cases walked : tree.walk (startOf path) path.segments with
  | error error => simp [Except.bind]
  | ok reached =>
    have here : reached = path.location := eq_of_walk walked
    simp [Except.bind, here, directoryAt_eq_ok_iff]

section
variable {directories files : Location → Prop} {grown : FileTree}

theorem Extends.descend (extended : Extends directories files tree grown)
    (there : tree.descend path = .ok path.location) : grown.descend path = .ok path.location := by
  rw [descend_eq_ok_iff_walk] at there ⊢
  exact ⟨extended.walk there.1, extended.entryAt?_directory there.2⟩

theorem Extends.hasDirectory (extended : Extends directories files tree grown) (there : tree.HasDirectory path) :
    grown.HasDirectory path := by
  rcases there with empty | directory
  · exact .inl empty
  · rw [isDirectory_iff] at directory
    exact .inr (isDirectory_iff.mpr (directory.imp_right extended.descend))

theorem Extends.descend_back (extended : Extends directories files tree grown) (wellFormed : tree.WellFormed)
    (steady : path.LeavesOnly fun place => directories place → tree.IsThere place)
    (there : grown.descend path = .ok path.location) (present : tree.IsThere path.location) :
    tree.descend path = .ok path.location := by
  rw [descend_eq_ok_iff_walk] at there ⊢
  refine ⟨extended.walk_back wellFormed steady.leaves there.1 present, ?_⟩
  rcases extended.directory_cases there.2 with directory | ⟨absent, -⟩
  · exact directory
  · exact absurd absent present

end

end
end Compendium.FileTree
