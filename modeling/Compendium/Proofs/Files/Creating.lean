import Compendium.Proofs.Files.Directories

/-! Creating a directory with all that is missing above it. What was created for it lies above its location, and trying
again comes to the same. -/

set_option autoImplicit false
namespace Compendium.FileTree

section
variable {tree : FileTree} {name : String} {base path : Path}

theorem makeDirectory_of_leads (leads : base.Leads name path) (tree : FileTree) :
    tree.makeDirectory path = (do
      checkName path
      let _ ← tree.descend base
      checkLength name
      match tree.entryAt? path.location with
      | some _ => .error .alreadyExists
      | none => .ok (tree.put path.location .directory)) := by
  rw [makeDirectory, target_of_leads leads]
  cases checkName path with
  | error error => rfl
  | ok =>
    cases descended : tree.descend base with
    | error error => rfl
    | ok parent =>
      obtain ⟨rfl, -⟩ := eq_location_of_descend descended
      cases checkLength name with
      | error error => rfl
      | ok =>
        rw [leads.location]
        rfl

theorem makeDirectory_of_isDirectory (trimmed : path.Trimmed) (there : tree.isDirectory path = true) :
    tree.makeDirectory path = .error .alreadyExists := by
  obtain ⟨named, descended⟩ := isDirectory_iff.mp there
  rcases trimmed.cases with ⟨root, -⟩ | ⟨base, name, -, -, leads⟩
  · have given : tree.entryAt? ["/"] = some .directory := entryAt?_of_isGiven rfl
    unfold makeDirectory target
    rw [named, root]
    change (match tree.entryAt? ["/"] with
      | some _ => .error .alreadyExists
      | none => .ok (tree.put ["/"] .directory) : Except FileError FileTree) = _
    rw [given]
  · obtain ⟨above, short, here⟩ := (descend_eq_ok_iff leads).mp descended
    rw [makeDirectory_of_leads leads, named, above, short, here]
    rfl

theorem makeLineage_of_hasDirectory (trimmed : path.Trimmed) (there : tree.HasDirectory path) (above : List Path) :
    tree.makeLineage (path :: above) = (tree, .ok ()) := by
  rw [makeLineage]
  split
  · rfl
  · next filled =>
    have directory := there.resolve_left filled
    rw [makeDirectory_of_isDirectory trimmed directory]
    simp [directory]

theorem makeDirectory_eq_ok_iff (leads : base.Leads name path) {created : FileTree} :
    tree.makeDirectory path = .ok created ↔
      checkName path = .ok () ∧ tree.descend base = .ok base.location ∧ checkLength name = .ok () ∧
        tree.entryAt? path.location = none ∧ created = tree.put path.location .directory := by
  rw [makeDirectory_of_leads leads]
  cases checkName path with
  | error error => simp [bind, Except.bind]
  | ok =>
    cases descended : tree.descend base with
    | error error => simp [bind, Except.bind]
    | ok parent =>
      obtain ⟨rfl, -⟩ := eq_location_of_descend descended
      cases checkLength name with
      | error error => simp [bind, Except.bind]
      | ok => cases tree.entryAt? path.location <;> simp [bind, Except.bind, eq_comm]

/-- In a directory that is there, only the name of a new one can be in the way. -/
theorem makeDirectory_error_cases (leads : base.Leads name path) (named : checkName path = .ok ())
    (there : tree.descend base = .ok base.location) {error : FileError}
    (failed : tree.makeDirectory path = .error error) :
    (error = .nameTooLong ∧ checkLength name = .error .nameTooLong) ∨
    (error = .alreadyExists ∧ checkLength name = .ok () ∧ tree.entryAt? path.location ≠ none) := by
  rw [makeDirectory_of_leads leads, named, there] at failed
  cases length : checkLength name with
  | error cause =>
    rw [length] at failed
    cases failed
    obtain rfl := eq_nameTooLong length
    exact .inl ⟨rfl, rfl⟩
  | ok =>
    rw [length] at failed
    cases entry : tree.entryAt? path.location with
    | none =>
      rw [entry] at failed
      cases failed
    | some old =>
      rw [entry] at failed
      cases failed
      exact .inr ⟨rfl, rfl, nofun⟩

theorem checkName_of_notFound (filled : path.text ≠ "") (missing : tree.makeDirectory path = .error .notFound) :
    checkName path = .ok () := by
  cases checked : checkName path with
  | ok => rfl
  | error cause =>
    rw [makeDirectory, target, checked] at missing
    cases missing
    rw [checkName, if_neg filled] at checked
    split at checked
    · cases checked
    · split at checked <;> cases checked

/-- How creating a directory ends: it is there, or nothing was created, or a name on the way is too long. -/
structure Made (tree : FileTree) (path : Path) (result : FileTree × Except FileError Unit) : Prop where
  grown : Extends (· <:+ path.location) (fun _ => False) tree result.1
  present : result.2 = .ok () → result.1.HasDirectory path
  failed : ∀ error, result.2 = .error error → result.1 = tree ∨
    (error = .nameTooLong ∧ checkName path = .ok () ∧ result.1.descend path = .error .nameTooLong)

theorem created_spec (leads : base.Leads name path) {created : FileTree}
    (attempt : tree.makeDirectory path = .ok created) :
    Extends (· <:+ path.location) (fun _ => False) tree created ∧ created.isDirectory path = true := by
  obtain ⟨named, there, short, absent, rfl⟩ := (makeDirectory_eq_ok_iff leads).mp attempt
  have extended : Extends (· <:+ path.location) (fun _ => False) tree (tree.put path.location .directory) :=
    .directory .same absent List.suffix_rfl
  refine ⟨extended, isDirectory_iff.mpr ⟨named, (descend_eq_ok_iff leads).mpr ⟨extended.descend there, short, ?_⟩⟩⟩
  rw [entryAt?_put (by simp [absent]), if_pos rfl]

theorem ne_empty_of_leads (leads : base.Leads name path) : path.text ≠ "" := by
  intro empty
  obtain ⟨lead, segments, -⟩ := leads.segments
  have last := congrArg List.getLast? (segments.symm.trans (Path.segments_of_empty empty))
  rw [List.getLast?_concat] at last
  exact leads.named (Option.some.inj last)

/-- The second attempt, in a directory that was created in between, fails only for the length of the name. -/
theorem made_again {grown : FileTree} {error : FileError} (wellFormed : tree.WellFormed) (grounded : path.LeavesOnly tree.IsThere)
    (leads : base.Leads name path) (extended : Extends (· <:+ path.location) (fun _ => False) tree grown)
    (missing : tree.makeDirectory path = .error .notFound) (there : grown.descend base = .ok base.location)
    (failed : grown.makeDirectory path = .error error) (absent : grown.isDirectory path = false) :
    error = .nameTooLong ∧ checkName path = .ok () ∧ grown.descend path = .error .nameTooLong := by
  have named := checkName_of_notFound (ne_empty_of_leads leads) missing
  rcases makeDirectory_error_cases leads named there failed with ⟨rfl, long⟩ | ⟨rfl, short, present⟩
  · refine ⟨rfl, named, ?_⟩
    rw [descend_of_leads leads, there, long]
    rfl
  exfalso
  rw [Path.leavesOnly_iff leads] at grounded
  cases entry : grown.entryAt? path.location with
  | none => exact present entry
  | some found =>
    cases found with
    | directory =>
      have isThere := isDirectory_iff.mpr ⟨named, (descend_eq_ok_iff leads).mpr ⟨there, short, entry⟩⟩
      rw [absent] at isThere
      cases isThere
    | file content =>
      -- a file was not created, so that the first attempt must have come to it too
      have before := (extended.file_iff not_false content).mp entry
      have above : tree.IsThere base.location := by
        apply wellFormed.isThere_of_foldl grounded.2
        rw [IsThere, List.foldl_cons, List.foldl_nil, ← leads.location, before]
        exact Option.some_ne_none _
      have steady := grounded.1.mono fun place isThere (_ : place <:+ path.location) => isThere
      rw [makeDirectory_of_leads leads, named, extended.descend_back wellFormed steady there above, short, before]
        at missing
      cases missing

/-- A directory is created below one that is there, or that could be created. -/
theorem made_of_leads (wellFormed : tree.WellFormed) (grounded : path.LeavesOnly tree.IsThere) (leads : base.Leads name path)
    {above : List Path} (madeAbove : tree.makeLineage above = (tree, .error .noTree) ∨
      Made tree base (tree.makeLineage above)) :
    Made tree path (tree.makeLineage (path :: above)) := by
  have filled := ne_empty_of_leads leads
  have created : ∀ {grown created : FileTree}, Extends (· <:+ path.location) (fun _ => False) tree grown →
      grown.makeDirectory path = .ok created → Made tree path (created, .ok ()) := by
    intro grown created extended attempt
    obtain ⟨further, there⟩ := created_spec leads attempt
    exact ⟨extended.trans further, fun _ => .inr there, nofun⟩
  have unchanged : ∀ error, Made tree path (tree, if tree.isDirectory path then .ok () else .error error) := by
    intro error
    refine ⟨.same, ?_, fun _ _ => .inl rfl⟩
    intro succeeded
    split at succeeded
    · next there => exact .inr there
    · cases succeeded
  rw [makeLineage, if_neg filled]
  split
  · next new attempt => exact created .same attempt
  · next attempt =>
    -- the parent was missing: it is made first, and the second attempt counts
    rcases madeAbove with nothing | made
    · rw [nothing]
      exact ⟨.same, nofun, fun _ _ => .inl rfl⟩
    have wider : Extends (· <:+ path.location) (fun _ => False) tree (tree.makeLineage above).1 := by
      apply made.grown.mono
      · intro location absent below
        rw [leads.location]
        exact wellFormed.suffix_foldl absent ((Path.leavesOnly_iff leads).mp grounded).2 below
      · exact fun _ none => none
    split
    · next grown error result =>
      rw [result] at made wider
      refine ⟨wider, nofun, ?_⟩
      rintro _ ⟨⟩
      rcases made.failed error rfl with same | ⟨long, -, blocked⟩
      · exact .inl same
      · refine .inr ⟨long, checkName_of_notFound filled attempt, ?_⟩
        rw [descend_of_leads leads, blocked]
        rfl
    · next grown result =>
      rw [result] at made wider
      have there := (made.present rfl).descend
      split
      · next new second => exact created wider second
      · next error second =>
        cases present : grown.isDirectory path with
        | true => exact ⟨wider, fun _ => .inr present, nofun⟩
        | false =>
          refine ⟨wider, nofun, ?_⟩
          rintro _ ⟨⟩
          exact .inr (made_again wellFormed grounded leads wider attempt there second present)
  · next error other attempt => exact unchanged error

theorem made_root (root : path.segments = [""]) (above : List Path) :
    Made tree path (tree.makeLineage (path :: above)) := by
  have trimmed : path.Trimmed := .inl root
  rw [makeLineage_of_hasDirectory trimmed (hasDirectory_root root tree)]
  exact ⟨.same, fun _ => hasDirectory_root root tree, nofun⟩

theorem made_lineage (wellFormed : tree.WellFormed) (trimmed : path.Trimmed) (grounded : path.LeavesOnly tree.IsThere)
    (fuel : Nat) : Made tree path (tree.makeLineage (lineage path fuel)) := by
  induction fuel generalizing path with
  | zero =>
    rcases trimmed.cases with ⟨root, -⟩ | ⟨base, name, -, -, leads⟩
    · exact made_root root []
    · exact made_of_leads wellFormed grounded leads (.inl rfl)
  | succ fuel ih =>
    rcases trimmed.cases with ⟨root, none⟩ | ⟨base, name, parent, above, leads⟩
    · rw [lineage, none]
      exact made_root root []
    · rw [lineage, parent]
      exact made_of_leads wellFormed grounded leads (.inr (ih above ((Path.leavesOnly_iff leads).mp grounded).1))

theorem lineage_eq_cons (path : Path) (fuel : Nat) : ∃ above, lineage path fuel = path :: above := by
  cases fuel with
  | zero => exact ⟨[], rfl⟩
  | succ fuel =>
    rw [lineage]
    cases path.parent? with
    | none => exact ⟨[], rfl⟩
    | some parent => exact ⟨_, rfl⟩

theorem makeDirectories_of_hasDirectory (trimmed : path.Trimmed) (there : tree.HasDirectory path) :
    tree.makeDirectories path = (tree, .ok ()) := by
  obtain ⟨above, same⟩ := lineage_eq_cons path path.text.length
  rw [makeDirectories, same, makeLineage_of_hasDirectory trimmed there]

theorem made_makeDirectories (wellFormed : tree.WellFormed) (trimmed : path.Trimmed) (grounded : path.LeavesOnly tree.IsThere) :
    Made tree path (tree.makeDirectories path) :=
  made_lineage wellFormed trimmed grounded _

theorem makeDirectory_of_blocked (trimmed : path.Trimmed) (named : checkName path = .ok ())
    (blocked : tree.descend path = .error .nameTooLong) :
    path.text ≠ "" ∧ tree.makeDirectory path = .error .nameTooLong := by
  rcases trimmed.cases with ⟨root, -⟩ | ⟨base, name, -, -, leads⟩
  · rw [descend_root root] at blocked
    cases blocked
  refine ⟨ne_empty_of_leads leads, ?_⟩
  rw [descend_of_leads leads] at blocked
  rw [makeDirectory_of_leads leads, named]
  cases descended : tree.descend base with
  | error error =>
    rw [descended] at blocked
    cases blocked
    rfl
  | ok parent =>
    cases length : checkLength name with
    | error error =>
      obtain rfl := eq_nameTooLong length
      rfl
    | ok =>
      rw [descended, length] at blocked
      change tree.directoryAt path.location = .error .nameTooLong at blocked
      rw [directoryAt] at blocked
      split at blocked <;> cases blocked

/-- Another attempt to create a directory comes to the same and creates nothing. -/
theorem makeDirectories_again (wellFormed : tree.WellFormed) (trimmed : path.Trimmed) (grounded : path.LeavesOnly tree.IsThere) :
    (tree.makeDirectories path).1.makeDirectories path = tree.makeDirectories path := by
  have made := made_makeDirectories wellFormed trimmed grounded
  cases result : tree.makeDirectories path with
  | mk grown outcome =>
    rw [result] at made
    cases outcome with
    | ok => exact makeDirectories_of_hasDirectory trimmed (made.present rfl)
    | error error =>
      -- a failure that left something behind comes from a name, which is as long the second time
      rcases made.failed error rfl with same | ⟨rfl, named, blocked⟩
      · change grown = tree at same
        rw [same, result, same]
      · obtain ⟨filled, long⟩ := makeDirectory_of_blocked trimmed named blocked
        have absent : grown.isDirectory path = false := by
          rw [Bool.eq_false_iff, ne_eq, isDirectory_iff, blocked]
          exact fun there => nomatch there.2
        obtain ⟨above, same⟩ := lineage_eq_cons path path.text.length
        rw [makeDirectories, same, makeLineage, if_neg filled, long]
        simp [absent]

end
end Compendium.FileTree
