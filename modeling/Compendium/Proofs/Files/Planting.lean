import Compendium.Proofs.Files.Walking

/-! Trees made by creating directories and writing files. Every entry of such a tree stands in a directory. -/

set_option autoImplicit false
namespace Compendium.FileTree

theorem wellFormed_empty : empty.WellFormed :=
  ⟨nofun, nofun⟩

section
variable {tree : FileTree} {location : Location} {segment : String} {entry : Entry} {path : Path}

theorem eq_or_mem_of_mem_putEntry {entries : List (Location × Entry)} {other : Location × Entry}
    (member : other ∈ putEntry location entry entries) : other.1 = location ∨ other ∈ entries := by
  induction entries with
  | nil =>
    rw [putEntry, List.mem_singleton] at member
    exact .inl (congrArg Prod.fst member)
  | cons head rest ih =>
    obtain ⟨place, old⟩ := head
    rw [putEntry] at member
    split at member
    · next same =>
      rcases List.mem_cons.mp member with here | later
      · exact .inl (by rw [here]; exact same)
      · exact .inr (List.mem_cons_of_mem _ later)
    · rcases List.mem_cons.mp member with here | later
      · exact .inr (here ▸ List.mem_cons_self)
      · exact (ih later).imp_right (List.mem_cons_of_mem _)

theorem WellFormed.names_of_isThere (wellFormed : tree.WellFormed) (there : tree.IsThere location) :
    ∀ name ∈ location, IsPlaceName name := by
  intro name member
  by_cases given : location.isGiven = true
  · rw [Location.isGiven, Bool.or_eq_true, beq_iff_eq, List.all_eq_true] at given
    rcases given with rfl | up
    · exact .inr (.inl (List.mem_singleton.mp member))
    · exact .inl (beq_iff_eq.mp (up name member))
  · rw [IsThere, entryAt?, if_neg given] at there
    obtain ⟨entry, found⟩ := Option.ne_none_iff_exists'.mp there
    exact wellFormed.names _ (mem_of_lookup? found) name member

/-- Something new in a directory leaves every entry in a directory. -/
theorem WellFormed.put (wellFormed : tree.WellFormed) (fresh : tree.entryAt? location ≠ some .directory)
    (parent : tree.entryAt? location.tail = some .directory) (names : ∀ name ∈ location, IsPlaceName name) :
    (tree.put location entry).WellFormed where
  parents := by
    intro other member
    have directory : tree.entryAt? other.1.tail = some .directory := by
      rcases eq_or_mem_of_mem_putEntry member with same | old
      · rwa [same]
      · exact wellFormed.parents other old
    -- the new place was no directory, so that nothing stands in it
    have apart : other.1.tail ≠ location := by
      intro same
      rw [same] at directory
      exact fresh directory
    rwa [entryAt?_put fresh, if_neg apart]
  names := by
    intro other member
    rcases eq_or_mem_of_mem_putEntry member with same | old
    · rwa [same]
    · exact wellFormed.names other old

/-- The same, where a segment leads from a directory. -/
theorem WellFormed.put_enter (wellFormed : tree.WellFormed) (parent : tree.entryAt? location = some .directory)
    (slashless : '/' ∉ segment.toList) (fresh : tree.entryAt? (location.enter segment) ≠ some .directory) :
    (tree.put (location.enter segment) entry).WellFormed := by
  have there : tree.IsThere location := by simp [IsThere, parent]
  have names := wellFormed.names_of_isThere there
  cases idle : isIdle segment with
  | true =>
    rw [Location.enter_of_isIdle idle] at fresh
    exact absurd parent fresh
  | false =>
    by_cases up : segment = ".."
    · subst up
      rw [Location.enter_up] at fresh ⊢
      cases location with
      | nil => exact absurd (entryAt?_of_isGiven rfl) fresh
      | cons name rest =>
        rw [Location.up] at fresh ⊢
        split at fresh
        · next same =>
          subst same
          rw [if_pos rfl]
          exact wellFormed.put fresh parent (by simpa using names)
        · split at fresh
          · exact absurd parent fresh
          · exact absurd (wellFormed.entryAt?_tail there) fresh
    · rw [Location.enter_of_ne idle up] at fresh ⊢
      apply wellFormed.put fresh parent
      rw [List.forall_mem_cons]
      refine ⟨.inr (.inr ⟨?_, slashless⟩), names⟩
      rw [isIdle, Bool.or_eq_false_iff, beq_eq_false_iff_ne, beq_eq_false_iff_ne] at idle
      simp [idle, up]

theorem target_spec {target : Target} (found : tree.target path = .ok target) :
    tree.entryAt? target.parent = some .directory ∧ '/' ∉ target.name.toList := by
  unfold FileTree.target at found
  cases named : checkName path with
  | error error =>
    rw [named] at found
    cases found
  | ok =>
    rw [named] at found
    simp only [bind, Except.bind] at found
    split at found
    · cases found
      exact ⟨entryAt?_of_isGiven rfl, show '/' ∉ ".".toList by decide⟩
    · next name rest kept =>
      have member : name ∈ path.segments := by
        rw [← List.mem_reverse]
        apply (List.dropWhile_suffix (· == "")).subset
        rw [kept]
        exact List.mem_cons_self
      split at found
      · cases found
      · next parent walked =>
        split at found
        · cases found
        · cases found
        · next directory =>
          split at found
          · cases found
          · cases found
            exact ⟨directory, path.slash_not_mem_segments name member⟩

theorem WellFormed.makeDirectory (wellFormed : tree.WellFormed) {created : FileTree}
    (made : tree.makeDirectory path = .ok created) : created.WellFormed := by
  rw [FileTree.makeDirectory] at made
  cases found : tree.target path with
  | error error =>
    rw [found] at made
    cases made
  | ok target =>
    obtain ⟨parent, slashless⟩ := target_spec found
    rw [found] at made
    simp only [bind, Except.bind] at made
    split at made
    · cases made
    · next absent =>
      cases made
      exact wellFormed.put_enter parent slashless (by simp [absent])

theorem WellFormed.makeLineage (wellFormed : tree.WellFormed) (paths : List Path) :
    (tree.makeLineage paths).1.WellFormed := by
  induction paths with
  | nil => exact wellFormed
  | cons path above ih =>
    rw [FileTree.makeLineage]
    split
    · exact wellFormed
    · split
      · next created made => exact wellFormed.makeDirectory made
      · split
        · next grown error result =>
          rw [result] at ih
          exact ih
        · next grown result =>
          rw [result] at ih
          split
          · next created made => exact ih.makeDirectory made
          · exact ih
      · exact wellFormed

theorem WellFormed.write (wellFormed : tree.WellFormed) {content : Content} {written : FileTree}
    (wrote : tree.write path content = .ok written) : written.WellFormed := by
  rw [FileTree.write] at wrote
  cases found : tree.target path with
  | error error =>
    rw [found] at wrote
    cases wrote
  | ok target =>
    obtain ⟨parent, slashless⟩ := target_spec found
    rw [found] at wrote
    simp only [bind, Except.bind] at wrote
    split at wrote
    · cases wrote
    · split at wrote
      · cases wrote
      · next file =>
        cases wrote
        exact wellFormed.put_enter parent slashless file

/-- Adding a file or a directory with all above it keeps a tree well formed. -/
theorem WellFormed.plant (wellFormed : tree.WellFormed) (path : Path) (content : Option Content) :
    (tree.plant path content).WellFormed := by
  cases content with
  | none => exact wellFormed.makeLineage _
  | some content =>
    rw [FileTree.plant]
    cases path.parent? with
    | none =>
      split
      · next written wrote => exact wellFormed.write wrote
      · exact wellFormed
    | some parent =>
      have grown := wellFormed.makeLineage (lineage parent parent.text.length)
      split
      · next written wrote => exact grown.write wrote
      · exact grown

end
end Compendium.FileTree
