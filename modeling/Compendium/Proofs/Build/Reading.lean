import Compendium.Build.Material
import Compendium.Proofs.Files.Finding
import Compendium.Proofs.Tooltip.TokenAliases

/-! What the jobs of a build read. Directories above the outputs and the outputs themselves can be added to a file tree
without any job reading something else, as long as no output is a source. Nor does it matter in which order a job goes through
the tokens of its texts, as long as their aliases are apart. -/

set_option autoImplicit false
namespace Compendium

theorem StringTable.distinct_of_ofDocument {document : Document} {texts : StringTable}
    (read : ofDocument document = .ok texts) : Members.Distinct texts.tokens := by
  dsimp only [ofDocument] at read
  split at read
  · cases read
  · cases read
    exact Members.distinct_ofPairs _

namespace Source

/-- No two capitalized tokens of the texts at a path have the same alias. -/
def AliasesApart (tree : FileTree) (path : Path) : Prop :=
  ∀ texts, table tree path = .ok texts → texts.AliasesApart

section
variable {directories files : Location → Prop} {tree grown : FileTree} {path : Path}

theorem document_congr (same : ∀ location content,
    grown.find path = .ok (location, .file content) ↔ tree.find path = .ok (location, .file content)) :
    document grown path = document tree path := by
  by_cases found : tree.isFile path = true
  · obtain ⟨location, content, here⟩ := FileTree.isFile_iff.mp found
    have finds : grown.find path = tree.find path := ((same location content).mpr here).trans here.symm
    have isFile : grown.isFile path = tree.isFile path := by rw [FileTree.isFile, finds, FileTree.isFile]
    have readText : grown.readText path = tree.readText path := by rw [FileTree.readText, finds, FileTree.readText]
    rw [document, isFile, readText, document]
  · have missing : ¬ grown.isFile path = true := by
      rw [FileTree.isFile_iff] at found ⊢
      rintro ⟨location, content, here⟩
      exact found ⟨location, content, (same location content).mp here⟩
    rw [document, if_neg missing, document, if_neg found]

theorem document_extends (extended : FileTree.Extends directories files tree grown) (wellFormed : tree.WellFormed)
    (steady : path.LeavesOnly fun place => directories place → tree.IsThere place) (apart : ¬ files path.location) :
    document grown path = document tree path :=
  document_congr fun _ => extended.find_file_iff wellFormed steady (extended.file_iff apart)

theorem distinct_of_table {texts : StringTable} (loaded : table tree path = .ok texts) : Members.Distinct texts.tokens := by
  rw [table] at loaded
  cases found : document tree path with
  | error error =>
    rw [found] at loaded
    cases loaded
  | ok resource =>
    cases read : StringTable.ofDocument resource with
    | error error =>
      rw [found] at loaded
      simp [bind, Except.bind, read, Except.mapError] at loaded
    | ok other =>
      rw [found] at loaded
      simp only [bind, Except.bind, read, Except.mapError, Except.ok.injEq] at loaded
      exact loaded ▸ StringTable.distinct_of_ofDocument read

/-- The table that is loaded does not depend on the order in which its tokens are gone through. -/
theorem strings_order (apart : AliasesApart tree path) (order other : StringTable.TokenOrder) :
    strings tree path order = strings tree path other := by
  rw [strings, strings]
  cases loaded : table tree path with
  | error error => rfl
  | ok texts =>
    exact congrArg Except.ok (StringTable.normalizeCase_order (distinct_of_table loaded) (apart texts loaded) order other)

/-- The answers below a directory are the same if no file was put there. -/
theorem responses_extends (extended : FileTree.Extends directories files tree grown) (wellFormed : tree.WellFormed)
    (steady : path.LeavesOnly fun place => directories place → tree.IsThere place) (kept : tree.entryAt? path.location = none → ¬ directories path.location)
    (apart : ∀ location, files location → ¬ location.IsBelow path.location) :
    responses grown path = responses tree path := by
  have isDirectory := extended.isDirectory_eq wellFormed steady kept
  rw [responses, responses, isDirectory]
  split
  · next there =>
    obtain ⟨-, directory⟩ := FileTree.eq_location_of_descend (FileTree.isDirectory_iff.mp there).2
    have listed : grown.jsonFiles path = tree.jsonFiles path := by
      rw [FileTree.jsonFiles_of_isDirectory there, FileTree.jsonFiles_of_isDirectory (isDirectory.trans there),
        extended.filterMap_eq directory apart]
    rw [listed]
    congr 1
    apply List.filterMap_congr
    intro found member
    obtain ⟨names, plain, rfl⟩ := wellFormed.exists_of_mem_jsonFiles there member
    congr 1
    apply document_congr
    intro location content
    apply extended.find_file_iff wellFormed (FileTree.leavesOnly_foldl_child steady plain)
    rw [FileTree.location_foldl_child path plain]
    exact extended.file_iff_below directory apart plain
  · rfl

end
end Source

/-- The files that a job reads, besides those in the directory of hero data. -/
def Job.sources (manifest : Manifest) : Job → List Path
  | .items => below manifest [Source.abilityStrings manifest.build.language, Source.itemScripts, Source.neutralItems]
  | .abilities => below manifest [Source.abilityStrings manifest.build.language, Source.abilityScripts]
  | .heroes | .heroNames => below manifest [Source.generalStrings manifest.build.language, Source.heroScripts] ++
      manifest.sources.heroOverrides.toList
  | .heroLore => below manifest [Source.heroLore manifest.build.language]
  | .aghanim => []
where
  below (manifest : Manifest) (paths : List Path) : List Path :=
    paths.map manifest.sources.dataDirectory.below

/-- The localized texts that a job reads. -/
def Job.texts? (manifest : Manifest) : Job → Option Path
  | .items | .abilities => some (manifest.sources.dataDirectory.below (Source.abilityStrings manifest.build.language))
  | .heroes | .heroNames => some (manifest.sources.dataDirectory.below (Source.generalStrings manifest.build.language))
  | .heroLore | .aghanim => none

namespace Manifest

/-- No output of the jobs is one of the files that they read, or lies in the directory of hero data if they read that. -/
structure OutputsApart (manifest : Manifest) (jobs : List Job) : Prop where
  sources : ∀ job ∈ jobs, ∀ reader ∈ jobs, ∀ source ∈ reader.sources manifest,
    (manifest.outputOf job).location ≠ source.location
  heroData : .aghanim ∈ jobs → ∀ job ∈ jobs,
    ¬ (manifest.outputOf job).location.IsBelow manifest.sources.heroDataDirectory.location

end Manifest

section
variable {manifest : Manifest} {jobs : List Job} {directories files : Location → Prop} {tree grown : FileTree} {job : Job}

/-- A job loads the same where its sources and the directory of hero data are the same. -/
theorem Material.load_congr
    (documents : ∀ source ∈ job.sources manifest, Source.document grown source = Source.document tree source)
    (responses : job = .aghanim → Source.responses grown manifest.sources.heroDataDirectory =
      Source.responses tree manifest.sources.heroDataDirectory) (order : StringTable.TokenOrder) :
    Material.load manifest grown job order = Material.load manifest tree job order := by
  have optional : ∀ path : Option Path, (∀ source ∈ path.toList, Source.document grown source = Source.document tree source) →
      Source.document? grown path = Source.document? tree path := by
    intro path same
    cases path with
    | none => rfl
    | some path => rw [Source.document?, Source.document?, same path (by simp)]
  cases job with
  | aghanim => simp only [load, responses rfl]
  | items =>
    simp only [Job.sources, Job.sources.below, List.map_cons, List.map_nil, List.forall_mem_cons] at documents
    simp only [load, Source.strings, Source.table, documents]
  | abilities =>
    simp only [Job.sources, Job.sources.below, List.map_cons, List.map_nil, List.forall_mem_cons] at documents
    simp only [load, Source.strings, Source.table, documents]
  | heroLore =>
    simp only [Job.sources, Job.sources.below, List.map_cons, List.map_nil, List.forall_mem_cons] at documents
    simp only [load, documents]
  | heroes | heroNames =>
    simp only [Job.sources, Job.sources.below, List.map_cons, List.map_nil, List.cons_append, List.nil_append,
      List.forall_mem_cons] at documents
    simp only [load, loadHeroes, Source.strings, Source.table, documents, optional _ documents.2.2]

/-- A job loads the same in every order if the aliases of its texts are apart. -/
theorem Material.load_order (apart : ∀ path ∈ job.texts? manifest, Source.AliasesApart tree path)
    (order other : StringTable.TokenOrder) : Material.load manifest tree job order = Material.load manifest tree job other := by
  cases job with
  | heroLore => rfl
  | aghanim => rfl
  | items => simp only [load, Source.strings_order (apart _ rfl) order other]
  | abilities => simp only [load, Source.strings_order (apart _ rfl) order other]
  | heroes | heroNames => simp only [load, loadHeroes, Source.strings_order (apart _ rfl) order other]

end
end Compendium
