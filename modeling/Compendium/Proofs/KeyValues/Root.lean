import Compendium.Proofs.KeyValues.Tree
import Mathlib

/-! The root of a block text. It is found where the first entry is a block; a value before the first block hides it. -/

set_option autoImplicit false
namespace Compendium

/-- The first block among the members of a document. -/
def IsFirstBlock (members block : Members Document) : Prop :=
  ∃ before key after, members = before ++ (key, .table block) :: after ∧ ∀ member ∈ before, member.2.isTable = false

/-- A block with its keys in lower case, where they first appear. Of the values under keys that become equal the last
one is left. -/
structure Lowered (block root : Members Document) : Prop where
  names : Members.names root = ((Members.names block).map Text.lower).eraseDups
  at? : ∀ key value, Members.at? root key = some value ↔
    ∃ name, IsLast (fun member => Text.lower member.1 = key) block (name, value)

/-- The first block is the root, wherever it stands, and the root is missing only where there is no block. -/
structure FindsRoot (members : Members Document) (outcome : Except ResourceError Document) : Prop where
  missing : outcome = .error .missingRoot ↔ ∀ member ∈ members, member.2.isTable = false
  found : ∀ block, IsFirstBlock members block → ∃ root, outcome = .ok (.table root) ∧ Lowered block root

def StartsWithBlock (members : Members Document) : Prop :=
  ∃ key block after, members = (key, .table block) :: after

namespace KeyValues

theorem lowered_lowerKeys (entries : Entries) :
    Lowered (entriesToMembers entries) (entriesToMembers (lowerKeys entries)) := by
  constructor
  · rw [names_entriesToMembers, names_entriesToMembers, lowerKeys, Members.names_ofPairs, Members.names, Members.names,
      List.map_map, List.map_map]
    rfl
  · intro key value
    rw [at?_entriesToMembers, Option.map_eq_some_iff]
    -- both sides are about the last entry whose key becomes this one
    simp only [lowerKeys, Members.at?_ofPairs_eq_some_iff, entriesToMembers_eq_map, IsLast.map_iff, Prod.mk.injEq]
    constructor
    · rintro ⟨node, ⟨⟨name, _⟩, last, -, rfl⟩, rfl⟩
      exact ⟨name, _, last, rfl, rfl⟩
    · rintro ⟨_, ⟨name, node⟩, last, rfl, rfl⟩
      exact ⟨node, ⟨_, last, last.holds, rfl⟩, rfl⟩

end KeyValues

namespace Resource

/-- Only the first entry is tried. -/
theorem ofRootedText_cases {text : String} {entries : KeyValues.Entries} (read : KeyValues.read text = .ok entries) :
    (¬ StartsWithBlock (KeyValues.entriesToMembers entries) ∧ ofRootedText text = .error .missingRoot) ∨
    ∃ key block after root, KeyValues.entriesToMembers entries = (key, .table block) :: after ∧
      ofRootedText text = .ok (.table root) ∧ Lowered block root := by
  rw [ofRootedText, entriesOfText, read]
  cases entries with
  | nil =>
    refine .inl ⟨?_, rfl⟩
    rintro ⟨key, block, after, starts⟩
    cases starts
  | cons entry rest =>
    obtain ⟨key, node⟩ := entry
    cases node with
    | text value =>
      refine .inl ⟨?_, rfl⟩
      rintro ⟨key, block, after, starts⟩
      cases starts
    | block inner => exact .inr ⟨key, _, _, _, rfl, rfl, KeyValues.lowered_lowerKeys inner⟩

/-- The root is found as it should be where the first entry is a block or no entry is. -/
theorem ofRootedText_findsRoot_iff {text : String} {document : Document} (accepted : ofBlockText text = .ok document) :
    ∃ members, document = .table members ∧
      (ofRootedText text = .error .missingRoot ↔ ¬ StartsWithBlock members) ∧
      (FindsRoot members (ofRootedText text) ↔
        StartsWithBlock members ∨ ∀ member ∈ members, member.2.isTable = false) := by
  obtain ⟨entries, read, rfl⟩ := (ofBlockText_eq_ok_iff text document).mp accepted
  refine ⟨_, rfl, ?_⟩
  rcases ofRootedText_cases read with ⟨hidden, missing⟩ | ⟨key, block, after, root, starts, found, lowered⟩
  · rw [missing]
    refine ⟨iff_of_true rfl hidden, ?_, ?_⟩
    · intro finds
      exact .inr (finds.missing.mp rfl)
    · rintro (starts | none)
      · exact absurd starts hidden
      · refine ⟨iff_of_true rfl none, ?_⟩
        rintro block ⟨before, key, after, split, -⟩
        have value := none (key, .table block) (by simp [split])
        cases value
  · rw [found, starts]
    have first : StartsWithBlock ((key, .table block) :: after) := ⟨key, block, after, rfl⟩
    refine ⟨iff_of_false (by simp) (not_not_intro first), iff_of_true ?_ (.inl first)⟩
    refine ⟨iff_of_false (by simp) ?_, ?_⟩
    · intro none
      cases none _ List.mem_cons_self
    · rintro other ⟨before, name, later, split, values⟩
      -- a block behind the first entry would have the first entry, a block, before it
      cases before with
      | nil =>
        cases split
        exact ⟨root, rfl, lowered⟩
      | cons head rest =>
        obtain ⟨rfl, -⟩ := List.cons.inj split
        cases values _ List.mem_cons_self

/-- Keys that become equal are merged in the first block, and not below it. -/
theorem ofRootedText_findsRoot_merged : ∃ text members,
    text = "lang \x7b Key 1 sub \x7b Key 2 KEY 3 \x7d KEY 4 \x7d x y" ∧ ofBlockText text = .ok (.table members) ∧
      FindsRoot members (ofRootedText text) ∧
      ofRootedText text =
        .ok (.table [("key", .text "4"), ("sub", .table [("Key", .text "2"), ("KEY", .text "3")])]) := by
  generalize same : "lang \x7b Key 1 sub \x7b Key 2 KEY 3 \x7d KEY 4 \x7d x y" = text
  have accepted : ofBlockText text = .ok (.table [("lang", .table [("Key", .text "1"),
      ("sub", .table [("Key", .text "2"), ("KEY", .text "3")]), ("KEY", .text "4")]), ("x", .text "y")]) := by
    subst same
    cbv
  have rooted : ofRootedText text =
      .ok (.table [("key", .text "4"), ("sub", .table [("Key", .text "2"), ("KEY", .text "3")])]) := by
    subst same
    cbv
  obtain ⟨members, table, -, finds⟩ := ofRootedText_findsRoot_iff accepted
  obtain rfl := Document.table.inj table
  exact ⟨text, _, rfl, accepted, finds.mpr (.inl ⟨_, _, _, rfl⟩), rooted⟩

/-- A directive before the block hides it. -/
theorem ofRootedText_misses_block : ∃ text members,
    text = "#base \"a.txt\"\nlang \x7b Key v \x7d" ∧ ofBlockText text = .ok (.table members) ∧
      IsFirstBlock members [("Key", .text "v")] ∧ ofRootedText text = .error .missingRoot := by
  generalize same : "#base \"a.txt\"\nlang \x7b Key v \x7d" = text
  have accepted : ofBlockText text =
      .ok (.table [("#base", .text "a.txt"), ("lang", .table [("Key", .text "v")])]) := by
    subst same
    cbv
  have missing : ofRootedText text = .error .missingRoot := by
    subst same
    cbv
  refine ⟨text, _, rfl, accepted, ⟨[_], "lang", [], rfl, ?_⟩, missing⟩
  exact List.forall_mem_singleton.mpr rfl

end Resource
end Compendium
