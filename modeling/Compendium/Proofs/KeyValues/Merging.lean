import Compendium.Proofs.Document.Names
import Compendium.Proofs.KeyValues.Reading
import Compendium.Proofs.KeyValues.Tree

/-! Merging, path by path. In a merged tree every block names each key once, and where two trees agree on what is a
value and what is a block, merging them keeps the later value and joins the keys of blocks. -/

set_option autoImplicit false
namespace Compendium.KeyValues

theorem Node.over_none (node : Node) : node.over none = node := by
  cases node with
  | text value => rw [Node.over]
  | block incoming => simp [Node.over]

theorem Node.over_text (node : Node) (value : String) : node.over (some (.text value)) = node := by
  cases node with
  | text value => rw [Node.over]
  | block incoming => simp [Node.over]

theorem Node.over_block (target incoming : Entries) :
    (Node.block incoming).over (some (.block target)) = .block (mergeEntries target incoming) := by
  rw [Node.over]

/-- Every block names each of its keys once. -/
inductive Settled : Node → Prop where
  | text (value : String) : Settled (.text value)
  | block {entries : Entries} : Members.Distinct entries → (∀ entry ∈ entries, Settled entry.2) →
      Settled (.block entries)

theorem Settled.empty : Settled (.block []) :=
  .block List.nodup_nil (fun _ member => nomatch member)

theorem Settled.distinct {entries : Entries} (settled : Settled (.block entries)) : Members.Distinct entries := by
  cases settled with
  | block distinct _ => exact distinct

theorem Settled.children {entries : Entries} (settled : Settled (.block entries)) :
    ∀ entry ∈ entries, Settled entry.2 := by
  cases settled with
  | block _ children => exact children

theorem Settled.child {entries : Entries} {key : String} {node : Node} (settled : Settled (.block entries))
    (found : Members.at? entries key = some node) : Settled node :=
  settled.children _ (Members.mem_of_at? found)

theorem Settled.put {entries : Entries} {node : Node} (settled : Settled (.block entries)) (key : String)
    (new : Settled node) : Settled (.block (Members.put entries key node)) := by
  refine .block (Members.distinct_put settled.distinct key node) ?_
  intro entry member
  rcases Members.mem_put member with old | rfl
  · exact settled.children entry old
  · exact new

mutual

theorem Settled.over {existing : Option Node} (old : ∀ node, existing = some node → Settled node) :
    ∀ {node : Node}, Settled node → Settled (node.over existing)
  | .text value, _ => by
    rw [Node.over]
    exact .text value
  | .block incoming, settled => by
    match existing with
    | none =>
      rw [Node.over_none]
      exact settled
    | some (.text _) =>
      rw [Node.over_text]
      exact settled
    | some (.block target) =>
      rw [Node.over_block]
      exact Settled.mergeEntries (old _ rfl) incoming settled.children

theorem Settled.mergeEntries {target : Entries} (settled : Settled (.block target)) :
    ∀ incoming : List (String × Node), (∀ entry ∈ incoming, Settled entry.2) →
      Settled (.block (mergeEntries target incoming))
  | [], _ => settled
  | (key, node) :: rest, children => by
    rw [KeyValues.mergeEntries]
    have new : Settled (node.over (Members.at? target key)) :=
      Settled.over (fun _ found => settled.child found) (children _ List.mem_cons_self)
    exact Settled.mergeEntries (settled.put key new) rest (fun entry member => children entry (List.mem_cons_of_mem _ member))

end

theorem Settled.store {entries : Entries} {node : Node} (settled : Settled (.block entries)) (key : String)
    (new : Settled node) : Settled (.block (Entries.store entries key node)) :=
  settled.put key (Settled.over (fun _ found => settled.child found) new)

mutual

theorem Node.settled_merged : ∀ node : Node, Settled node.merged
  | .text value => .text value
  | .block written => Settled.storeAll .empty written

theorem Settled.storeAll {entries : Entries} (settled : Settled (.block entries)) :
    ∀ written : List (String × Node), Settled (.block (storeAll entries written))
  | [] => settled
  | (key, node) :: rest => Settled.storeAll (settled.store key node.settled_merged) rest

end

theorem Entries.store_of_not_mem {entries : Entries} {key : String} (node : Node)
    (fresh : key ∉ Members.names entries) : store entries key node = entries ++ [(key, node)] := by
  rw [store, (Members.at?_eq_none_iff entries key).mpr fresh, Node.over_none, Members.put_of_not_mem entries node fresh]

theorem Settled.fresh {before rest : Entries} {key : String} {node : Node}
    (settled : Settled (.block (before ++ (key, node) :: rest))) : key ∉ Members.names before := by
  have distinct := settled.distinct
  rw [Members.Distinct, Members.names, List.map_append, List.nodup_append] at distinct
  intro member
  exact distinct.2.2 key member key List.mem_cons_self rfl

mutual

/-- A settled tree is its own merging. -/
theorem Settled.merged_eq : ∀ {node : Node}, Settled node → node.merged = node
  | .text value, _ => by
    rw [Node.merged]
  | .block written, settled => by
    rw [Node.merged, storeAll_of_settled written [] settled, List.nil_append]

theorem storeAll_of_settled : ∀ (written : List (String × Node)) (before : Entries),
    Settled (.block (before ++ written)) → storeAll before written = before ++ written
  | [], before, _ => by
    rw [storeAll, List.append_nil]
  | (key, node) :: rest, before, settled => by
    have child : Settled node := settled.children (key, node) (List.mem_append_right _ List.mem_cons_self)
    rw [storeAll, Settled.merged_eq child, Entries.store_of_not_mem node settled.fresh]
    -- the entry goes to the end, since its key is new
    rw [List.append_cons before (key, node) rest] at settled ⊢
    exact storeAll_of_settled rest _ settled

end

theorem names_mergeEntries {target : Entries} (distinct : Members.Distinct target) (incoming : Entries) :
    Members.names (mergeEntries target incoming) = (Members.names target ++ Members.names incoming).eraseDups := by
  induction incoming generalizing target with
  | nil =>
    rw [mergeEntries, Members.names, Members.names, List.map_nil, List.append_nil]
    exact (eraseDups_of_nodup distinct).symm
  | cons entry rest ih =>
    obtain ⟨key, node⟩ := entry
    rw [mergeEntries, ih (Members.distinct_put distinct key _), Members.names_put]
    rw [show Members.names ((key, node) :: rest) = key :: Members.names rest from rfl]
    split
    · next known =>
      rw [List.eraseDups_append, List.eraseDups_append, List.cons_removeAll]
      simp [known]
    · rw [List.append_assoc, List.singleton_append]

theorem at?_mergeEntries (target : Entries) {incoming : Entries} (distinct : Members.Distinct incoming)
    (key : String) : Members.at? (mergeEntries target incoming) key =
      match Members.at? incoming key with
      | none => Members.at? target key
      | some node => some (node.over (Members.at? target key)) := by
  induction incoming generalizing target with
  | nil => rfl
  | cons entry rest ih =>
    obtain ⟨name, node⟩ := entry
    obtain ⟨fresh, distinct⟩ := List.nodup_cons.mp distinct
    rw [mergeEntries, ih _ distinct, Members.at?]
    by_cases same : name = key
    · subst same
      rw [if_pos rfl, (Members.at?_eq_none_iff rest name).mpr fresh]
      exact Members.at?_put_self _ _ _
    · rw [if_neg same, Members.at?_put_of_ne target _ same]

/-- What a path leads to: a value, or a block with its keys in order. -/
inductive Shape where
  | value (text : String)
  | block (keys : List String)
  deriving DecidableEq, Repr

namespace Shape

def isBlock : Shape → Bool
  | .value _ => false
  | .block _ => true

/-- The later of two values, or the keys of both blocks. -/
def join : Option Shape → Option Shape → Option Shape
  | old, none => old
  | some (.block first), some (.block second) => some (.block (first ++ second).eraseDups)
  | _, new => new

/-- Two shapes at one path are both values or both blocks. -/
def Alike (old new : Option Shape) : Prop :=
  ∀ first second, old = some first → new = some second → first.isBlock = second.isBlock

end Shape

def Node.shape : Node → Shape
  | .text value => .value value
  | .block entries => .block (Members.names entries)

def Node.shapeAt (node : Node) (path : List String) : Option Shape :=
  (node.at? path).map Node.shape

theorem Node.at?_toDocument_eq_text_iff (node : Node) (path : List String) (value : String) :
    node.toDocument.at? path = some (.text value) ↔ node.shapeAt path = some (.value value) := by
  rw [Node.at?_toDocument, Node.shapeAt]
  cases node.at? path with
  | none => simp
  | some found =>
    cases found with
    | text other => simp [Node.toDocument, Node.shape]
    | block entries => simp [Node.toDocument, Node.shape]

theorem Node.shapeAt_of_at?_toDocument_table {node : Node} {path : List String} {members : Members Document}
    (table : node.toDocument.at? path = some (.table members)) :
    node.shapeAt path = some (.block (Members.names members)) := by
  rw [Node.at?_toDocument, Option.map_eq_some_iff] at table
  obtain ⟨found, here, same⟩ := table
  cases found with
  | text other => cases same
  | block entries =>
    rw [Node.toDocument, Document.table.injEq] at same
    rw [Node.shapeAt, here, ← same, names_entriesToMembers]
    rfl

theorem Node.exists_table_of_shapeAt {node : Node} {path keys : List String}
    (shape : node.shapeAt path = some (.block keys)) : ∃ members, node.toDocument.at? path = some (.table members) := by
  rw [Node.shapeAt, Option.map_eq_some_iff] at shape
  obtain ⟨found, here, same⟩ := shape
  cases found with
  | text other => cases same
  | block entries =>
    rw [Node.at?_toDocument, here]
    exact ⟨entriesToMembers entries, rfl⟩

theorem Node.shapeAt_block_cons (entries : Entries) (key : String) (path : List String) :
    (Node.block entries).shapeAt (key :: path) = (Members.at? entries key).bind fun node => node.shapeAt path := by
  rw [shapeAt, Node.at?]
  cases Members.at? entries key with
  | none => rfl
  | some node => rfl

theorem Shape.join_none_left (new : Option Shape) : Shape.join none new = new := by
  cases new with
  | none => rfl
  | some shape => cases shape <;> rfl

/-- Merging is pointwise wherever the two trees agree on what is a block. -/
theorem shapeAt_mergeEntries (path : List String) : ∀ {target incoming : Entries},
    Settled (.block target) → Settled (.block incoming) →
    (∀ path, Shape.Alike ((Node.block target).shapeAt path) ((Node.block incoming).shapeAt path)) →
    (Node.block (mergeEntries target incoming)).shapeAt path =
      Shape.join ((Node.block target).shapeAt path) ((Node.block incoming).shapeAt path) := by
  induction path with
  | nil =>
    intro target incoming settled _ _
    change some (Shape.block (Members.names (mergeEntries target incoming))) = _
    rw [names_mergeEntries settled.distinct]
    rfl
  | cons key path ih =>
    intro target incoming settled new alike
    rw [Node.shapeAt_block_cons, Node.shapeAt_block_cons, Node.shapeAt_block_cons, at?_mergeEntries target new.distinct]
    have below : ∀ path, Shape.Alike ((Members.at? target key).bind fun node => node.shapeAt path)
        ((Members.at? incoming key).bind fun node => node.shapeAt path) := by
      intro path
      rw [← Node.shapeAt_block_cons, ← Node.shapeAt_block_cons]
      exact alike (key :: path)
    cases added : Members.at? incoming key with
    | none => rfl
    | some node =>
      cases found : Members.at? target key with
      | none =>
        simp only [Node.over_none, Option.bind_some, Option.bind_none, Shape.join_none_left]
      | some old =>
        rw [found, added] at below
        simp only [Option.bind_some] at below ⊢
        match old, node with
        | .text _, .text value =>
          rw [Node.over_text]
          cases path with
          | nil => rfl
          | cons next path => rfl
        -- a value and a block at one path are what `alike` rules out
        | .text _, .block _ => cases below [] _ _ rfl rfl
        | .block _, .text _ => cases below [] _ _ rfl rfl
        | .block inner, .block more =>
          rw [Node.over_block]
          exact ih (settled.child found) (new.child added) below

end Compendium.KeyValues
