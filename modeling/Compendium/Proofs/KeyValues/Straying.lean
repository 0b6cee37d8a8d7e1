import Compendium.Proofs.KeyValues.Weight

/-! Trees that have gone another way than their goal. Whatever is stored into such a tree later, it comes back to the
goal only at the cost of weight. -/

set_option autoImplicit false
namespace Compendium.KeyValues

/-- Two trees part at a text that weighs something: under different keys at one place in the same block, or at a value
under the same keys. -/
inductive Diverged (weight : String → Nat) : Entries → Entries → Prop where
  | key {entries goal : Entries} {place : Nat} {key other : String} : (Members.names entries)[place]? = some key →
      (Members.names goal)[place]? = some other → key ≠ other → 0 < weight key → Diverged weight entries goal
  | value {entries goal : Entries} {key value other : String} : Members.at? entries key = some (.text value) →
      Members.at? goal key = some (.text other) → value ≠ other → 0 < weight value → Diverged weight entries goal
  | inside {entries goal inner innerGoal : Entries} {key : String} : Members.at? entries key = some (.block inner) →
      Members.at? goal key = some (.block innerGoal) → Diverged weight inner innerGoal → Diverged weight entries goal

variable {weight : String → Nat}

theorem Diverged.ne {entries goal : Entries} (diverged : Diverged weight entries goal) : entries ≠ goal := by
  induction diverged with
  | key first second differ _ =>
    rintro rfl
    rw [first, Option.some.injEq] at second
    exact differ second
  | value first second differ _ =>
    rintro rfl
    rw [first, Option.some.injEq, Node.text.injEq] at second
    exact differ second
  | inside first second _ ih =>
    rintro rfl
    rw [first, Option.some.injEq, Node.block.injEq] at second
    exact ih second

theorem Diverged.weigh_pos {entries goal : Entries} (diverged : Diverged weight entries goal) :
    0 < weighEntries weight entries := by
  induction diverged with
  | @key entries _ _ key _ first _ _ heavy =>
    have named : key ∈ Members.names entries := List.mem_of_getElem? first
    have present : Members.at? entries key ≠ none := by
      rw [ne_eq, Members.at?_eq_none_iff]
      exact not_not_intro named
    obtain ⟨node, found⟩ := Option.ne_none_iff_exists'.mp present
    have bound := weigh_le_of_at? weight found
    omega
  | value first _ _ heavy =>
    have bound := weigh_le_of_at? weight first
    rw [Node.weigh_text] at bound
    omega
  | inside first _ _ ih =>
    have bound := weigh_le_of_at? weight first
    rw [Node.weigh_block] at bound
    omega

/-- The entries have parted from the goal, or they weigh less than the bound. -/
def Strays (weight : String → Nat) (entries goal : Entries) (bound : Nat) : Prop :=
  Diverged weight entries goal ∨ weighEntries weight entries < bound

theorem Strays.mono {entries goal : Entries} {bound more : Nat} (strays : Strays weight entries goal bound)
    (least : bound ≤ more) : Strays weight entries goal more :=
  strays.imp_right fun lost => Nat.lt_of_lt_of_le lost least

theorem Strays.ne {entries goal : Entries} {bound : Nat} (strays : Strays weight entries goal bound)
    (least : bound ≤ weighEntries weight goal) : entries ≠ goal := by
  rcases strays with parted | lost
  · exact parted.ne
  · rintro rfl
    omega

/-- Weight once lost stays lost, so only trees that have parted need to be followed. -/
theorem Strays.step {entries next goal : Entries} {bound more : Nat} (strays : Strays weight entries goal bound)
    (within : weighEntries weight entries ≤ bound)
    (follow : Diverged weight entries goal → Strays weight next goal (weighEntries weight entries + more))
    (gain : weighEntries weight next ≤ weighEntries weight entries + more) :
    Strays weight next goal (bound + more) := by
  rcases strays with parted | lost
  · rcases follow parted with still | lost
    · exact .inl still
    · exact .inr (by omega)
  · exact .inr (by omega)

/-- An entry either leaves the trees apart or replaces the text at which they part. Blocks are merged at the same
time, so what merging does to the block that is already there is assumed. -/
theorem Diverged.store_of_merge {entries goal : Entries} (parted : Diverged weight entries goal) (name : String)
    (node : Node)
    (merge : ∀ more, node = .block more → ∀ {inner innerGoal : Entries}, Diverged weight inner innerGoal →
      Strays weight (mergeEntries inner more) innerGoal (weighEntries weight inner + weighEntries weight more)) :
    Strays weight (Entries.store entries name node) goal
      (weighEntries weight entries + (weight name + node.weigh weight)) := by
  rw [Entries.store]
  cases parted with
  | key first second differ heavy =>
    -- no key ever leaves its place
    refine .inl (.key ?_ second differ heavy)
    rw [Members.names_put]
    split
    · exact first
    · rw [List.getElem?_append_left (List.getElem?_eq_some_iff.mp first).1]
      exact first
  | @value _ _ place _ _ first second differ heavy =>
    by_cases same : name = place
    · subst same
      have replaced := weighEntries_put_found weight node first
      rw [Node.weigh_text] at replaced
      rw [first, Node.over_text]
      -- the value at which the trees part is replaced
      exact .inr (by omega)
    · refine .inl (.value ?_ second differ heavy)
      rw [Members.at?_put_of_ne _ _ same]
      exact first
  | @inside _ _ inner _ place first second below =>
    by_cases same : name = place
    · subst same
      cases node with
      | text written =>
        have replaced := weighEntries_put_found weight (.text written) first
        have lost := below.weigh_pos
        rw [Node.weigh_block] at replaced
        rw [first, Node.over]
        -- a value replaces the block that they part in
        exact .inr (by omega)
      | block more =>
        have replaced := weighEntries_put_found weight (.block (mergeEntries inner more)) first
        rw [Node.weigh_block, Node.weigh_block] at replaced
        rw [first, Node.over_block, Node.weigh_block]
        rcases merge more rfl below with still | lost
        · exact .inl (.inside (Members.at?_put_self _ _ _) second still)
        · exact .inr (by omega)
    · refine .inl (.inside ?_ second below)
      rw [Members.at?_put_of_ne _ _ same]
      exact first

/-- What storing one entry does, merging does with all of them. -/
theorem Strays.merge_cons {entries goal : Entries} {name : String} {node : Node} {rest : List (String × Node)}
    (stored : Strays weight (Entries.store entries name node) goal
      (weighEntries weight entries + (weight name + node.weigh weight)))
    (follow : ∀ {entries : Entries}, Diverged weight entries goal →
      Strays weight (mergeEntries entries rest) goal (weighEntries weight entries + weighEntries weight rest)) :
    Strays weight (mergeEntries entries ((name, node) :: rest)) goal
      (weighEntries weight entries + weighEntries weight ((name, node) :: rest)) := by
  have within := weighEntries_store_le weight entries name node
  have gain := weighEntries_mergeEntries_le weight (Entries.store entries name node) rest
  rw [mergeEntries, weighEntries_cons, ← Nat.add_assoc]
  exact stored.step within follow gain

theorem Diverged.merge : ∀ (incoming : List (String × Node)) {entries goal : Entries}, Diverged weight entries goal →
    Strays weight (mergeEntries entries incoming) goal (weighEntries weight entries + weighEntries weight incoming)
  | [], entries, goal, parted => by
    rw [mergeEntries]
    exact .inl parted
  | (name, .text written) :: rest, entries, goal, parted => by
    have stored := parted.store_of_merge name (.text written) (fun _ same => nomatch same)
    exact stored.merge_cons (Diverged.merge rest)
  | (name, .block more) :: rest, entries, goal, parted => by
    have stored := parted.store_of_merge name (.block more) (fun _ same => by cases same; exact Diverged.merge more)
    exact stored.merge_cons (Diverged.merge rest)

theorem Diverged.store {entries goal : Entries} (parted : Diverged weight entries goal) (name : String) (node : Node) :
    Strays weight (Entries.store entries name node) goal
      (weighEntries weight entries + (weight name + node.weigh weight)) :=
  parted.store_of_merge name node (fun more _ => Diverged.merge more)

/-- Storing an entry that repeats keys inside, where the stored node may be lighter than the written one. -/
theorem Strays.storeAll_cons {entries goal : Entries} {name : String} {node : Node} {rest : List (String × Node)}
    (stored : Strays weight (Entries.store entries name node.merged) goal
      (weighEntries weight entries + (weight name + node.weigh weight)))
    (follow : ∀ {entries : Entries}, Diverged weight entries goal →
      Strays weight (storeAll entries rest) goal (weighEntries weight entries + weighEntries weight rest)) :
    Strays weight (storeAll entries ((name, node) :: rest)) goal
      (weighEntries weight entries + weighEntries weight ((name, node) :: rest)) := by
  have merged := Node.weigh_merged_le weight node
  have within := weighEntries_store_le weight entries name node.merged
  have gain := weighEntries_storeAll_le weight (Entries.store entries name node.merged) rest
  rw [storeAll, weighEntries_cons, ← Nat.add_assoc]
  exact stored.step (by omega) follow gain

theorem Diverged.storeAll {entries goal : Entries} (parted : Diverged weight entries goal) (written : Entries) :
    Strays weight (storeAll entries written) goal (weighEntries weight entries + weighEntries weight written) := by
  induction written generalizing entries with
  | nil =>
    rw [KeyValues.storeAll]
    exact .inl parted
  | cons entry rest ih =>
    obtain ⟨name, node⟩ := entry
    have stored := parted.store name node.merged
    have merged := Node.weigh_merged_le weight node
    exact Strays.storeAll_cons (stored.mono (by omega)) ih

/-- Sequences of tokens that are the same up to a text of the first that weighs something. -/
inductive Part (weight : String → Nat) : List Token → List Token → Prop where
  | here {text other : String} {rest goal : List Token} : text ≠ other → 0 < weight text →
      Part weight (.text text :: rest) (.text other :: goal)
  | later {rest goal : List Token} (token : Token) : Part weight rest goal →
      Part weight (token :: rest) (token :: goal)

theorem Part.of_prefix {shared first second : List Token} {text other : String}
    (prefixes : (shared ++ [.text text]) <+: first) (goal : (shared ++ [.text other]) <+: second) (differ : text ≠ other)
    (heavy : 0 < weight text) : Part weight first second := by
  obtain ⟨rest, rfl⟩ := prefixes
  obtain ⟨more, rfl⟩ := goal
  induction shared with
  | nil => exact .here differ heavy
  | cons token shared ih => exact .later token ih

/-- Tokens after the last entry of a block. -/
def EndsEntries (after : List Token) : Prop :=
  ∀ text rest, after ≠ .text text :: rest

/-- A key other than that of the goal's next entry stays at its place, unless it is one of the keys before. -/
theorem strays_of_key {key other : String} (differ : key ≠ other) (heavy : 0 < weight key) (before goal : Entries)
    (node goalNode : Node) :
    Strays weight (Entries.store before key node) (before ++ (other, goalNode) :: goal)
      (weighEntries weight before + (weight key + node.weigh weight)) := by
  cases found : Members.at? before key with
  | none =>
    have fresh := (Members.at?_eq_none_iff before key).mp found
    rw [Entries.store_of_not_mem node fresh]
    have here : (Members.names (before ++ [(key, node)]))[before.length]? = some key := by simp [Members.names]
    have there : (Members.names (before ++ (other, goalNode) :: goal))[before.length]? = some other := by
      simp [Members.names]
    exact .inl (.key here there differ heavy)
  | some old =>
    -- the key is not named a second time, which loses its weight
    have replaced := weighEntries_put_found weight (node.over (some old)) found
    have bound := Node.weigh_over_le weight old node
    rw [Entries.store, found]
    exact .inr (by omega)

theorem strays_of_value {key value other : String} (differ : value ≠ other) (heavy : 0 < weight value)
    {before : Entries} (fresh : key ∉ Members.names before) (goal : Entries) (bound : Nat) :
    Strays weight (Entries.store before key (.text value)) (before ++ (key, .text other) :: goal) bound := by
  rw [Entries.store_of_not_mem _ fresh]
  exact .inl (.value (Members.at?_append_of_not_mem _ _ fresh) (Members.at?_append_of_not_mem _ _ fresh) differ heavy)

theorem Strays.block {before inner innerGoal goal : Entries} {key : String} {bound : Nat}
    (strays : Strays weight inner innerGoal bound) (fresh : key ∉ Members.names before) :
    Strays weight (Entries.store before key (.block inner)) (before ++ (key, .block innerGoal) :: goal)
      (weighEntries weight before + (weight key + bound)) := by
  rw [Entries.store_of_not_mem _ fresh]
  rcases strays with parted | lost
  · exact .inl (.inside (Members.at?_append_of_not_mem _ _ fresh) (Members.at?_append_of_not_mem _ _ fresh) parted)
  · rw [Strays, weighEntries_append, weighEntries_cons, weighEntries_nil, Node.weigh_block]
    exact .inr (by omega)

/-- An entry that is already as in the goal. -/
theorem Strays.after_same {before rest goal : Entries} {key : String} {node : Node}
    (settled : Settled (.block (before ++ (key, node) :: goal)))
    (strays : Strays weight (storeAll (before ++ [(key, node)]) rest) (before ++ [(key, node)] ++ goal)
      (weighEntries weight (before ++ [(key, node)]) + weighEntries weight rest)) :
    Strays weight (storeAll before ((key, node) :: rest)) (before ++ (key, node) :: goal)
      (weighEntries weight before + weighEntries weight ((key, node) :: rest)) := by
  have child : Settled node := settled.children (key, node) (List.mem_append_right _ List.mem_cons_self)
  rw [storeAll, child.merged_eq, Entries.store_of_not_mem node settled.fresh, List.append_cons before (key, node) goal]
  refine strays.mono ?_
  rw [weighEntries_append, weighEntries_cons, weighEntries_cons, weighEntries_nil]
  omega

theorem endsEntries_closing (rest : List Token) : EndsEntries (.closing :: rest) := by
  intro text more same
  cases same

mutual

theorem Part.strays_node : ∀ (node : Node) {goalNode : Node} {before goal : Entries} {key : String}
    {behind behindGoal : List Token}, Settled (.block (before ++ (key, goalNode) :: goal)) →
    Part weight (node.tokens ++ behind) (goalNode.tokens ++ behindGoal) →
    Strays weight (Entries.store before key node.merged) (before ++ (key, goalNode) :: goal)
      (weighEntries weight before + (weight key + node.weigh weight)) ∨
    node = goalNode ∧ Part weight behind behindGoal
  | .text value, .text other, before, goal, key, _, _, settled, part => by
    simp only [Node.tokens, List.cons_append, List.nil_append] at part
    cases part with
    | here differ heavy => exact .inl (strays_of_value differ heavy settled.fresh goal _)
    | later _ beyond => exact .inr ⟨rfl, beyond⟩
  | .text _, .block _, _, _, _, _, _, _, part => by
    simp only [Node.tokens, List.cons_append, List.nil_append] at part
    cases part
  | .block _, .text _, _, _, _, _, _, _, part => by
    simp only [Node.tokens, List.cons_append, List.nil_append] at part
    cases part
  | .block inner, .block innerGoal, before, goal, key, _, _, settled, part => by
    simp only [Node.tokens, List.cons_append, List.append_assoc, List.nil_append] at part
    have child : Settled (.block innerGoal) :=
      settled.children (key, .block innerGoal) (List.mem_append_right _ List.mem_cons_self)
    cases part with
    | later _ inside =>
      -- behind the inner entries both sides go on with a closing brace
      rcases Part.strays inner [] child (endsEntries_closing _) (endsEntries_closing _) inside with
        strays | ⟨rfl, atClosing⟩
      · rw [List.nil_append, weighEntries_nil, Nat.zero_add, ← Node.weigh_block] at strays
        exact .inl (strays.block settled.fresh)
      · cases atClosing with
        | later _ beyond => exact .inr ⟨rfl, beyond⟩

/-- Where the tokens of a tree part from those of a settled goal, merging the tree does not lead to the goal without a
loss of weight. -/
theorem Part.strays : ∀ (written : List (String × Node)) (before : Entries) {goal : Entries}
    {behind behindGoal : List Token}, Settled (.block (before ++ goal)) → EndsEntries behind → EndsEntries behindGoal →
    Part weight (tokensOf written ++ behind) (tokensOf goal ++ behindGoal) →
    Strays weight (storeAll before written) (before ++ goal) (weighEntries weight before + weighEntries weight written) ∨
    written = goal ∧ Part weight behind behindGoal
  | [], before, [], _, _, _, _, _, part => .inr ⟨rfl, part⟩
  | [], before, (key, node) :: goal, _, _, _, ends, _, part => by
    simp only [tokensOf, List.nil_append, List.cons_append] at part
    cases part with
    | here => exact absurd rfl (ends _ _)
    | later => exact absurd rfl (ends _ _)
  | (key, node) :: rest, before, [], _, _, _, _, ends, part => by
    simp only [tokensOf, List.nil_append, List.cons_append] at part
    cases part with
    | here => exact absurd rfl (ends _ _)
    | later => exact absurd rfl (ends _ _)
  | (key, node) :: rest, before, (other, goalNode) :: goal, behind, behindGoal, settled, ends, endsGoal, part => by
    simp only [tokensOf, List.cons_append, List.append_assoc] at part
    cases part with
    | here differ heavy =>
      have stored := strays_of_key differ heavy before goal node.merged goalNode
      have merged := Node.weigh_merged_le weight node
      exact .inl (Strays.storeAll_cons (stored.mono (by omega)) fun parted => parted.storeAll rest)
    | later _ afterKey =>
      rcases Part.strays_node node settled afterKey with stored | ⟨rfl, afterEntry⟩
      · exact .inl (Strays.storeAll_cons stored fun parted => parted.storeAll rest)
      · -- the entry is the goal's, so the tokens part further on
        have further := settled
        rw [List.append_cons] at further
        rcases Part.strays rest _ further ends endsGoal afterEntry with strays | ⟨rfl, beyond⟩
        · exact .inl (strays.after_same settled)
        · exact .inr ⟨rfl, beyond⟩

end

theorem Part.storeAll_ne {written goal : Entries} (part : Part weight (tokensOf written) (tokensOf goal))
    (settled : Settled (.block goal)) (least : weighEntries weight written ≤ weighEntries weight goal) :
    storeAll [] written ≠ goal := by
  have ends : EndsEntries [] := fun _ _ same => by cases same
  rw [← List.append_nil (tokensOf written), ← List.append_nil (tokensOf goal)] at part
  rcases part.strays written [] settled ends ends with strays | ⟨_, beyond⟩
  · rw [weighEntries_nil, Nat.zero_add] at strays
    exact strays.ne least
  · cases beyond

end Compendium.KeyValues
