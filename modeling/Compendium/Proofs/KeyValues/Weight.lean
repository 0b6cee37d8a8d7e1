import Compendium.Proofs.KeyValues.Merging

/-! Texts by weight. Merging loses weight where it replaces a value or names a key again, and never gains any. -/

set_option autoImplicit false
namespace Compendium.KeyValues

section
variable (weight : String → Nat)

def Token.weigh : Token → Nat
  | .text value => weight value
  | _ => 0

/-- The weight of all texts among the tokens. -/
def weigh : List Token → Nat
  | [] => 0
  | token :: rest => token.weigh weight + weigh rest

def Node.weigh (node : Node) : Nat :=
  KeyValues.weigh weight node.tokens

def weighEntries (entries : List (String × Node)) : Nat :=
  weigh weight (tokensOf entries)

theorem weigh_append (first second : List Token) :
    weigh weight (first ++ second) = weigh weight first + weigh weight second := by
  induction first with
  | nil => simp [weigh]
  | cons token rest ih =>
    rw [List.cons_append, weigh, weigh, ih, Nat.add_assoc]

theorem le_weigh_of_mem {tokens : List Token} {text : String} (member : .text text ∈ tokens) :
    weight text ≤ weigh weight tokens := by
  obtain ⟨before, after, rfl⟩ := List.append_of_mem member
  rw [List.append_cons, weigh_append, weigh_append]
  have here : weigh weight [.text text] = weight text := by simp [weigh, Token.weigh]
  omega

theorem exists_mem_of_weigh_pos {tokens : List Token} (positive : 0 < weigh weight tokens) :
    ∃ text, .text text ∈ tokens ∧ 0 < weight text := by
  induction tokens with
  | nil => cases positive
  | cons token rest ih =>
    by_cases later : 0 < weigh weight rest
    · obtain ⟨text, member, heavy⟩ := ih later
      exact ⟨text, List.mem_cons_of_mem _ member, heavy⟩
    · have here : 0 < token.weigh weight := by
        rw [weigh] at positive
        omega
      cases token with
      | text value => exact ⟨value, List.mem_cons_self, here⟩
      | opening => cases here
      | closing => cases here

theorem Node.weigh_text (value : String) : (Node.text value).weigh weight = weight value := by
  simp [weigh, tokens, KeyValues.weigh, Token.weigh]

theorem Node.weigh_block (entries : Entries) : (Node.block entries).weigh weight = weighEntries weight entries := by
  simp [weigh, tokens, KeyValues.weigh, Token.weigh, weighEntries, weigh_append]

theorem weighEntries_nil : weighEntries weight [] = 0 := by
  rw [weighEntries, tokensOf]
  rfl

theorem weighEntries_cons (key : String) (node : Node) (rest : Entries) :
    weighEntries weight ((key, node) :: rest) = weight key + node.weigh weight + weighEntries weight rest := by
  rw [weighEntries, tokensOf, ← List.cons_append, weigh_append]
  rfl

theorem weighEntries_append (first second : Entries) :
    weighEntries weight (first ++ second) = weighEntries weight first + weighEntries weight second := by
  induction first with
  | nil => rw [List.nil_append, weighEntries_nil, Nat.zero_add]
  | cons entry rest ih =>
    obtain ⟨key, node⟩ := entry
    rw [List.cons_append, weighEntries_cons, weighEntries_cons, ih]
    omega

theorem weighEntries_put_fresh (entries : Entries) {key : String} (new : Node)
    (fresh : key ∉ Members.names entries) :
    weighEntries weight (Members.put entries key new) = weighEntries weight entries + (weight key + new.weigh weight) := by
  rw [Members.put_of_not_mem entries new fresh, weighEntries_append, weighEntries_cons, weighEntries_nil]
  omega

/-- A node that is replaced takes its weight with it. -/
theorem weighEntries_put_found {entries : Entries} {key : String} {old : Node} (new : Node)
    (found : Members.at? entries key = some old) :
    weighEntries weight (Members.put entries key new) + old.weigh weight =
      weighEntries weight entries + new.weigh weight := by
  induction entries with
  | nil => cases found
  | cons entry rest ih =>
    obtain ⟨name, node⟩ := entry
    rw [Members.at?] at found
    rw [Members.put]
    split
    · next same =>
      rw [if_pos same, Option.some.injEq] at found
      rw [weighEntries_cons, weighEntries_cons, found]
      omega
    · next other =>
      rw [if_neg other] at found
      have later := ih found
      rw [weighEntries_cons, weighEntries_cons]
      omega

theorem weigh_le_of_at? {entries : Entries} {key : String} {node : Node}
    (found : Members.at? entries key = some node) :
    weight key + node.weigh weight ≤ weighEntries weight entries := by
  induction entries with
  | nil => cases found
  | cons entry rest ih =>
    obtain ⟨name, first⟩ := entry
    rw [Members.at?] at found
    rw [weighEntries_cons]
    split at found
    · next same =>
      rw [Option.some.injEq] at found
      rw [same, found]
      omega
    · have later := ih found
      omega

theorem weighEntries_store_of_over {node : Node}
    (replacing : ∀ old, (node.over (some old)).weigh weight ≤ old.weigh weight + node.weigh weight)
    (entries : Entries) (key : String) : weighEntries weight (Entries.store entries key node) ≤
      weighEntries weight entries + (weight key + node.weigh weight) := by
  rw [Entries.store]
  cases found : Members.at? entries key with
  | none =>
    have fresh := (Members.at?_eq_none_iff entries key).mp found
    rw [Node.over_none]
    exact Nat.le_of_eq (weighEntries_put_fresh weight entries node fresh)
  | some old =>
    have replaced := weighEntries_put_found weight (node.over (some old)) found
    have bound := replacing old
    omega

mutual

theorem Node.weigh_over_le (old : Node) : ∀ node : Node,
    (node.over (some old)).weigh weight ≤ old.weigh weight + node.weigh weight
  | .text value => by
    rw [Node.over]
    omega
  | .block incoming => by
    cases old with
    | text value =>
      rw [Node.over_text]
      omega
    | block target =>
      rw [Node.over_block, Node.weigh_block, Node.weigh_block, Node.weigh_block]
      exact weighEntries_mergeEntries_le target incoming

theorem weighEntries_mergeEntries_le (target : Entries) : ∀ incoming : List (String × Node),
    weighEntries weight (mergeEntries target incoming) ≤ weighEntries weight target + weighEntries weight incoming
  | [] => by
    rw [mergeEntries]
    omega
  | (key, node) :: rest => by
    have stored := weighEntries_store_of_over weight (fun old => Node.weigh_over_le old node) target key
    have later := weighEntries_mergeEntries_le (Entries.store target key node) rest
    rw [mergeEntries, weighEntries_cons]
    rw [Entries.store] at stored later
    omega

end

theorem weighEntries_store_le (entries : Entries) (key : String) (node : Node) :
    weighEntries weight (Entries.store entries key node) ≤
      weighEntries weight entries + (weight key + node.weigh weight) :=
  weighEntries_store_of_over weight (fun old => Node.weigh_over_le weight old node) entries key

mutual

theorem Node.weigh_merged_le : ∀ node : Node, node.merged.weigh weight ≤ node.weigh weight
  | .text value => Nat.le_of_eq (by rw [Node.merged])
  | .block written => by
    have inner := weighEntries_storeAll_le [] written
    rw [weighEntries_nil] at inner
    rw [Node.merged, Node.weigh_block, Node.weigh_block]
    omega

theorem weighEntries_storeAll_le (entries : Entries) : ∀ written : List (String × Node),
    weighEntries weight (storeAll entries written) ≤ weighEntries weight entries + weighEntries weight written
  | [] => by
    rw [storeAll]
    omega
  | (key, node) :: rest => by
    have merged := Node.weigh_merged_le node
    have stored := weighEntries_store_le weight entries key node.merged
    have later := weighEntries_storeAll_le (Entries.store entries key node.merged) rest
    rw [storeAll, weighEntries_cons]
    omega

end

end

/-- Merging brings no text in that was not there. -/
theorem mem_tokensOf_storeAll {written : Entries} {text : String}
    (member : .text text ∈ tokensOf (storeAll [] written)) : .text text ∈ tokensOf written := by
  -- a weight that only this text has
  let only : String → Nat := fun other => if other = text then 1 else 0
  have heavy : only text = 1 := if_pos rfl
  have kept := le_weigh_of_mem only member
  have bound := weighEntries_storeAll_le only [] written
  rw [weighEntries_nil, weighEntries, weighEntries] at bound
  have positive : 0 < weigh only (tokensOf written) := by omega
  obtain ⟨other, found, weighs⟩ := exists_mem_of_weigh_pos only positive
  by_cases same : other = text
  · exact same ▸ found
  · have light : only other = 0 := if_neg same
    omega

end Compendium.KeyValues
