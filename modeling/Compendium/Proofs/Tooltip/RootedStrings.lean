import Compendium.Proofs.KeyValues.Root
import Compendium.Proofs.Text.LetterCase
import Compendium.Tooltip.StringTable

/-! The strings of a block text, read from the whole document or from its root. The one keeps the wrapper and the letter case of
its keys, the other has lost both, and the same table of tokens is found. -/

set_option autoImplicit false
namespace Compendium

section
variable {block root : Members Document} (lowered : Lowered block root)
include lowered

/-- Keys that stay apart in lower case are all found again in the root. -/
theorem Lowered.at?_eq_some_iff (distinct : ((Members.names block).map Text.lower).Nodup) (key : String) (value : Document) :
    Members.at? root key = some value ↔ ∃ name, Members.at? block name = some value ∧ Text.lower name = key := by
  have apart : block.Pairwise fun first second => Text.lower first.1 ≠ Text.lower second.1 := by
    rw [Members.names, List.map_map] at distinct
    exact List.pairwise_map.mp distinct
  have once : block.Pairwise fun first second => ¬ (Text.lower first.1 = key ∧ Text.lower second.1 = key) :=
    apart.imp fun differ both => differ (both.1.trans both.2.symm)
  simp only [lowered.at?, isLast_iff_mem once, Members.at?_eq_some_iff (distinct.of_map _)]

theorem Lowered.at?_eq_none_of_isCapital {key : String} (capital : ∃ c ∈ key.toList, Text.IsCapital c.toNat) :
    Members.at? root key = none := by
  obtain ⟨c, member, capital⟩ := capital
  rw [Members.at?_eq_none_iff, lowered.names, List.mem_eraseDups]
  intro listed
  obtain ⟨name, -, rfl⟩ := List.mem_map.mp listed
  exact Text.not_mem_lower_of_isCapital capital name member

/-- What is found under one of two spellings is found under the one in small letters. -/
theorem Lowered.at?_of_eitherMember? (distinct : ((Members.names block).map Text.lower).Nodup) {capital small : String}
    (spelled : Text.lower capital = small ∧ Text.lower small = small) {value : Document}
    (found : StringTable.eitherMember? (.table block) capital small = some value) : Members.at? root small = some value := by
  rw [lowered.at?_eq_some_iff distinct]
  rcases Option.or_eq_some_iff.mp found with first | ⟨-, second⟩
  · exact ⟨capital, first, spelled.1⟩
  · exact ⟨small, second, spelled.2⟩

end

namespace StringTable

/-- The part of a resource that has its tokens. -/
def unwrapped (document : Document) : Document :=
  (eitherMember? document "lang" "Lang").getD document

/-- The tokens of a resource, with those that have no text. -/
def tokenMembers? (document : Document) : Option (Members Document) :=
  (eitherMember? (unwrapped document) "Tokens" "tokens").bind Document.members?

def textsOf (members : Members Document) : Members String :=
  Members.ofPairs (members.filterMap fun entry => entry.2.text?.map fun text => (entry.1, text))

theorem eitherMember?_table (members : Members Document) (first second : String) :
    eitherMember? (.table members) first second = (Members.at? members first).or (Members.at? members second) :=
  rfl

theorem ofDocument_of_tokenMembers? {document : Document} {members : Members Document}
    (found : tokenMembers? document = some members) : ∃ language, ofDocument document = .ok ⟨textsOf members, language⟩ := by
  rw [tokenMembers?, unwrapped] at found
  simp only [ofDocument, found]
  exact ⟨_, rfl⟩

theorem exists_tokenMembers? {document : Document} {table : StringTable} (read : ofDocument document = .ok table) :
    ∃ members, tokenMembers? document = some members ∧ table.tokens = textsOf members := by
  cases found : tokenMembers? document with
  | none =>
    rw [tokenMembers?, unwrapped] at found
    simp only [ofDocument, found] at read
    cases read
  | some members =>
    obtain ⟨language, same⟩ := ofDocument_of_tokenMembers? found
    rw [same] at read
    obtain rfl := Except.ok.inj read
    exact ⟨members, rfl, rfl⟩

theorem unwrapped_wrapper {name : String} (wrapper : name = "lang" ∨ name = "Lang") (inner : Document) :
    unwrapped (.table [(name, inner)]) = inner := by
  rcases wrapper with rfl | rfl <;> rfl

section
variable {block root : Members Document} (lowered : Lowered block root)
include lowered

/-- The root is no wrapper itself: none of its keys is `lang`, and none has a capital letter. -/
theorem unwrapped_root (unnested : "lang" ∉ (Members.names block).map Text.lower) :
    unwrapped (.table root) = .table root := by
  have small : Members.at? root "lang" = none := by
    rwa [Members.at?_eq_none_iff, lowered.names, List.mem_eraseDups]
  have great : Members.at? root "Lang" = none := lowered.at?_eq_none_of_isCapital ⟨'L', by decide, by decide⟩
  rw [unwrapped, eitherMember?_table, small, great]
  rfl

/-- The tokens that a wrapper has are those of the root behind it. -/
theorem tokenMembers?_root {name : String} {members : Members Document} (wrapper : name = "lang" ∨ name = "Lang")
    (distinct : ((Members.names block).map Text.lower).Nodup) (unnested : "lang" ∉ (Members.names block).map Text.lower)
    (found : tokenMembers? (.table [(name, .table block)]) = some members) : tokenMembers? (.table root) = some members := by
  rw [tokenMembers?, unwrapped_wrapper wrapper] at found
  obtain ⟨value, under, table⟩ := Option.bind_eq_some_iff.mp found
  have small := lowered.at?_of_eitherMember? distinct (by decide +kernel) under
  have great : Members.at? root "Tokens" = none := lowered.at?_eq_none_of_isCapital ⟨'T', by decide, by decide⟩
  rw [tokenMembers?, unwrapped_root lowered unnested, eitherMember?_table, great, small]
  exact table

end

/-- Read from its root, a resource has the strings that it has as a whole. -/
theorem ofRootedText_agrees {text name : String} {block : Members Document} {table : StringTable}
    (single : Resource.ofBlockText text = .ok (.table [(name, .table block)])) (wrapper : name = "lang" ∨ name = "Lang")
    (distinct : ((Members.names block).map Text.lower).Nodup) (unnested : "lang" ∉ (Members.names block).map Text.lower)
    (accepted : ofBlockText text = .ok table) :
    ∃ root rooted, Resource.ofRootedText text = .ok root ∧ ofDocument root = .ok rooted ∧ rooted.tokens = table.tokens := by
  have whole : ofDocument (.table [(name, .table block)]) = .ok table := by
    rwa [ofBlockText, single] at accepted
  obtain ⟨members, found, tokens⟩ := exists_tokenMembers? whole
  obtain ⟨entries, read, same⟩ := (Resource.ofBlockText_eq_ok_iff _ _).mp single
  rcases Resource.ofRootedText_cases read with ⟨hidden, -⟩ | ⟨key, first, after, root, starts, rooted, lowered⟩
  · exact absurd ⟨name, block, [], Document.table.inj same⟩ hidden
  obtain ⟨entry, -⟩ := List.cons.inj (starts.symm.trans (Document.table.inj same))
  obtain rfl : first = block := Document.table.inj (Prod.mk.inj entry).2
  have kept := tokenMembers?_root lowered wrapper distinct unnested found
  obtain ⟨language, again⟩ := ofDocument_of_tokenMembers? kept
  exact ⟨_, _, rooted, again, tokens.symm⟩

/-- A token written twice, one that is a block, and a key that only the root has in small letters. -/
theorem ofRootedText_agrees_twice : ∃ text root rooted,
    text = "Lang \x7b LANGUAGE English Tokens \x7b a Alpha sub \x7b b c \x7d a Beta \x7d \x7d" ∧
      ofBlockText text = .ok ⟨[("a", "Beta")], ""⟩ ∧ Resource.ofRootedText text = .ok root ∧
      ofDocument root = .ok rooted ∧ rooted.tokens = [("a", "Beta")] := by
  generalize same : "Lang \x7b LANGUAGE English Tokens \x7b a Alpha sub \x7b b c \x7d a Beta \x7d \x7d" = text
  let block : Members Document :=
    [("LANGUAGE", .text "English"), ("Tokens", .table [("a", .text "Beta"), ("sub", .table [("b", .text "c")])])]
  have single : Resource.ofBlockText text = .ok (.table [("Lang", .table block)]) := by
    subst same
    cbv
  have accepted : ofBlockText text = .ok ⟨[("a", "Beta")], ""⟩ := by
    rw [ofBlockText, single]
    rfl
  have distinct : ((Members.names block).map Text.lower).Nodup := by decide +kernel
  have unnested : "lang" ∉ (Members.names block).map Text.lower := by decide +kernel
  obtain ⟨root, rooted, read, again, tokens⟩ := ofRootedText_agrees single (.inr rfl) distinct unnested accepted
  exact ⟨text, root, rooted, rfl, accepted, read, again, tokens⟩

end StringTable
end Compendium
