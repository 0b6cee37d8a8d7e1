import Compendium.Document.Basic
import Compendium.Proofs.Document.Names
import Mathlib.Data.List.Nodup

/-! Members as they are found, and as they are written one after the other. Of the values written under a name, the
last one is found. -/

set_option autoImplicit false
namespace Compendium

/-- The last entry of a list with a property. -/
def IsLast {α : Type} (P : α → Prop) (entries : List α) (entry : α) : Prop :=
  ∃ before after, entries = before ++ entry :: after ∧ P entry ∧ ∀ later ∈ after, ¬ P later

theorem IsLast.congr {α : Type} {P Q : α → Prop} {entries : List α} {entry : α} (last : IsLast P entries entry)
    (same : ∀ entry, P entry ↔ Q entry) : IsLast Q entries entry := by
  have eq : P = Q := funext fun entry => propext (same entry)
  exact eq ▸ last

theorem IsLast.mem {α : Type} {P : α → Prop} {entries : List α} {entry : α} (last : IsLast P entries entry) :
    entry ∈ entries := by
  obtain ⟨before, after, rfl, -⟩ := last
  simp

theorem IsLast.holds {α : Type} {P : α → Prop} {entries : List α} {entry : α} (last : IsLast P entries entry) :
    P entry := by
  obtain ⟨before, after, -, holds, -⟩ := last
  exact holds

theorem IsLast.unique {α : Type} {P : α → Prop} {entries : List α} {first second : α} (left : IsLast P entries first)
    (right : IsLast P entries second) : first = second := by
  obtain ⟨before, after, rfl, holds, silent⟩ := left
  obtain ⟨other, later, split, also, quiet⟩ := right
  -- the one that stood before the other would be followed by an entry with the property
  rcases List.append_eq_append_iff.mp split with ⟨middle, -, tail⟩ | ⟨middle, -, tail⟩
  · cases middle with
    | nil => exact (List.cons.inj tail).1
    | cons head rest =>
      obtain ⟨-, rfl⟩ := List.cons.inj tail
      exact absurd also (silent second (by simp))
  · cases middle with
    | nil => exact (List.cons.inj tail).1.symm
    | cons head rest =>
      obtain ⟨-, rfl⟩ := List.cons.inj tail
      exact absurd holds (quiet first (by simp))

/-- The first entry of a list with a property. -/
def IsFirst {α : Type} (P : α → Prop) (entries : List α) (entry : α) : Prop :=
  ∃ before after, entries = before ++ entry :: after ∧ P entry ∧ ∀ earlier ∈ before, ¬ P earlier

theorem IsFirst.mem {α : Type} {P : α → Prop} {entries : List α} {entry : α} (first : IsFirst P entries entry) :
    entry ∈ entries := by
  obtain ⟨before, after, rfl, -⟩ := first
  simp

theorem IsFirst.holds {α : Type} {P : α → Prop} {entries : List α} {entry : α} (first : IsFirst P entries entry) :
    P entry := by
  obtain ⟨before, after, -, holds, -⟩ := first
  exact holds

theorem findSome?_eq_some_iff_isFirst {α β : Type} {f : α → Option β} {entries : List α} {value : β} :
    entries.findSome? f = some value ↔
      ∃ entry, IsFirst (fun entry => (f entry).isSome = true) entries entry ∧ f entry = some value := by
  rw [List.findSome?_eq_some_iff]
  constructor
  · rintro ⟨before, entry, after, split, here, silent⟩
    exact ⟨entry, ⟨before, after, split, by simp [here], fun earlier member => by simp [silent earlier member]⟩, here⟩
  · rintro ⟨entry, ⟨before, after, split, -, silent⟩, here⟩
    exact ⟨before, entry, after, split, here, fun earlier member => by simpa using silent earlier member⟩

theorem findSome?_flatMap {α β γ : Type} (make : α → List β) (f : β → Option γ) (entries : List α) :
    (entries.flatMap make).findSome? f = entries.findSome? fun entry => (make entry).findSome? f := by
  induction entries with
  | nil => rfl
  | cons entry rest ih =>
    rw [List.flatMap_cons, List.findSome?_append, ih, List.findSome?_cons]
    cases (make entry).findSome? f <;> rfl

theorem findSome?_toList {α β : Type} (f : α → Option β) (entry : Option α) :
    entry.toList.findSome? f = entry.bind f := by
  cases entry with
  | none => rfl
  | some value =>
    rw [Option.toList_some, List.findSome?_singleton]
    rfl

theorem find?_eq_some_iff_isFirst {α : Type} {p : α → Bool} {entries : List α} {entry : α} :
    entries.find? p = some entry ↔ IsFirst (fun entry => p entry = true) entries entry := by
  rw [List.find?_eq_some_iff_append]
  constructor
  · rintro ⟨holds, before, after, split, silent⟩
    exact ⟨before, after, split, holds, fun earlier member => by simpa using silent earlier member⟩
  · rintro ⟨before, after, split, holds, silent⟩
    exact ⟨holds, before, after, split, fun earlier member => by simpa using silent earlier member⟩

theorem isFirst_reverse_iff {α : Type} {P : α → Prop} {entries : List α} {entry : α} :
    IsFirst P entries.reverse entry ↔ IsLast P entries entry := by
  constructor
  · rintro ⟨before, after, split, holds, silent⟩
    refine ⟨after.reverse, before.reverse, ?_, holds, ?_⟩
    · simpa using congrArg List.reverse split
    · intro later member
      exact silent later (List.mem_reverse.mp member)
  · rintro ⟨before, after, rfl, holds, silent⟩
    refine ⟨after.reverse, before.reverse, by simp, holds, ?_⟩
    intro earlier member
    exact silent earlier (List.mem_reverse.mp member)

theorem IsFirst.unique {α : Type} {P : α → Prop} {entries : List α} {first second : α} (left : IsFirst P entries first)
    (right : IsFirst P entries second) : first = second := by
  rw [← List.reverse_reverse entries, isFirst_reverse_iff] at left right
  exact left.unique right

/-- What is found from the end is the value of the last entry that has one. -/
theorem findSome?_reverse_eq_some_iff {α β : Type} {f : α → Option β} {entries : List α} {value : β} :
    entries.reverse.findSome? f = some value ↔
      ∃ entry, IsLast (fun entry => (f entry).isSome = true) entries entry ∧ f entry = some value := by
  simp only [findSome?_eq_some_iff_isFirst, isFirst_reverse_iff]

/-- Of entries with a property that no two of them have, the one that has it is the last one. -/
theorem isLast_iff_mem {α : Type} {P : α → Prop} {entries : List α} {entry : α}
    (once : entries.Pairwise fun first second => ¬ (P first ∧ P second)) : IsLast P entries entry ↔ entry ∈ entries ∧ P entry := by
  constructor
  · intro last
    exact ⟨last.mem, last.holds⟩
  · rintro ⟨member, holds⟩
    obtain ⟨before, after, rfl⟩ := List.append_of_mem member
    have behind := (List.pairwise_cons.mp (List.pairwise_append.mp once).2.1).1
    exact ⟨before, after, rfl, holds, fun later inside also => behind later inside ⟨holds, also⟩⟩

theorem IsLast.map_iff {α β : Type} (f : α → β) (P : β → Prop) (entries : List α) (value : β) :
    IsLast P (entries.map f) value ↔ ∃ entry, IsLast (fun entry => P (f entry)) entries entry ∧ f entry = value := by
  constructor
  · rintro ⟨before, after, split, holds, silent⟩
    obtain ⟨earlier, rest, rfl, rfl, last⟩ := List.map_eq_append_iff.mp split
    obtain ⟨entry, later, rfl, rfl, rfl⟩ := List.map_eq_cons_iff.mp last
    exact ⟨entry, ⟨earlier, later, rfl, holds, fun entry member => silent (f entry) (List.mem_map_of_mem member)⟩, rfl⟩
  · rintro ⟨entry, ⟨before, after, rfl, holds, silent⟩, rfl⟩
    refine ⟨before.map f, after.map f, by simp, holds, ?_⟩
    intro value member
    obtain ⟨later, behind, rfl⟩ := List.mem_map.mp member
    exact silent later behind

namespace Members

variable {α : Type}

theorem mem_of_at? {members : Members α} {key : String} {value : α} (found : at? members key = some value) :
    (key, value) ∈ members := by
  induction members with
  | nil => cases found
  | cons entry rest ih =>
    obtain ⟨name, other⟩ := entry
    rw [at?] at found
    split at found
    · next same =>
      cases found
      exact same ▸ List.mem_cons_self
    · exact List.mem_cons_of_mem _ (ih found)

theorem mem_names_of_at? {members : Members α} {key : String} {value : α} (found : at? members key = some value) :
    key ∈ names members :=
  List.mem_map_of_mem (mem_of_at? found)

theorem at?_eq_none_iff (members : Members α) (key : String) : at? members key = none ↔ key ∉ names members := by
  induction members with
  | nil => simp [at?, names]
  | cons entry rest ih =>
    obtain ⟨name, other⟩ := entry
    by_cases same : name = key
    · simp [at?, names, same]
    · have other : ¬ key = name := fun e => same e.symm
      simp only [names] at ih
      simp [at?, names, same, other, ih]

theorem put_of_not_mem (members : Members α) {key : String} (new : α) (fresh : key ∉ names members) :
    put members key new = members ++ [(key, new)] := by
  induction members with
  | nil => rfl
  | cons entry rest ih =>
    obtain ⟨name, other⟩ := entry
    rw [names, List.map_cons, List.mem_cons, not_or] at fresh
    rw [put, if_neg (Ne.symm fresh.1), ih fresh.2, List.cons_append]

theorem at?_append_of_not_mem {members : Members α} {key : String} (value : α) (rest : Members α)
    (fresh : key ∉ names members) : at? (members ++ (key, value) :: rest) key = some value := by
  induction members with
  | nil => simp [at?]
  | cons entry more ih =>
    obtain ⟨name, other⟩ := entry
    rw [names, List.map_cons, List.mem_cons, not_or] at fresh
    rw [List.cons_append, at?, if_neg (Ne.symm fresh.1), ih fresh.2]

theorem mem_put {members : Members α} {key : String} {new : α} {entry : String × α}
    (member : entry ∈ put members key new) : entry ∈ members ∨ entry = (key, new) := by
  induction members with
  | nil => exact .inr (List.mem_singleton.mp member)
  | cons head rest ih =>
    obtain ⟨name, other⟩ := head
    rw [put] at member
    split at member
    · next same =>
      rcases List.mem_cons.mp member with rfl | later
      · exact .inr (by rw [same])
      · exact .inl (List.mem_cons_of_mem _ later)
    · rcases List.mem_cons.mp member with rfl | later
      · exact .inl List.mem_cons_self
      · exact (ih later).imp_left (List.mem_cons_of_mem _)

theorem at?_map_filter {β γ : Type} (keep : γ → Bool) (key : γ → String) (made : γ → β) (entries : List γ)
    (name : String) : at? ((entries.filter keep).map fun entry => (key entry, made entry)) name =
      entries.findSome? fun entry => if keep entry = true ∧ key entry = name then some (made entry) else none := by
  induction entries with
  | nil => rfl
  | cons entry rest ih =>
    rw [List.filter_cons, List.findSome?_cons]
    cases keep entry with
    | false => simp [ih]
    | true =>
      by_cases same : key entry = name
      · simp [at?, same]
      · simp [at?, same, ih]

theorem at?_append (first second : Members α) (key : String) :
    at? (first ++ second) key = (at? first key).or (at? second key) := by
  induction first with
  | nil => rfl
  | cons entry rest ih =>
    obtain ⟨name, value⟩ := entry
    by_cases same : name = key
    · simp [at?, same]
    · simp [at?, same, ih]

theorem at?_eq_some_iff {members : Members α} (distinct : Distinct members) {key : String} {value : α} :
    at? members key = some value ↔ (key, value) ∈ members := by
  constructor
  · exact mem_of_at?
  · intro member
    obtain ⟨before, after, rfl⟩ := List.append_of_mem member
    apply at?_append_of_not_mem
    rw [Distinct, names, List.map_append, List.nodup_append] at distinct
    intro earlier
    exact distinct.2.2 key earlier key (by simp) rfl

theorem distinct_reverse {members : Members α} (distinct : Distinct members) : Distinct members.reverse := by
  rw [Distinct, names, List.map_reverse]
  exact (List.reverse_perm _).nodup_iff.mpr distinct

theorem at?_reverse {members : Members α} (distinct : Distinct members) (key : String) :
    at? members.reverse key = at? members key := by
  apply Option.ext
  intro value
  rw [at?_eq_some_iff distinct, at?_eq_some_iff (distinct_reverse distinct), List.mem_reverse]

theorem at?_putAll (members : Members α) (pairs : List (String × α)) (key : String) :
    at? (putAll members pairs) key = (at? pairs.reverse key).or (at? members key) := by
  induction pairs generalizing members with
  | nil => rfl
  | cons pair rest ih =>
    obtain ⟨name, value⟩ := pair
    rw [putAll, List.foldl_cons, ← putAll, ih, at?_put, List.reverse_cons, at?_append]
    by_cases same : name = key
    · simp [at?, same]
    · simp [at?, same]

theorem at?_eq_find? (members : Members α) (key : String) :
    at? members key = (members.find? fun entry => entry.1 == key).map Prod.snd := by
  induction members with
  | nil => rfl
  | cons entry rest ih =>
    obtain ⟨name, value⟩ := entry
    by_cases same : name = key
    · simp [at?, same]
    · simp [at?, same, ih]

/-- What is found under a name is the first value under it. -/
theorem at?_eq_some_iff_isFirst (members : Members α) (key : String) (value : α) :
    at? members key = some value ↔ IsFirst (fun member => member.1 = key) members (key, value) := by
  simp only [at?_eq_find?, Option.map_eq_some_iff, find?_eq_some_iff_isFirst, beq_iff_eq]
  constructor
  · rintro ⟨⟨name, other⟩, first, rfl⟩
    obtain rfl : name = key := first.holds
    exact first
  · intro first
    exact ⟨(key, value), first, rfl⟩

theorem at?_reverse_eq_some_iff (pairs : List (String × α)) (key : String) (value : α) :
    at? pairs.reverse key = some value ↔ IsLast (fun pair => pair.1 = key) pairs (key, value) := by
  rw [at?_eq_some_iff_isFirst, isFirst_reverse_iff]

theorem at?_ofPairs_eq_some_iff (pairs : List (String × α)) (key : String) (value : α) :
    at? (ofPairs pairs) key = some value ↔ IsLast (fun pair => pair.1 = key) pairs (key, value) := by
  rw [ofPairs, at?_putAll, at?, Option.or_none, at?_reverse_eq_some_iff]

theorem at?_ofPairs (pairs : List (String × α)) (key : String) :
    at? (ofPairs pairs) key = ((pairs.filter fun pair => pair.1 == key).getLast?).map Prod.snd := by
  rw [ofPairs, at?_putAll, at?, Option.or_none, at?_eq_find?, List.getLast?_filter]

theorem mem_names_putAll (members : Members α) (pairs : List (String × α)) (key : String) :
    key ∈ names (putAll members pairs) ↔ key ∈ names members ∨ key ∈ names pairs := by
  have absent := at?_eq_none_iff (putAll members pairs) key
  rw [at?_putAll, Option.or_eq_none_iff, at?_eq_none_iff, at?_eq_none_iff, names, List.map_reverse, List.mem_reverse] at absent
  rw [← not_iff_not, ← absent, not_or]
  exact and_comm

/-- Writing what stands there already changes nothing. -/
theorem put_of_at? {members : Members α} {key : String} {value : α} (found : at? members key = some value) :
    put members key value = members := by
  induction members with
  | nil => cases found
  | cons entry rest ih =>
    obtain ⟨name, other⟩ := entry
    rw [at?] at found
    rw [put]
    split at found
    · next same =>
      rw [if_pos same, Option.some.inj found]
    · next differ =>
      rw [if_neg differ, ih found]

theorem putAll_of_at? {members : Members α} {pairs : List (String × α)}
    (known : ∀ pair ∈ pairs, at? members pair.1 = some pair.2) : putAll members pairs = members := by
  induction pairs with
  | nil => rfl
  | cons pair rest ih =>
    rw [List.forall_mem_cons] at known
    rw [putAll, List.foldl_cons, put_of_at? known.1]
    exact ih known.2

theorem mapValues_put {β : Type} (f : α → β) (members : Members α) (key : String) (new : α) :
    mapValues f (put members key new) = put (mapValues f members) key (f new) := by
  induction members with
  | nil => rfl
  | cons entry rest ih =>
    obtain ⟨name, value⟩ := entry
    by_cases same : name = key
    · simp [mapValues, put, same]
    · simp only [mapValues] at ih
      simp [mapValues, put, same, ih]

theorem mapValues_putAll {β : Type} (f : α → β) (members : Members α) (pairs : List (String × α)) :
    mapValues f (putAll members pairs) = putAll (mapValues f members) (mapValues f pairs) := by
  induction pairs generalizing members with
  | nil => rfl
  | cons pair rest ih =>
    rw [putAll, List.foldl_cons, ← putAll, ih, mapValues_put]
    rfl

theorem mem_of_mem_putAll {members : Members α} {pairs : List (String × α)} {entry : String × α}
    (member : entry ∈ putAll members pairs) : entry ∈ members ∨ entry ∈ pairs := by
  induction pairs generalizing members with
  | nil => exact .inl member
  | cons pair rest ih =>
    rcases ih member with put | later
    · rcases mem_put put with before | rfl
      · exact .inl before
      · exact .inr List.mem_cons_self
    · exact .inr (List.mem_cons_of_mem _ later)

theorem mem_of_mem_ofPairs {pairs : List (String × α)} {entry : String × α} (member : entry ∈ ofPairs pairs) :
    entry ∈ pairs :=
  (mem_of_mem_putAll member).resolve_left List.not_mem_nil

theorem at?_filter_values {members : Members α} (distinct : Distinct members) (keep : α → Bool) (key : String) :
    at? (members.filter fun entry => keep entry.2) key = (at? members key).filter keep := by
  have fewer : Distinct (members.filter fun entry => keep entry.2) :=
    distinct.sublist (List.filter_sublist.map Prod.fst)
  apply Option.ext
  intro value
  rw [at?_eq_some_iff fewer, Option.filter_eq_some_iff, at?_eq_some_iff distinct, List.mem_filter]

theorem filter_put (keep : String → Bool) (members : Members α) (key : String) (new : α) :
    (put members key new).filter (fun entry => keep entry.1) =
      if keep key then put (members.filter fun entry => keep entry.1) key new
      else members.filter fun entry => keep entry.1 := by
  induction members with
  | nil => cases kept : keep key <;> simp [put, kept]
  | cons entry rest ih =>
    obtain ⟨name, value⟩ := entry
    by_cases same : name = key
    · subst same
      cases kept : keep name <;> simp [put, kept]
    · cases kept : keep name <;> cases wanted : keep key <;> simp [put, same, kept, wanted, ih]

/-- Pairs of names that are not kept may as well not be written. -/
theorem filter_putAll (keep : String → Bool) (members : Members α) (pairs : List (String × α)) :
    (putAll members pairs).filter (fun entry => keep entry.1) =
      putAll (members.filter fun entry => keep entry.1) (pairs.filter fun pair => keep pair.1) := by
  induction pairs generalizing members with
  | nil => rfl
  | cons pair rest ih =>
    rw [putAll, List.foldl_cons, ← putAll, ih, filter_put, List.filter_cons]
    cases kept : keep pair.1 with
    | false => rfl
    | true => rfl

theorem filter_ofPairs (keep : String → Bool) (pairs : List (String × α)) :
    (ofPairs pairs).filter (fun entry => keep entry.1) = ofPairs (pairs.filter fun pair => keep pair.1) :=
  filter_putAll keep [] pairs

theorem names_putAll {members : Members α} (distinct : Distinct members) (pairs : List (String × α)) :
    names (putAll members pairs) = (names members ++ names pairs).eraseDups := by
  induction pairs generalizing members with
  | nil =>
    rw [show names ([] : Members α) = [] from rfl, List.append_nil, eraseDups_of_nodup distinct]
    rfl
  | cons pair rest ih =>
    rw [putAll, List.foldl_cons, ← putAll, ih (distinct_put distinct _ _), names_put_of_distinct distinct,
      eraseDups_eraseDups_append]
    simp [names]

theorem names_ofPairs (pairs : List (String × α)) : names (ofPairs pairs) = (names pairs).eraseDups :=
  have empty : Distinct ([] : Members α) := List.nodup_nil
  names_putAll empty pairs

theorem putAll_of_fresh {members : Members α} {pairs : List (String × α)} (distinct : Distinct (members ++ pairs)) :
    putAll members pairs = members ++ pairs := by
  induction pairs generalizing members with
  | nil => simp [putAll]
  | cons pair rest ih =>
    have fresh : pair.1 ∉ names members := by
      rw [Distinct, names, List.map_append, List.nodup_append] at distinct
      intro earlier
      exact distinct.2.2 pair.1 earlier pair.1 (by simp) rfl
    have moved : members ++ pair :: rest = members ++ [(pair.1, pair.2)] ++ rest := by simp
    rw [putAll, List.foldl_cons, ← putAll, put_of_not_mem members pair.2 fresh, moved]
    rw [moved] at distinct
    exact ih distinct

theorem ofPairs_of_distinct {pairs : List (String × α)} (distinct : Distinct pairs) : ofPairs pairs = pairs :=
  putAll_of_fresh distinct

/-- Unless a pair is written twice as it is, all pairs are found again only where no name occurs twice. -/
theorem forall_at?_ofPairs_iff {pairs : List (String × α)} (nodup : pairs.Nodup) :
    (∀ pair ∈ pairs, at? (ofPairs pairs) pair.1 = some pair.2) ↔ Distinct pairs := by
  constructor
  · intro found
    apply List.Nodup.map_on _ nodup
    intro first member second also same
    have value : some first.2 = some second.2 := by
      rw [← found first member, same, found second also]
    exact Prod.ext same (Option.some.inj value)
  · intro distinct pair member
    rw [ofPairs_of_distinct distinct]
    exact (at?_eq_some_iff distinct).mpr member

end Members

namespace Document

theorem WellFormedMembers.at? {members : Members Document} (wellFormed : WellFormedMembers members) {key : String}
    {value : Document} (found : Members.at? members key = some value) : WellFormed value := by
  induction members with
  | nil => cases found
  | cons entry rest ih =>
    obtain ⟨name, other⟩ := entry
    rw [WellFormedMembers] at wellFormed
    rw [Members.at?] at found
    split at found
    · cases found
      exact wellFormed.1
    · exact ih wellFormed.2 found

theorem WellFormed.member? {document : Document} (wellFormed : WellFormed document) {key : String} {value : Document}
    (found : document.member? key = some value) : WellFormed value := by
  cases document with
  | table members =>
    rw [WellFormed] at wellFormed
    exact wellFormed.2.at? found
  | _ => cases found

theorem WellFormed.distinct {members : Members Document} (wellFormed : WellFormed (.table members)) :
    Members.Distinct members := by
  rw [WellFormed] at wellFormed
  exact wellFormed.1

end Document
end Compendium
