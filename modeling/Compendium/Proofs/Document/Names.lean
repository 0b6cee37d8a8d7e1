import Compendium.Document.Members
import Mathlib.Data.List.Basic

/-! Names in the order in which they first appear, which is the order of members that are written one after the other. -/

set_option autoImplicit false
namespace Compendium

theorem eraseDups_filter (p : String → Bool) (keys : List String) :
    (keys.filter p).eraseDups = keys.eraseDups.filter p := by
  match keys with
  | [] => rfl
  | key :: rest =>
    have shorter : (rest.filter fun other => !other == key).length < rest.length + 1 :=
      Nat.lt_succ_of_le (List.length_filter_le _ rest)
    have ih := eraseDups_filter p (rest.filter fun other => !other == key)
    rw [List.filter_filter] at ih
    rw [List.eraseDups_cons, List.filter_cons, List.filter_cons]
    -- a key that is kept removes its copies from the rest, before or after the filter
    split
    · rw [List.eraseDups_cons, List.filter_filter, ← ih]
      congr 3
      funext other
      exact Bool.and_comm _ _
    · next dropped =>
      rw [← ih]
      congr 1
      apply List.filter_congr
      intro other _
      by_cases same : other = key
      · simp [same, dropped]
      · simp [same]
termination_by keys.length

theorem nodup_eraseDups (keys : List String) : keys.eraseDups.Nodup := by
  match keys with
  | [] => exact List.nodup_nil
  | key :: rest =>
    have shorter : (rest.filter fun other => !other == key).length < rest.length + 1 :=
      Nat.lt_succ_of_le (List.length_filter_le _ rest)
    rw [List.eraseDups_cons, List.nodup_cons]
    refine ⟨?_, nodup_eraseDups _⟩
    simp [List.mem_eraseDups]
termination_by keys.length

theorem eraseDups_of_nodup {keys : List String} (nodup : keys.Nodup) : keys.eraseDups = keys := by
  induction keys with
  | nil => rfl
  | cons key rest ih =>
    obtain ⟨fresh, nodup⟩ := List.nodup_cons.mp nodup
    have kept : rest.filter (fun other => !other == key) = rest := by
      rw [List.filter_eq_self]
      intro other member
      simp only [Bool.not_eq_true', beq_eq_false_iff_ne]
      exact fun same => fresh (same ▸ member)
    rw [List.eraseDups_cons, kept, ih nodup]

theorem eraseDups_append_eraseDups (first second : List String) :
    (first.eraseDups ++ second.eraseDups).eraseDups = (first ++ second).eraseDups := by
  have once : ∀ keys : List String, keys.eraseDups.eraseDups = keys.eraseDups :=
    fun keys => eraseDups_of_nodup (nodup_eraseDups keys)
  have known : (second.eraseDups.removeAll first.eraseDups) = (second.removeAll first).eraseDups := by
    rw [List.removeAll, List.removeAll, eraseDups_filter]
    apply List.filter_congr
    intro key _
    simp [List.mem_eraseDups]
  rw [List.eraseDups_append, List.eraseDups_append, known, once, once]

theorem eraseDups_eraseDups_append (first second : List String) :
    (first.eraseDups ++ second).eraseDups = (first ++ second).eraseDups := by
  rw [← eraseDups_append_eraseDups, ← eraseDups_append_eraseDups first, eraseDups_of_nodup (nodup_eraseDups first)]

namespace Members

variable {α : Type}

theorem names_put_of_distinct {members : Members α} (distinct : Distinct members) (key : String) (new : α) :
    names (put members key new) = (names members ++ [key]).eraseDups := by
  rw [names_put, List.eraseDups_append, eraseDups_of_nodup distinct]
  by_cases known : key ∈ names members
  · simp [known, List.removeAll]
  · have single : [key].eraseDups = [key] := eraseDups_of_nodup (by simp)
    simp [known, List.removeAll, single]

end Members
end Compendium
