import Compendium.Proofs.Document.Members
import Compendium.Resource

/-! Documents that are no block texts. One without a table at its root is refused, and so is one with a list or a null
anywhere in it. The error tells of the first of these in the order of the document, by its kind and by the keys that
lead to it. -/

set_option autoImplicit false
namespace Compendium

namespace Document

mutual

/-- The nodes of a document in their order, each with the keys that lead to it. The items of a list are under the keys
of the list. -/
def nodes (keys : List String) : Document → List (List String × Document)
  | .table members => (keys, .table members) :: memberNodes keys members
  | .list items => (keys, .list items) :: itemNodes keys items
  | value => [(keys, value)]

def memberNodes (keys : List String) : List (String × Document) → List (List String × Document)
  | [] => []
  | (key, value) :: rest => nodes (keys ++ [key]) value ++ memberNodes keys rest

def itemNodes (keys : List String) : List Document → List (List String × Document)
  | [] => []
  | item :: rest => nodes keys item ++ itemNodes keys rest

end

/-- Block texts have no place for a null, nor for a list, whatever its items are. -/
inductive IsPlaceless : Document → Prop where
  | null : IsPlaceless .null
  | list (items : List Document) : IsPlaceless (.list items)

end Document

namespace KeyValues

/-- Keys with points between them. Empty keys in front leave no trace. -/
def pathText (keys : List String) : String :=
  Text.join "." (keys.dropWhile (· = ""))

theorem pathText_of_nonempty {keys : List String} (nonempty : ∀ key ∈ keys, key ≠ "") : pathText keys = Text.join "." keys := by
  cases keys with
  | nil => rfl
  | cons first rest =>
    have solid : first ≠ "" := nonempty first List.mem_cons_self
    rw [pathText, List.dropWhile_cons_of_neg (by simpa using solid)]

theorem join_ne_empty {separator first : String} (solid : first ≠ "") (rest : List String) :
    Text.join separator (first :: rest) ≠ "" := by
  cases rest with
  | nil => simpa [Text.join] using solid
  | cons next rest => simp [Text.join, solid]

/-- A path grows by one key as that of the writer does. -/
theorem pathText_concat (keys : List String) (key : String) : pathText (keys ++ [key]) = pathOf (pathText keys) key := by
  have front := List.head?_dropWhile_not (fun key => decide (key = "")) keys
  rw [pathText, pathText, pathOf, List.dropWhile_append]
  cases found : keys.dropWhile fun key => decide (key = "") with
  | nil =>
    -- All keys so far are empty, and so is the path: it starts over with the next key.
    by_cases empty : key = ""
    · simp [Text.join, empty]
    · simp [Text.join, empty]
  | cons first rest =>
    rw [found] at front
    have solid : first ≠ "" := of_decide_eq_false front
    rw [if_neg (join_ne_empty solid rest), if_neg (by simp), Text.join,
      String.intercalate_append_of_ne_nil (List.cons_ne_nil first rest) (List.cons_ne_nil key []),
      String.intercalate_singleton]
    rfl

/-- What a node is refused for on its own. -/
def refusal? (keys : List String) : Document → Option Unsupported
  | .null => some ⟨"null", pathText keys⟩
  | .list _ => some ⟨"array", pathText keys⟩
  | _ => none

theorem refusal?_eq_some_iff (keys : List String) (node : Document) (unsupported : Unsupported) :
    refusal? keys node = some unsupported ↔ node.IsPlaceless ∧ unsupported = ⟨kindName node, pathText keys⟩ := by
  constructor
  · intro refused
    cases node with
    | null => exact ⟨.null, (Option.some.inj refused).symm⟩
    | list items => exact ⟨.list items, (Option.some.inj refused).symm⟩
    | _ => cases refused
  · rintro ⟨placeless, rfl⟩
    cases placeless with
    | null => rfl
    | list items => rfl

theorem isSome_refusal?_iff (keys : List String) (node : Document) : (refusal? keys node).isSome = true ↔ node.IsPlaceless := by
  simp [Option.isSome_iff_exists, refusal?_eq_some_iff]

def error? {α : Type} : Except Unsupported α → Option Unsupported
  | .ok _ => none
  | .error unsupported => some unsupported

theorem error?_map {α β : Type} (f : α → β) (result : Except Unsupported α) : error? (result.map f) = error? result := by
  cases result <;> rfl

/-- Of two steps that fail, the first one is told of. -/
theorem error?_bind {α β γ : Type} (first : Except Unsupported α) (second : Except Unsupported β) (f : α → β → γ) :
    error? (first >>= fun value => second >>= fun other => pure (f value other)) = (error? first).or (error? second) := by
  cases first with
  | error unsupported => rfl
  | ok value => cases second <;> rfl

mutual

/-- The error that ends the writing of a document is that of its first node that has one. -/
theorem error?_ofDocument (keys : List String) : ∀ document : Document, error? (Node.ofDocument (pathText keys) document) =
    (document.nodes keys).findSome? fun node => refusal? node.1 node.2
  | .table members => by
    rw [Node.ofDocument, error?_map, error?_entriesOfMembers keys members, Document.nodes, List.findSome?_cons]
    rfl
  | .list items => by
    rw [Node.ofDocument, Document.nodes, List.findSome?_cons]
    rfl
  | .text _ => rfl
  | .number _ => rfl
  | .bool _ => rfl
  | .null => rfl

theorem error?_entriesOfMembers (keys : List String) : ∀ members : List (String × Document),
    error? (entriesOfMembers (pathText keys) members) =
      (Document.memberNodes keys members).findSome? fun node => refusal? node.1 node.2
  | [] => rfl
  | (key, value) :: rest => by
    -- A member is written with all that is below it before the next one, and so its errors come first.
    rw [entriesOfMembers, error?_bind, ← pathText_concat, error?_ofDocument (keys ++ [key]) value,
      error?_entriesOfMembers keys rest, Document.memberNodes, List.findSome?_append]

end

theorem error?_writeDocument (tabs : Bool) (document : Document) : error? (writeDocument tabs document) =
    if document.isTable then (document.nodes []).findSome? fun node => refusal? node.1 node.2
    else some ⟨kindName document, ""⟩ := by
  rw [writeDocument, error?_map]
  cases document with
  | table members =>
    rw [Document.nodes, List.findSome?_cons]
    exact error?_entriesOfMembers [] members
  | _ => rfl

theorem isSome_error?_writeDocument_iff (tabs : Bool) (document : Document) :
    (error? (writeDocument tabs document)).isSome = true ↔
      document.isTable = false ∨ ∃ node ∈ document.nodes [], node.2.IsPlaceless := by
  rw [error?_writeDocument]
  cases table : document.isTable with
  | false => simp
  | true => simp [List.findSome?_isSome_iff, isSome_refusal?_iff]

end KeyValues

open KeyValues

theorem Resource.toBlockText_eq_error_iff (tabs : Bool) (document : Document) (error : ResourceError) :
    Resource.toBlockText tabs document = .error error ↔
      ∃ unsupported, error? (writeDocument tabs document) = some unsupported ∧ error = .unsupported unsupported := by
  rw [toBlockText]
  cases writeDocument tabs document with
  | ok written => simp [Except.mapError, error?]
  | error unsupported => simp [Except.mapError, error?, eq_comm]

/-- Writing fails just where the root is no table or some node has no place in a block text. Of a table, the first of these
nodes is told of: its kind, and the keys that lead to it with points between them, but without the empty ones in front. -/
theorem Resource.toBlockText_refuses_first (tabs : Bool) (document : Document) :
    ((∃ error, Resource.toBlockText tabs document = .error error) ↔
      document.isTable = false ∨ ∃ node ∈ document.nodes [], node.2.IsPlaceless) ∧
    ∀ error, document.isTable = true → Resource.toBlockText tabs document = .error error →
      ∃ keys node, IsFirst (fun node => node.2.IsPlaceless) (document.nodes []) (keys, node) ∧
        error = .unsupported ⟨kindName node, Text.join "." (keys.dropWhile (· = ""))⟩ ∧
        ((∀ key ∈ keys, key ≠ "") → error = .unsupported ⟨kindName node, Text.join "." keys⟩) := by
  simp only [toBlockText_eq_error_iff]
  constructor
  · rw [← isSome_error?_writeDocument_iff tabs, Option.isSome_iff_exists]
    constructor
    · rintro ⟨error, unsupported, refused, -⟩
      exact ⟨unsupported, refused⟩
    · rintro ⟨unsupported, refused⟩
      exact ⟨_, unsupported, refused, rfl⟩
  · rintro error table ⟨unsupported, refused, rfl⟩
    rw [error?_writeDocument, if_pos table, findSome?_eq_some_iff_isFirst] at refused
    obtain ⟨⟨keys, node⟩, first, own⟩ := refused
    simp only [isSome_refusal?_iff] at first
    obtain ⟨-, rfl⟩ := (refusal?_eq_some_iff _ _ _).mp own
    refine ⟨keys, node, first, rfl, ?_⟩
    intro nonempty
    rw [pathText_of_nonempty nonempty]

/-- A list below a key, with nulls in it and behind it. -/
theorem Resource.toBlockText_refuses_first_list :
    Resource.toBlockText true (.table [("", .table [("zero", .integer 0)]), ("root", .table [("name", .text "blink"),
      ("list", .list [.null, .table []]), ("none", .null)]), ("late", .null)]) =
        .error (.unsupported ⟨"array", "root.list"⟩) := by
  generalize same : Document.table [("", .table [("zero", .integer 0)]), ("root", .table [("name", .text "blink"),
    ("list", .list [.null, .table []]), ("none", .null)]), ("late", .null)] = document
  obtain ⟨fails, tells⟩ := Resource.toBlockText_refuses_first true document
  have first : IsFirst (fun node => node.2.IsPlaceless) (document.nodes []) (["root", "list"], .list [.null, .table []]) := by
    subst same
    refine ⟨[([], _), ([""], _), (["", "zero"], _), (["root"], _), (["root", "name"], _)],
      [(["root", "list"], _), (["root", "list"], _), (["root", "none"], _), (["late"], _)], rfl, .list _, ?_⟩
    simp only [List.forall_mem_cons]
    refine ⟨?_, ?_, ?_, ?_, ?_, nofun⟩ <;> nofun
  obtain ⟨error, refused⟩ := fails.mpr (.inr ⟨_, first.mem, first.holds⟩)
  obtain ⟨keys, node, other, -, path⟩ := tells error (by rw [← same]; rfl) refused
  obtain ⟨rfl, rfl⟩ := Prod.mk.inj (other.unique first)
  rw [refused, path (by decide)]
  decide

end Compendium
