import Compendium.Proofs.KeyValues.Merging
import Mathlib.Data.List.Defs

/-! What a text writes, entry by entry, and what is left of it once it is read. No value and no block is lost or
misplaced as long as no path of keys is used both for a value and for a block. -/

set_option autoImplicit false
namespace Compendium.KeyValues

/-- An entry of a text, under the keys of the blocks around it. An entry without a value opens a block. -/
structure Event where
  parent : List String
  key : String
  value : Option String
  deriving DecidableEq, Repr

def Event.path (event : Event) : List String :=
  event.parent ++ [event.key]

/-- The entries that tokens write, in order, while the blocks under the keys `parent` are open. -/
def events (parent : List String) : List Token → List Event
  | .text key :: .text value :: rest => ⟨parent, key, some value⟩ :: events parent rest
  | .text key :: .opening :: rest => ⟨parent, key, none⟩ :: events (parent ++ [key]) rest
  | .closing :: rest => events parent.dropLast rest
  | _ => []

/-- The entries of a text in text order. -/
def history (text : String) : List Event :=
  events [] (lex text).tokens

/-- No path is written to both as a value and as a block. -/
def Unmixed (history : List Event) : Prop :=
  ∀ first ∈ history, ∀ second ∈ history, first.path = second.path → first.value.isSome = second.value.isSome

def Opens (history : List Event) (path : List String) : Prop :=
  ∃ event ∈ history, event.path = path ∧ event.value = none

instance (history : List Event) (path : List String) : Decidable (Opens history path) :=
  inferInstanceAs (Decidable (∃ event ∈ history, event.path = path ∧ event.value = none))

/-- The last value written at a path, if there is one. -/
def lastValue? (history : List Event) (path : List String) : Option String :=
  ((history.filter (·.path = path)).filterMap Event.value).getLast?

/-- The keys written directly under a path, in the order in which they first appear. -/
def keysUnder (history : List Event) (path : List String) : List String :=
  ((history.filter (·.parent = path)).map Event.key).eraseDups

theorem Unmixed.of_subset {history part : List Event} (unmixed : Unmixed history) (subset : part ⊆ history) :
    Unmixed part :=
  fun first left second right => unmixed first (subset left) second (subset right)

theorem lastValue?_isSome_iff (history : List Event) (path : List String) :
    (lastValue? history path).isSome ↔ ∃ event ∈ history, event.path = path ∧ event.value.isSome := by
  rw [lastValue?, List.getLast?_isSome]
  constructor
  · intro written
    obtain ⟨value, member⟩ := List.exists_mem_of_ne_nil _ written
    obtain ⟨event, member, present⟩ := List.mem_filterMap.mp member
    rw [List.mem_filter, decide_eq_true_eq] at member
    exact ⟨event, member.1, member.2, by rw [present]; rfl⟩
  · rintro ⟨event, member, rfl, present⟩
    obtain ⟨value, found⟩ := Option.isSome_iff_exists.mp present
    have kept : event ∈ history.filter (·.path = event.path) := by simp [member]
    exact List.ne_nil_of_mem (List.mem_filterMap.mpr ⟨event, kept, found⟩)

theorem lastValue?_nil (history : List Event) : lastValue? history [] = none := by
  rw [← Option.not_isSome_iff_eq_none, lastValue?_isSome_iff]
  rintro ⟨event, _, top, _⟩
  exact List.append_ne_nil_of_right_ne_nil event.parent (List.cons_ne_nil event.key []) top

theorem Unmixed.lastValue?_eq_none {history : List Event} {path : List String} (unmixed : Unmixed history)
    (opens : Opens history path) : lastValue? history path = none := by
  obtain ⟨event, member, rfl, block⟩ := opens
  rw [← Option.not_isSome_iff_eq_none, lastValue?_isSome_iff]
  rintro ⟨other, also, same, present⟩
  have both := unmixed other also event member same
  rw [present, block] at both
  cases both

theorem opens_append (first second : List Event) (path : List String) :
    Opens (first ++ second) path ↔ Opens first path ∨ Opens second path := by
  simp only [Opens, List.mem_append, or_and_right, exists_or]

theorem lastValue?_append (first second : List Event) (path : List String) :
    lastValue? (first ++ second) path = (lastValue? second path).or (lastValue? first path) := by
  simp only [lastValue?, List.filter_append, List.filterMap_append, List.getLast?_append]

theorem keysUnder_append (first second : List Event) (path : List String) :
    keysUnder (first ++ second) path = (keysUnder first path ++ keysUnder second path).eraseDups := by
  rw [keysUnder, List.filter_append, List.map_append, ← eraseDups_append_eraseDups]
  rfl

/-- Every entry stands at the top or in a block that is opened. -/
def Rooted (history : List Event) : Prop :=
  ∀ event ∈ history, event.parent = [] ∨ Opens history event.parent

theorem Rooted.keysUnder_eq_nil {history : List Event} (rooted : Rooted history) {path : List String}
    (inside : path ≠ []) (closed : ¬ Opens history path) : keysUnder history path = [] := by
  have none : history.filter (·.parent = path) = [] := by
    rw [List.filter_eq_nil_iff]
    intro event member same
    rw [decide_eq_true_eq] at same
    subst same
    rcases rooted event member with top | opens
    · exact inside top
    · exact closed opens
  rw [keysUnder, none]
  rfl

theorem Rooted.append {first second : List Event} (left : Rooted first) (right : Rooted second) :
    Rooted (first ++ second) := by
  intro event member
  rw [opens_append]
  rcases List.mem_append.mp member with early | late
  · exact (left event early).imp_right .inl
  · exact (right event late).imp_right .inr

/-- What a history makes of a path, if it is unmixed. -/
def shapeFrom (history : List Event) (path : List String) : Option Shape :=
  if path = [] ∨ Opens history path then some (.block (keysUnder history path))
  else (lastValue? history path).map .value

theorem shapeFrom_of_block {history : List Event} {path : List String} (block : path = [] ∨ Opens history path) :
    shapeFrom history path = some (.block (keysUnder history path)) :=
  if_pos block

theorem shapeFrom_of_value {history : List Event} {path : List String} (inside : path ≠ [])
    (closed : ¬ Opens history path) : shapeFrom history path = (lastValue? history path).map .value :=
  if_neg (not_or.mpr ⟨inside, closed⟩)

theorem shapeFrom_eq_block_iff (history : List Event) (path keys : List String) :
    shapeFrom history path = some (.block keys) ↔
      (path = [] ∨ Opens history path) ∧ keysUnder history path = keys := by
  by_cases block : path = [] ∨ Opens history path
  · rw [shapeFrom_of_block block]
    simp [block]
  · have closed := not_or.mp block
    rw [shapeFrom_of_value closed.1 closed.2]
    simp [block]

theorem Unmixed.shapeFrom_eq_value_iff {history : List Event} (unmixed : Unmixed history) (path : List String)
    (value : String) : shapeFrom history path = some (.value value) ↔ lastValue? history path = some value := by
  by_cases block : path = [] ∨ Opens history path
  · have silent : lastValue? history path = none := by
      rcases block with rfl | opens
      · exact lastValue?_nil history
      · exact unmixed.lastValue?_eq_none opens
    rw [shapeFrom_of_block block, silent]
    simp
  · have closed := not_or.mp block
    rw [shapeFrom_of_value closed.1 closed.2]
    simp

theorem isBlock_of_silent {history : List Event} {path : List String} {shape : Shape}
    (silent : lastValue? history path = none) (found : shapeFrom history path = some shape) : shape.isBlock = true := by
  rw [shapeFrom] at found
  split at found
  · rw [← Option.some.inj found]
    rfl
  · rw [silent] at found
    cases found

theorem isValue_of_closed {history : List Event} {path : List String} {shape : Shape} (inside : path ≠ [])
    (closed : ¬ Opens history path) (found : shapeFrom history path = some shape) : shape.isBlock = false := by
  rw [shapeFrom_of_value inside closed, Option.map_eq_some_iff] at found
  obtain ⟨value, _, rfl⟩ := found
  rfl

theorem eraseDups_keysUnder (history : List Event) (path : List String) :
    (keysUnder history path).eraseDups = keysUnder history path :=
  eraseDups_of_nodup (nodup_eraseDups _)

theorem shapeFrom_append {first second : List Event} (left : Rooted first) (right : Rooted second)
    (unmixed : Unmixed (first ++ second)) (path : List String) :
    shapeFrom (first ++ second) path = Shape.join (shapeFrom first path) (shapeFrom second path) := by
  by_cases top : path = []
  · rw [shapeFrom_of_block (.inl top), shapeFrom_of_block (.inl top), shapeFrom_of_block (.inl top), keysUnder_append]
    rfl
  by_cases block : Opens (first ++ second) path
  · have silent := unmixed.lastValue?_eq_none block
    rw [lastValue?_append, Option.or_eq_none_iff] at silent
    -- a part that does not open the path has neither a value nor a key there
    rw [shapeFrom_of_block (.inr block), keysUnder_append]
    by_cases early : Opens first path
    · rw [shapeFrom_of_block (.inr early)]
      by_cases late : Opens second path
      · rw [shapeFrom_of_block (.inr late)]
        rfl
      · rw [shapeFrom_of_value top late, silent.1, right.keysUnder_eq_nil top late, List.append_nil,
          eraseDups_keysUnder]
        rfl
    · have late := ((opens_append first second path).mp block).resolve_left early
      rw [shapeFrom_of_value top early, silent.2, left.keysUnder_eq_nil top early, List.nil_append,
        eraseDups_keysUnder, shapeFrom_of_block (.inr late)]
      rfl
  · have closed := mt (opens_append first second path).mpr block
    rw [not_or] at closed
    rw [shapeFrom_of_value top block, shapeFrom_of_value top closed.1, shapeFrom_of_value top closed.2,
      lastValue?_append]
    cases lastValue? second path with
    | none => rfl
    | some value => cases lastValue? first path <;> rfl

/-- Two parts of an unmixed history agree on what is a block. -/
theorem Unmixed.alike {first second : List Event} (unmixed : Unmixed (first ++ second)) (path : List String) :
    Shape.Alike (shapeFrom first path) (shapeFrom second path) := by
  intro old new left right
  by_cases top : path = []
  · rw [shapeFrom_of_block (.inl top), Option.some.injEq] at left right
    rw [← left, ← right]
    rfl
  by_cases block : Opens (first ++ second) path
  · have silent := unmixed.lastValue?_eq_none block
    rw [lastValue?_append, Option.or_eq_none_iff] at silent
    rw [isBlock_of_silent silent.2 left, isBlock_of_silent silent.1 right]
  · have closed := mt (opens_append first second path).mpr block
    rw [not_or] at closed
    rw [isValue_of_closed top closed.1 left, isValue_of_closed top closed.2 right]

/-- An entry seen from outside of the blocks under the keys `outer`. -/
def Event.within (outer : List String) (event : Event) : Event :=
  { event with parent := outer ++ event.parent }

theorem Event.path_within (outer : List String) (event : Event) : (event.within outer).path = outer ++ event.path :=
  List.append_assoc _ _ _

theorem opens_within (outer : List String) (history : List Event) (path : List String) :
    Opens (history.map (Event.within outer)) (outer ++ path) ↔ Opens history path := by
  constructor
  · rintro ⟨_, member, same, block⟩
    obtain ⟨event, inside, rfl⟩ := List.mem_map.mp member
    rw [Event.path_within] at same
    exact ⟨event, inside, List.append_cancel_left same, block⟩
  · rintro ⟨event, member, rfl, block⟩
    exact ⟨event.within outer, List.mem_map_of_mem member, event.path_within outer, block⟩

theorem lastValue?_within (outer : List String) (history : List Event) (path : List String) :
    lastValue? (history.map (Event.within outer)) (outer ++ path) = lastValue? history path := by
  rw [lastValue?, List.filter_map, List.filterMap_map, lastValue?]
  congr 2
  apply List.filter_congr
  intro event _
  simp [Event.path_within]

theorem keysUnder_within (outer : List String) (history : List Event) (path : List String) :
    keysUnder (history.map (Event.within outer)) (outer ++ path) = keysUnder history path := by
  rw [keysUnder, List.filter_map, List.map_map, keysUnder]
  congr 2
  apply List.filter_congr
  intro event _
  simp [Event.within]

theorem Unmixed.of_within (outer : List String) {history : List Event}
    (unmixed : Unmixed (history.map (Event.within outer))) : Unmixed history := by
  intro first left second right same
  have within : (first.within outer).path = (second.within outer).path := by
    rw [Event.path_within, Event.path_within, same]
  exact unmixed (first.within outer) (List.mem_map_of_mem left) (second.within outer) (List.mem_map_of_mem right) within

/-- The entries of a block, seen from outside of it. -/
def inBlock (key : String) (history : List Event) : List Event :=
  ⟨[], key, none⟩ :: history.map (Event.within [key])

theorem opens_inBlock (key : String) (history : List Event) (path : List String) :
    Opens (inBlock key history) (key :: path) ↔ path = [] ∨ Opens history path := by
  have cons := opens_append [⟨[], key, none⟩] (history.map (Event.within [key])) (key :: path)
  rw [List.singleton_append] at cons
  rw [inBlock, cons, ← opens_within [key] history path]
  simp [Opens, Event.path, eq_comm]

theorem shapeFrom_inBlock_nil (key : String) (history : List Event) :
    shapeFrom (inBlock key history) [] = some (.block [key]) := by
  have outside : (history.map (Event.within [key])).filter (·.parent = []) = [] := by
    rw [List.filter_eq_nil_iff]
    intro event member
    obtain ⟨event, _, rfl⟩ := List.mem_map.mp member
    simp [Event.within]
  rw [shapeFrom_of_block (.inl rfl)]
  simp [keysUnder, inBlock, outside, List.eraseDups_cons]

theorem shapeFrom_inBlock_same (key : String) (history : List Event) (path : List String) :
    shapeFrom (inBlock key history) (key :: path) = shapeFrom history path := by
  by_cases block : path = [] ∨ Opens history path
  · rw [shapeFrom_of_block block, shapeFrom_of_block (.inr ((opens_inBlock key history path).mpr block)),
      ← keysUnder_within [key] history path]
    simp [keysUnder, inBlock]
  · have closed := mt (opens_inBlock key history path).mp block
    rw [not_or] at block
    rw [shapeFrom_of_value block.1 block.2, shapeFrom_of_value (List.cons_ne_nil _ _) closed,
      ← lastValue?_within [key] history path]
    simp [lastValue?, inBlock, Event.path, Ne.symm block.1]

theorem shapeFrom_inBlock_of_ne {key name : String} (history : List Event) (path : List String) (differ : key ≠ name) :
    shapeFrom (inBlock key history) (name :: path) = none := by
  have foreign : ∀ event ∈ inBlock key history, event.path ≠ name :: path := by
    intro event member
    rcases List.mem_cons.mp member with rfl | member
    · simp [Event.path, differ]
    · obtain ⟨event, _, rfl⟩ := List.mem_map.mp member
      simp [Event.path_within, differ]
  have closed : ¬ Opens (inBlock key history) (name :: path) := by
    rintro ⟨event, member, here, _⟩
    exact foreign event member here
  have silent : (inBlock key history).filter (·.path = name :: path) = [] := by
    rw [List.filter_eq_nil_iff]
    intro event member
    rw [decide_eq_true_eq]
    exact foreign event member
  rw [shapeFrom_of_value (List.cons_ne_nil _ _) closed, lastValue?, silent]
  rfl

/-- What reading leaves of a history: at every path the last value or the block, each block with its keys in the order
of their first appearance. -/
structure Records (entries : Entries) (history : List Event) : Prop where
  settled : Settled (.block entries)
  rooted : Rooted history
  shape : ∀ path, (Node.block entries).shapeAt path = shapeFrom history path

namespace Records

theorem empty : Records [] [] := by
  refine ⟨.empty, (fun _ member => nomatch member), ?_⟩
  intro path
  cases path with
  | nil => rfl
  | cons key path => rfl

theorem mergeEntries {target incoming : Entries} {first second : List Event} (left : Records target first)
    (right : Records incoming second) (unmixed : Unmixed (first ++ second)) :
    Records (mergeEntries target incoming) (first ++ second) := by
  refine ⟨left.settled.mergeEntries incoming right.settled.children, left.rooted.append right.rooted, ?_⟩
  intro path
  have alike : ∀ path, Shape.Alike ((Node.block target).shapeAt path) ((Node.block incoming).shapeAt path) := by
    intro path
    rw [left.shape, right.shape]
    exact unmixed.alike path
  -- merging is pointwise here, as joining the two histories is
  rw [shapeAt_mergeEntries path left.settled right.settled alike, left.shape, right.shape,
    shapeFrom_append left.rooted right.rooted unmixed]

theorem value (key value : String) : Records [(key, .text value)] [⟨[], key, some value⟩] := by
  refine ⟨.block (by simp [Members.Distinct, Members.names]) ?_, ?_, ?_⟩
  · intro entry member
    rw [List.mem_singleton] at member
    subst member
    exact .text value
  · intro event member
    rw [List.mem_singleton] at member
    subst member
    exact .inl rfl
  · intro path
    cases path with
    | nil => rfl
    | cons name path =>
      rw [Node.shapeAt_block_cons, Members.at?]
      have closed : ¬ Opens [⟨[], key, some value⟩] (name :: path) := by simp [Opens]
      rw [shapeFrom_of_value (List.cons_ne_nil _ _) closed]
      by_cases same : key = name
      · subst same
        cases path with
        | nil => simp [lastValue?, Event.path, Node.shapeAt, Node.at?, Node.shape]
        | cons next path => simp [lastValue?, Event.path, Node.shapeAt, Node.at?]
      · simp [lastValue?, Event.path, Members.at?, same]

theorem block {entries : Entries} {history : List Event} (inner : Records entries history) (key : String) :
    Records [(key, .block entries)] (inBlock key history) := by
  refine ⟨.block (by simp [Members.Distinct, Members.names]) ?_, ?_, ?_⟩
  · intro entry member
    rw [List.mem_singleton] at member
    subst member
    exact inner.settled
  · intro event member
    rcases List.mem_cons.mp member with rfl | member
    · exact .inl rfl
    · obtain ⟨event, inside, rfl⟩ := List.mem_map.mp member
      exact .inr ((opens_inBlock key history event.parent).mpr (inner.rooted event inside))
  · intro path
    cases path with
    | nil => exact (shapeFrom_inBlock_nil key history).symm
    | cons name path =>
      rw [Node.shapeAt_block_cons, Members.at?]
      by_cases same : key = name
      · subst same
        rw [if_pos rfl, Option.bind_some, inner.shape, shapeFrom_inBlock_same]
      · rw [if_neg same, shapeFrom_inBlock_of_ne history path same]
        rfl

end Records

/-- The entries of a tree that may repeat keys. -/
def historyOf : List (String × Node) → List Event
  | [] => []
  | (key, .text value) :: rest => ⟨[], key, some value⟩ :: historyOf rest
  | (key, .block inner) :: rest => inBlock key (historyOf inner) ++ historyOf rest

/-- A block is left at its closing brace with the path it was entered with. -/
theorem events_tokensOf (parent : List String) (more : List Token) : ∀ written : List (String × Node),
    events parent (tokensOf written ++ more) =
      (historyOf written).map (Event.within parent) ++ events parent more
  | [] => by
    rw [tokensOf, historyOf]
    rfl
  | (key, .text value) :: rest => by
    have later := events_tokensOf parent more rest
    rw [tokensOf, Node.tokens, historyOf]
    simp only [List.cons_append, List.nil_append, events, later, List.map_cons]
    simp [Event.within]
  | (key, .block inner) :: rest => by
    have later := events_tokensOf parent more rest
    have inside := events_tokensOf (parent ++ [key]) (.closing :: (tokensOf rest ++ more)) inner
    rw [tokensOf, Node.tokens, historyOf]
    simp only [List.cons_append, List.append_assoc, List.nil_append, events, inside, List.dropLast_concat, later]
    simp [inBlock, Event.within]

theorem Records.storeAll : ∀ (written : List (String × Node)) {entries : Entries} {earlier : List Event},
    Records entries earlier → Unmixed (earlier ++ historyOf written) →
    Records (storeAll entries written) (earlier ++ historyOf written)
  | [], entries, earlier, records, _ => by
    rw [historyOf, List.append_nil]
    exact records
  | (key, .text value) :: rest, entries, earlier, records, unmixed => by
    rw [historyOf, List.append_cons] at unmixed ⊢
    have now := records.mergeEntries (.value key value) (unmixed.of_subset (List.subset_append_left _ _))
    exact now.storeAll rest unmixed
  | (key, .block inner) :: rest, entries, earlier, records, unmixed => by
    rw [historyOf, ← List.append_assoc] at unmixed ⊢
    -- the block is recorded by itself and merged as one entry, so its own history must be unmixed
    have here : Unmixed ([] ++ historyOf inner) := by
      apply Unmixed.of_within [key]
      apply unmixed.of_subset
      intro event member
      rw [List.nil_append] at member
      simp only [inBlock, List.mem_append, List.mem_cons]
      exact .inl (.inr (.inr member))
    have child := Records.empty.storeAll inner here
    have now := records.mergeEntries (child.block key) (unmixed.of_subset (List.subset_append_left _ _))
    exact now.storeAll rest unmixed

theorem records_of_read {text : String} {entries : Entries} (accepted : read text = .ok entries)
    (unmixed : Unmixed (history text)) : Records entries (history text) := by
  obtain ⟨written, _, same, rfl⟩ := exists_written_of_readLexed accepted
  have whole : history text = [] ++ historyOf written := by
    have read := events_tokensOf [] [] written
    rw [List.append_nil, ← same] at read
    have unmoved : (historyOf written).map (Event.within []) = historyOf written :=
      List.map_id (historyOf written)
    rw [history, read, unmoved]
    simp [events]
  rw [whole] at unmixed ⊢
  exact Records.empty.storeAll written unmixed

/-- At every path a document has the last value that its text wrote there, a table where its text opened a block, and
nothing otherwise; the names of a table stand in the order in which the text first mentions them. -/
theorem ofBlockText_at_path {text : String} {document : Document} (accepted : Resource.ofBlockText text = .ok document)
    (unmixed : Unmixed (history text)) (path : List String) :
    (∀ value, document.at? path = some (.text value) ↔ lastValue? (history text) path = some value) ∧
    ((∃ members, document.at? path = some (.table members)) ↔ path = [] ∨ Opens (history text) path) ∧
    (∀ members, document.at? path = some (.table members) →
      Members.names members = keysUnder (history text) path) := by
  obtain ⟨entries, read, rfl⟩ := (Resource.ofBlockText_eq_ok_iff text document).mp accepted
  have shape := (records_of_read read unmixed).shape path
  refine ⟨?_, ?_, ?_⟩
  · intro value
    rw [Node.at?_toDocument_eq_text_iff, shape, unmixed.shapeFrom_eq_value_iff]
  · constructor
    · rintro ⟨members, found⟩
      have block := Node.shapeAt_of_at?_toDocument_table found
      rw [shape, shapeFrom_eq_block_iff] at block
      exact block.1
    · intro block
      rw [shapeFrom_of_block block] at shape
      exact Node.exists_table_of_shapeAt shape
  · intro members found
    have block := Node.shapeAt_of_at?_toDocument_table found
    rw [shape, shapeFrom_eq_block_iff] at block
    exact block.2.symm

/-- A block opened twice, with one of its values written twice. -/
theorem ofBlockText_at_reopened_block :
    ∃ document, Resource.ofBlockText "a \x7b x 1 \x7d b 2 a \x7b y 3 x 4 \x7d" = .ok document ∧
      document.at? ["a", "x"] = some (.text "4") ∧
      ∀ members, document.at? ["a"] = some (.table members) → Members.names members = ["x", "y"] := by
  generalize same : "a \x7b x 1 \x7d b 2 a \x7b y 3 x 4 \x7d" = text
  have read : read text = .ok [("a", .block [("x", .text "4"), ("y", .text "3")]), ("b", .text "2")] := by
    subst same
    cbv
  have accepted := (Resource.ofBlockText_eq_ok_iff text _).mpr ⟨_, read, rfl⟩
  have written : history text = [⟨[], "a", none⟩, ⟨["a"], "x", some "1"⟩, ⟨[], "b", some "2"⟩, ⟨[], "a", none⟩,
      ⟨["a"], "y", some "3"⟩, ⟨["a"], "x", some "4"⟩] := by
    subst same
    cbv
  have unmixed : Unmixed (history text) := by
    rw [written]
    unfold Unmixed
    decide
  refine ⟨_, accepted, ?_, ?_⟩
  · refine ((ofBlockText_at_path accepted unmixed ["a", "x"]).1 "4").mpr ?_
    rw [written]
    decide
  · intro members found
    rw [(ofBlockText_at_path accepted unmixed ["a"]).2.2 members found, written]
    decide

end Compendium.KeyValues
