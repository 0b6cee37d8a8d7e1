import Compendium.Files.Tree
import Compendium.Proofs.Text.Joining

/-! Paths taken apart and put together. A path is made of its segments, a child adds one at the end, and the parent
takes the last one away with everything idle in front of it. -/

set_option autoImplicit false
namespace Compendium

namespace Text

theorem splitOn_slash_of_not_mem {text : String} (slashless : '/' ∉ text.toList) : splitOn text "/" = [text] := by
  change (splitChars '/' [] _).map String.ofList = [text]
  rw [splitChars_of_not_mem List.mem_cons_self slashless]
  simp

theorem splitOn_slash_empty : splitOn "" "/" = [""] :=
  splitOn_slash_of_not_mem (by simp)

theorem splitOn_slash_append (before after : String) :
    splitOn (before ++ "/" ++ after) "/" = splitOn before "/" ++ splitOn after "/" := by
  have same : (before ++ "/" ++ after).toList = before.toList ++ '/' :: after.toList := by simp
  change (splitChars '/' [] _).map String.ofList = (splitChars '/' [] _).map _ ++ (splitChars '/' [] _).map _
  rw [same, splitChars_mark_append, List.map_append]

theorem splitOn_slash_behind (front : String) {name : String} (slashless : '/' ∉ name.toList) :
    splitOn (front ++ "/" ++ name) "/" = splitOn front "/" ++ [name] := by
  rw [splitOn_slash_append, splitOn_slash_of_not_mem slashless]

theorem splitOn_slash_ne_nil (text : String) : splitOn text "/" ≠ [] := by
  change (splitChars '/' [] _).map String.ofList ≠ []
  simp [splitChars_ne_nil]

theorem slash_not_mem_splitOn (text : String) : ∀ piece ∈ splitOn text "/", '/' ∉ piece.toList := by
  change ∀ piece ∈ (splitChars '/' [] _).map String.ofList, _
  simpa using not_mem_of_mem_splitChars text.toList

end Text

/-- A name that a file or directory can have. -/
def IsFileName (name : String) : Prop :=
  name ∉ ["", ".", ".."] ∧ '/' ∉ name.toList

instance (name : String) : Decidable (IsFileName name) :=
  inferInstanceAs (Decidable (_ ∧ _))

namespace IsFileName

variable {name : String}

theorem ne_empty (plain : IsFileName name) : name ≠ "" :=
  fun same => plain.1 (by simp [same])

theorem ne_up (plain : IsFileName name) : name ≠ ".." :=
  fun same => plain.1 (by simp [same])

end IsFileName

/-- Whether a segment stays where it is. -/
def isIdle (segment : String) : Bool :=
  segment == "" || segment == "."

namespace Location

variable {location : Location} {segment : String}

theorem enter_of_isIdle (idle : isIdle segment = true) : location.enter segment = location := by
  rw [isIdle, Bool.or_eq_true, beq_iff_eq, beq_iff_eq] at idle
  rw [enter, if_pos idle]

theorem enter_up : location.enter ".." = location.up :=
  rfl

theorem enter_of_ne (busy : isIdle segment = false) (down : segment ≠ "..") :
    location.enter segment = segment :: location := by
  rw [isIdle, Bool.or_eq_false_iff, beq_eq_false_iff_ne, beq_eq_false_iff_ne] at busy
  rw [enter, if_neg (by simp [busy]), if_neg down]

theorem foldl_enter_filter (location : Location) (segments : List String) :
    (segments.filter fun segment => !isIdle segment).foldl enter location = segments.foldl enter location := by
  induction segments generalizing location with
  | nil => rfl
  | cons segment rest ih =>
    cases idle : isIdle segment with
    | true => simp [idle, enter_of_isIdle idle, ih]
    | false => simp [idle, ih]

end Location

theorem IsFileName.isIdle {name : String} (plain : IsFileName name) : isIdle name = false := by
  have notIn := plain.1
  simp only [List.mem_cons, List.not_mem_nil, or_false, not_or] at notIn
  simp [Compendium.isIdle, notIn]

namespace Path

/-- The segments that lead somewhere. -/
def steps (path : Path) : List String :=
  path.segments.filter fun segment => !isIdle segment

/-- Where a path leads to if everything on its way is a directory. -/
def location (path : Path) : Location :=
  path.segments.foldl Location.enter (FileTree.startOf path)

theorem location_eq (path : Path) : path.location = path.steps.foldl Location.enter (FileTree.startOf path) :=
  (Location.foldl_enter_filter _ _).symm

/-- The slash that an absolute path starts with. -/
def rootMark (absolute : Bool) : String :=
  if absolute then "/" else ""

section
variable {path : Path} {absolute : Bool} {body : String}

theorem isAbsolute_of_text (text : path.text = rootMark absolute ++ body)
    (relative : absolute = false → body.toList.head? ≠ some '/') : path.isAbsolute = absolute := by
  cases absolute with
  | true => simp [isAbsolute, text, rootMark]
  | false => simpa [isAbsolute, text, rootMark] using relative rfl

theorem segments_of_text (text : path.text = rootMark absolute ++ body)
    (relative : absolute = false → body.toList.head? ≠ some '/') : path.segments = Text.splitOn body "/" := by
  rw [segments, isAbsolute_of_text text relative, text]
  cases absolute with
  | true =>
    have cut := Text.splitOn_slash_append "" body
    rw [Text.splitOn_slash_empty, String.empty_append] at cut
    change List.drop 1 (Text.splitOn ("/" ++ body) "/") = _
    rw [cut]
    rfl
  | false => simp [rootMark]

theorem exists_body (path : Path) : ∃ body : String, path.text = rootMark path.isAbsolute ++ body ∧
    (path.isAbsolute = false → body.toList.head? ≠ some '/') := by
  cases absolute : path.isAbsolute with
  | false => exact ⟨path.text, by simp [rootMark], fun _ => by simpa [isAbsolute] using absolute⟩
  | true =>
    rw [isAbsolute, beq_iff_eq, List.head?_eq_some_iff] at absolute
    obtain ⟨rest, spelled⟩ := absolute
    refine ⟨String.ofList rest, ?_, nofun⟩
    apply String.toList_inj.mp
    simp [rootMark, spelled]

theorem segments_of_empty (empty : path.text = "") : path.segments = [""] := by
  have text : path.text = rootMark false ++ "" := empty
  rw [segments_of_text text (by simp), Text.splitOn_slash_empty]

theorem segments_ne_nil (path : Path) : path.segments ≠ [] := by
  obtain ⟨body, text, relative⟩ := path.exists_body
  rw [segments_of_text text relative]
  exact Text.splitOn_slash_ne_nil body

theorem slash_not_mem_segments (path : Path) : ∀ segment ∈ path.segments, '/' ∉ segment.toList := by
  obtain ⟨body, text, relative⟩ := path.exists_body
  rw [segments_of_text text relative]
  exact Text.slash_not_mem_splitOn body

/-- Segments without slashes are those of the path that is made of them. A relative path starts with one that is not
empty. -/
theorem ofSegments_spec {segments : List String} (slashless : ∀ segment ∈ segments, '/' ∉ segment.toList)
    (relative : absolute = false → segments.head? ≠ some "") :
    (ofSegments absolute segments).isAbsolute = absolute ∧
    (ofSegments absolute segments).segments = if segments = [] then [""] else segments := by
  have text : (ofSegments absolute segments).text = rootMark absolute ++ Text.join "/" segments := rfl
  have start : absolute = false → (Text.join "/" segments).toList.head? ≠ some '/' := by
    intro isRelative
    cases segments with
    | nil => simp [Text.join]
    | cons first rest =>
      have filled : first ≠ "" := fun same => relative isRelative (by simp [same])
      obtain ⟨c, others, spelled⟩ := List.exists_cons_of_ne_nil (String.toList_eq_nil_iff.not.mpr filled)
      have slash : c ≠ '/' := by
        rintro rfl
        exact slashless first (by simp) (by simp [spelled])
      cases rest <;> simp [Text.join, String.toList_intercalate, spelled, slash]
  refine ⟨isAbsolute_of_text text start, ?_⟩
  rw [segments_of_text text start]
  split
  · next empty =>
    subst empty
    exact Text.splitOn_slash_empty
  · next filled =>
    have parted : "/".toList = [] ++ '/' :: [] := rfl
    exact Text.splitOn_join parted (by simp) filled slashless

theorem not_isAbsolute_of_isFileName {name : String} (plain : IsFileName name) :
    (Path.mk name).isAbsolute = false := by
  rw [isAbsolute, beq_eq_false_iff_ne]
  intro same
  exact plain.2 (List.mem_of_head? same)

theorem text_child (base : Path) {name : String} (plain : IsFileName name) :
    (base.child name).text =
      if base.text = "" ∨ base.text.toList.getLast? = some '/' then base.text ++ name else base.text ++ "/" ++ name := by
  rw [child, below, not_isAbsolute_of_isFileName plain]
  split
  · contradiction
  · split <;> rfl

theorem child_of_front {base : Path} {front name : String} {lead : List String}
    (start : base.isAbsolute = false → front.toList.head? ≠ some '/') (plain : IsFileName name)
    (spelled : (base.child name).text = rootMark base.isAbsolute ++ (front ++ name))
    (split : Text.splitOn (front ++ name) "/" = lead ++ [name]) :
    (base.child name).isAbsolute = base.isAbsolute ∧ (base.child name).segments = lead ++ [name] := by
  have relative : base.isAbsolute = false → (front ++ name).toList.head? ≠ some '/' := by
    intro isRelative
    have slash : '/' ∉ name.toList := plain.2
    cases shape : front.toList with
    | nil => simpa [shape] using fun same => slash (List.mem_of_head? same)
    | cons c rest => simpa [shape] using start isRelative
  exact ⟨isAbsolute_of_text spelled relative, (segments_of_text spelled relative).trans split⟩

/-- The segments of a child are those of its base, less an empty one at the end, and its name. -/
theorem child_spec (base : Path) : ∃ lead, (base.segments = lead ∨ base.segments = lead ++ [""]) ∧
    ∀ name, IsFileName name →
      (base.child name).isAbsolute = base.isAbsolute ∧ (base.child name).segments = lead ++ [name] := by
  obtain ⟨body, text, relative⟩ := base.exists_body
  have segments := segments_of_text text relative
  cases shape : body.toList.reverse with
  | nil =>
    have empty : body = "" := by simpa using shape
    subst empty
    have closed : base.text = "" ∨ base.text.toList.getLast? = some '/' := by
      rw [text]
      cases base.isAbsolute <;> simp [rootMark]
    refine ⟨[], .inr (segments.trans Text.splitOn_slash_empty), fun name plain => child_of_front relative plain ?_ ?_⟩
    · rw [text_child base plain, if_pos closed, text, String.append_empty, String.empty_append]
    · rw [String.empty_append, Text.splitOn_slash_of_not_mem plain.2, List.nil_append]
  | cons c rest =>
    have split : body = String.ofList rest.reverse ++ String.ofList [c] := by
      apply String.toList_inj.mp
      simpa using congrArg List.reverse shape
    have last : base.text.toList.getLast? = some c := by simp [text, split]
    by_cases slash : c = '/'
    · subst slash
      have cut := Text.splitOn_slash_append (String.ofList rest.reverse) ""
      rw [String.append_empty, Text.splitOn_slash_empty] at cut
      refine ⟨Text.splitOn (String.ofList rest.reverse) "/", .inr ?_, fun name plain => child_of_front relative plain ?_ ?_⟩
      · rw [segments, split]
        exact cut
      · rw [text_child base plain, if_pos (.inr last), text, String.append_assoc]
      · rw [split]
        exact Text.splitOn_slash_behind _ plain.2
    · have apart : ¬ (base.text = "" ∨ base.text.toList.getLast? = some '/') := by
        rw [last]
        simp [text, split, slash]
      have start : base.isAbsolute = false → (body ++ "/").toList.head? ≠ some '/' := by
        intro isRelative
        cases spelled : body.toList with
        | nil => simp [spelled] at shape
        | cons d others => simpa [spelled] using relative isRelative
      refine ⟨base.segments, .inl rfl, fun name plain => child_of_front start plain ?_ ?_⟩
      · rw [text_child base plain, if_neg apart, text]
        simp only [String.append_assoc]
      · rw [segments]
        exact Text.splitOn_slash_behind body plain.2

end

/-- A name leads from one path to another one. Idle segments may stand before it. -/
structure Leads (base : Path) (name : String) (path : Path) : Prop where
  absolute : path.isAbsolute = base.isAbsolute
  named : name ≠ ""
  slashless : '/' ∉ name.toList
  segments : ∃ lead, path.segments = lead ++ [name] ∧
    (lead.filter fun segment => !isIdle segment) = base.steps

theorem leads_child (base : Path) {name : String} (plain : IsFileName name) : base.Leads name (base.child name) := by
  obtain ⟨lead, same, each⟩ := base.child_spec
  obtain ⟨absolute, segments⟩ := each name plain
  refine ⟨absolute, plain.ne_empty, plain.2, lead, segments, ?_⟩
  rw [steps]
  rcases same with same | same
  · rw [same]
  · simp [same, isIdle]

theorem Leads.startOf {base path : Path} {name : String} (leads : base.Leads name path) :
    FileTree.startOf path = FileTree.startOf base := by
  rw [FileTree.startOf, leads.absolute, FileTree.startOf]

theorem Leads.location {base path : Path} {name : String} (leads : base.Leads name path) :
    path.location = base.location.enter name := by
  obtain ⟨lead, segments, steps⟩ := leads.segments
  rw [Path.location, segments, List.foldl_append, ← Location.foldl_enter_filter _ lead, steps, leads.startOf,
    ← location_eq]
  rfl

/-- No segment at its end is idle, unless the path is a root or empty. -/
def Trimmed (path : Path) : Prop :=
  path.segments = [""] ∨ path.meaningfulReversed = path.segments.reverse

theorem trimmed_child (base : Path) {name : String} (plain : IsFileName name) : (base.child name).Trimmed := by
  obtain ⟨lead, -, each⟩ := base.child_spec
  obtain ⟨-, segments⟩ := each name plain
  have busy := plain.isIdle
  rw [isIdle, Bool.or_eq_false_iff, beq_eq_false_iff_ne, beq_eq_false_iff_ne] at busy
  right
  rw [meaningfulReversed, segments, List.reverse_append, List.reverse_singleton, List.singleton_append, dropIdle,
    if_neg (by simp [busy])]

theorem dropIdle_eq (absolute : Bool) (reversed : List String) : ∃ idle, reversed = idle ++ dropIdle absolute reversed ∧
    (∀ segment ∈ idle, isIdle segment = true) ∧
    dropIdle absolute (dropIdle absolute reversed) = dropIdle absolute reversed := by
  induction reversed with
  | nil => exact ⟨[], rfl, by simp, rfl⟩
  | cons segment rest ih =>
    by_cases drops : segment = "" ∨ (segment = "." ∧ (absolute = true ∨ rest ≠ []))
    · obtain ⟨idle, split, each, again⟩ := ih
      have same : dropIdle absolute (segment :: rest) = dropIdle absolute rest := by
        rw [dropIdle, if_pos drops]
      have isIdle : isIdle segment = true := by
        rcases drops with rfl | ⟨rfl, -⟩ <;> rfl
      rw [same]
      exact ⟨segment :: idle, by rw [List.cons_append, ← split], by simpa [isIdle] using each, again⟩
    · have same : dropIdle absolute (segment :: rest) = segment :: rest := by
        rw [dropIdle, if_neg drops]
      exact ⟨[], by rw [same, List.nil_append], by simp, by rw [same, same]⟩

theorem ne_empty_of_dropIdle_eq {absolute : Bool} {name : String} {rest : List String}
    (kept : dropIdle absolute (name :: rest) = name :: rest) : name ≠ "" := by
  rintro rfl
  obtain ⟨idle, split, -⟩ := dropIdle_eq absolute rest
  rw [dropIdle, if_pos (.inl rfl)] at kept
  have lengths := congrArg List.length split
  rw [kept] at lengths
  simp only [List.length_append, List.length_cons] at lengths
  omega

theorem segments_eq_of_head? {path : Path} (relative : path.isAbsolute = false)
    (empty : path.segments.head? = some "") : path.segments = [""] := by
  obtain ⟨body, text, start⟩ := path.exists_body
  have segments := segments_of_text text start
  obtain ⟨rest, shape⟩ := List.head?_eq_some_iff.mp empty
  cases rest with
  | nil => exact shape
  | cons next rest =>
    have joined := Text.join_splitOn body "/"
    rw [← segments, shape] at joined
    have slash : body.toList.head? = some '/' := by
      rw [← joined]
      simp [Text.join, String.toList_intercalate]
    exact absurd slash (start relative)

/-- A trimmed path is a root, empty, or led to from its parent by its last segment. -/
theorem Trimmed.cases {path : Path} (trimmed : path.Trimmed) :
    (path.segments = [""] ∧ path.parent? = none) ∨
    ∃ parent name, path.parent? = some parent ∧ parent.Trimmed ∧ parent.Leads name path := by
  by_cases root : path.segments = [""]
  · left
    refine ⟨root, ?_⟩
    rw [parent?, meaningfulReversed, root]
    rfl
  right
  have kept := trimmed.resolve_left root
  obtain ⟨name, rest, reversed⟩ := List.exists_cons_of_ne_nil (List.reverse_eq_nil_iff.not.mpr path.segments_ne_nil)
  rw [meaningfulReversed, reversed] at kept
  obtain ⟨idle, split, each, again⟩ := dropIdle_eq path.isAbsolute rest
  generalize shape : dropIdle path.isAbsolute rest = busy at split again
  have segments : path.segments = busy.reverse ++ idle.reverse ++ [name] := by
    rw [← List.reverse_reverse path.segments, reversed, split]
    simp
  have slashless : ∀ segment ∈ busy.reverse, '/' ∉ segment.toList := by
    intro segment member
    exact path.slash_not_mem_segments segment (by simp [segments, List.mem_reverse.mp member])
  have relative : path.isAbsolute = false → busy.reverse.head? ≠ some "" := by
    intro isRelative empty
    exact root (segments_eq_of_head? isRelative (by simp [segments, List.head?_append, empty]))
  obtain ⟨absolute, same⟩ := ofSegments_spec slashless relative
  have slash : '/' ∉ name.toList := path.slash_not_mem_segments name (by simp [segments])
  have idle : (idle.reverse.filter fun segment => !isIdle segment) = [] := by
    rw [List.filter_eq_nil_iff]
    intro segment member
    simp [each segment (List.mem_reverse.mp member)]
  have parent : path.parent? = some (ofSegments path.isAbsolute busy.reverse) := by
    rw [parent?, meaningfulReversed, reversed, kept]
    simp only [shape]
  refine ⟨_, name, parent, ?_, absolute.symm, ne_empty_of_dropIdle_eq kept, slash, _, segments, ?_⟩
  · by_cases empty : busy = []
    · exact .inl (by rw [same, if_pos (by simp [empty])])
    · right
      rw [meaningfulReversed, same, absolute, if_neg (by simp [empty]), List.reverse_reverse, again]
  · rw [List.filter_append, idle, List.append_nil, steps, same]
    by_cases empty : busy = []
    · simp [empty, isIdle]
    · simp [empty]

/-- All children of a path have the same parent. -/
theorem parent?_child (base : Path) : ∃ parent : Path, ∀ name, IsFileName name →
    (base.child name).parent? = some parent ∧ parent.Trimmed ∧ parent.Leads name (base.child name) := by
  obtain ⟨lead, -, each⟩ := base.child_spec
  refine ⟨ofSegments base.isAbsolute (dropIdle base.isAbsolute lead.reverse).reverse, ?_⟩
  intro name plain
  obtain ⟨absolute, segments⟩ := each name plain
  have trimmed := base.trimmed_child plain
  have last : ∀ segment, (base.child name).segments.getLast? = some segment → segment = name := by
    intro segment same
    rw [segments, List.getLast?_concat, Option.some_inj] at same
    exact same.symm
  have root : (base.child name).segments ≠ [""] :=
    fun same => plain.ne_empty (last "" (by rw [same]; rfl)).symm
  have parent : (base.child name).parent? =
      some (ofSegments base.isAbsolute (dropIdle base.isAbsolute lead.reverse).reverse) := by
    rw [parent?, trimmed.resolve_left root, segments, absolute]
    simp
  rcases trimmed.cases with ⟨same, -⟩ | ⟨other, segment, found, above, leads⟩
  · exact absurd same root
  · obtain rfl := Option.some.inj (found.symm.trans parent)
    obtain ⟨front, split, -⟩ := leads.segments
    obtain rfl := last segment (by simp [split])
    exact ⟨parent, above, leads⟩

end Path
end Compendium
