import Compendium.Proofs.Tooltip.NameFilling
import Mathlib.Data.List.TakeWhile

/-! Names of talents filled from the table of the ability that the talent improves. Every entry with a bonus for the talent fills
a token of its own, and the last of them the token `value` as well. -/

set_option autoImplicit false
namespace Compendium.NameTokens

/-- The signs that a bonus may be shown with. -/
def isSign (c : Char) : Bool :=
  c == '+' || c == '-' || c == 'x'

/-- A value as it is shown, without the run of signs in front of it. -/
structure Unsigned (shown bare : String) : Prop where
  signs : ∃ run : List Char, shown.toList = run ++ bare.toList ∧ ∀ c ∈ run, isSign c = true
  start : ∀ c ∈ bare.toList.head?, isSign c = false

section
variable (talent : String) (linked : Members Document)

/-- The entry is a table, and this is what it holds for the talent. -/
def HasBonus (entry : String × Document) (bonus : Document) : Prop :=
  ∃ members, entry.2 = .table members ∧ Members.at? members talent = some bonus

/-- What the names of tokens stand for in the name of a talent. -/
inductive StandsFor : String → String → Prop where
  | entry {entry : String × Document} {bonus : Document} {bare : String} (member : entry ∈ linked)
      (has : HasBonus talent entry bonus) (shown : Unsigned bonus.display bare) : StandsFor ("bonus_" ++ entry.1) bare
  | shared {entry : String × Document} {bonus : Document} {bare : String}
      (last : IsLast (fun entry => ∃ bonus, HasBonus talent entry bonus) linked entry) (has : HasBonus talent entry bonus)
      (shown : Unsigned bonus.display bare) : StandsFor "value" bare

/-- Neither the names of the entries nor their bonuses for the talent, as they are shown, have braces. -/
def BraceFreeBonuses : Prop :=
  ∀ entry ∈ linked, BraceFree entry.1 ∧ ∀ bonus, HasBonus talent entry bonus → BraceFree bonus.display

/-- An entry with its bonus as it is put in, if it has one. -/
def ownBonus? (entry : String × Document) : Option (String × String) :=
  (entry.2.member? talent).map fun bonus => (entry.1, bareBonus bonus)

/-- All that is put in, under the names of the tokens, in its order. -/
def filledIn : Members String :=
  (bonuses talent linked).map (fun bonus => ("bonus_" ++ bonus.1, bonus.2)) ++
    ((bonuses talent linked).getLast?.map fun bonus => ("value", bonus.2)).toList

end

theorem bareBonus_eq (value : Document) : bareBonus value = String.ofList (value.display.toList.dropWhile isSign) :=
  rfl

theorem unsigned_iff (value : Document) (bare : String) : Unsigned value.display bare ↔ bare = bareBonus value := by
  rw [bareBonus_eq]
  constructor
  · rintro ⟨⟨run, shown, signs⟩, start⟩
    apply String.toList_injective
    rw [String.toList_ofList, shown, List.dropWhile_append_of_pos signs]
    cases spelled : bare.toList with
    | nil => rfl
    | cons c rest =>
      have stays : isSign c = false := start c (by rw [spelled]; rfl)
      exact (List.dropWhile_cons_of_neg (Bool.eq_false_iff.mp stays)).symm
  · rintro rfl
    refine ⟨⟨value.display.toList.takeWhile isSign, ?_, fun c member => List.mem_takeWhile_imp member⟩, ?_⟩
    · rw [String.toList_ofList]
      exact List.takeWhile_append_dropWhile.symm
    · intro c first
      have stops := List.head?_dropWhile_not isSign value.display.toList
      rw [String.toList_ofList, Option.mem_def] at first
      rwa [first] at stops

theorem BraceFree.unsigned {shown bare : String} (free : BraceFree shown) (unsigned : Unsigned shown bare) : BraceFree bare := by
  obtain ⟨run, split, -⟩ := unsigned.signs
  rw [BraceFree, split] at free
  exact ⟨fun opening => free.1 (List.mem_append_right _ opening), fun closing => free.2 (List.mem_append_right _ closing)⟩

section
variable {talent : String} {linked : Members Document}

theorem member?_eq_some_iff (entry : String × Document) (bonus : Document) :
    entry.2.member? talent = some bonus ↔ HasBonus talent entry bonus := by
  obtain ⟨name, value⟩ := entry
  cases value <;> simp [Document.member?, Document.members?, HasBonus]

theorem ownBonus?_eq_some_iff (entry : String × Document) (name bare : String) : ownBonus? talent entry = some (name, bare) ↔
    name = entry.1 ∧ ∃ bonus, HasBonus talent entry bonus ∧ Unsigned bonus.display bare := by
  simp only [ownBonus?, Option.map_eq_some_iff, member?_eq_some_iff, unsigned_iff, Prod.mk.injEq]
  constructor
  · rintro ⟨bonus, has, rfl, rfl⟩
    exact ⟨rfl, bonus, has, rfl⟩
  · rintro ⟨rfl, bonus, has, rfl⟩
    exact ⟨bonus, has, rfl, rfl⟩

theorem ownBonus?_isSome_iff (entry : String × Document) :
    (ownBonus? talent entry).isSome = true ↔ ∃ bonus, HasBonus talent entry bonus := by
  simp only [ownBonus?, Option.isSome_map, Option.isSome_iff_exists, member?_eq_some_iff]

theorem bonuses_eq (talent : String) (linked : Members Document) : bonuses talent linked = linked.filterMap (ownBonus? talent) :=
  rfl

theorem mem_bonuses_iff (name bare : String) : (name, bare) ∈ bonuses talent linked ↔
    ∃ entry ∈ linked, name = entry.1 ∧ ∃ bonus, HasBonus talent entry bonus ∧ Unsigned bonus.display bare := by
  simp only [bonuses_eq, List.mem_filterMap, ownBonus?_eq_some_iff]

theorem getLast?_bonuses_eq_some_iff (name bare : String) : (bonuses talent linked).getLast? = some (name, bare) ↔
    ∃ entry, IsLast (fun entry => ∃ bonus, HasBonus talent entry bonus) linked entry ∧ name = entry.1 ∧
      ∃ bonus, HasBonus talent entry bonus ∧ Unsigned bonus.display bare := by
  simp only [bonuses_eq, List.getLast?_filterMap, findSome?_reverse_eq_some_iff, ownBonus?_eq_some_iff, ownBonus?_isSome_iff]

theorem mem_filledIn_iff (name bare : String) : (name, bare) ∈ filledIn talent linked ↔ StandsFor talent linked name bare := by
  rw [filledIn, List.mem_append, List.mem_map, Option.mem_toList, Option.map_eq_some_iff]
  constructor
  · rintro (⟨⟨_, _⟩, member, same⟩ | ⟨⟨_, _⟩, last, same⟩)
    · obtain ⟨entry, inside, rfl, bonus, has, shown⟩ := (mem_bonuses_iff _ _).mp member
      obtain ⟨rfl, rfl⟩ := Prod.mk.inj same
      exact .entry inside has shown
    · obtain ⟨entry, last, -, bonus, has, shown⟩ := (getLast?_bonuses_eq_some_iff _ _).mp last
      obtain ⟨rfl, rfl⟩ := Prod.mk.inj same
      exact .shared last has shown
  · rintro (⟨inside, has, shown⟩ | ⟨last, has, shown⟩)
    · exact .inl ⟨(_, _), (mem_bonuses_iff _ _).mpr ⟨_, inside, rfl, _, has, shown⟩, rfl⟩
    · exact .inr ⟨(_, _), (getLast?_bonuses_eq_some_iff _ _).mpr ⟨_, last, rfl, _, has, shown⟩, rfl⟩

theorem distinct_bonuses (distinct : Members.Distinct linked) : Members.Distinct (bonuses talent linked) := by
  have apart : linked.Pairwise fun first second => first.1 ≠ second.1 := List.pairwise_map.mp distinct
  rw [bonuses_eq]
  refine List.pairwise_map.mpr (apart.filterMap _ ?_)
  rintro first second differ ⟨name, bare⟩ one ⟨other, shown⟩ two
  rw [((ownBonus?_eq_some_iff _ _ _).mp one).1, ((ownBonus?_eq_some_iff _ _ _).mp two).1]
  exact differ

/-- No entry has a token of the name that the last bonus is shared under. -/
theorem bonus_ne_value (name : String) : "bonus_" ++ name ≠ "value" := by
  intro same
  have spelled := congrArg String.toList same
  simp at spelled

theorem distinct_filledIn (distinct : Members.Distinct linked) : Members.Distinct (filledIn talent linked) := by
  have own : Members.Distinct ((bonuses talent linked).map fun bonus => ("bonus_" ++ bonus.1, bonus.2)) := by
    have apart := List.pairwise_map.mp (@distinct_bonuses talent linked distinct)
    refine List.pairwise_map.mpr (List.pairwise_map.mpr (apart.imp ?_))
    intro first second differ same
    exact differ (by simpa using same)
  cases last : (bonuses talent linked).getLast? with
  | none => simpa [filledIn, last] using own
  | some bonus =>
    rw [filledIn, last, Members.Distinct, Members.names, List.map_append, List.nodup_append]
    refine ⟨own, List.nodup_singleton "value", ?_⟩
    intro name member other shared
    obtain ⟨_, inside, rfl⟩ := List.mem_map.mp member
    obtain ⟨bonus, -, rfl⟩ := List.mem_map.mp inside
    obtain rfl := List.mem_singleton.mp shared
    exact bonus_ne_value bonus.1

theorem braceFree_filledIn (free : BraceFreeBonuses talent linked) :
    ∀ entry ∈ filledIn talent linked, BraceFree entry.1 ∧ BraceFree entry.2 := by
  rintro ⟨name, bare⟩ member
  rcases (mem_filledIn_iff name bare).mp member with @⟨entry, bonus, _, inside, has, shown⟩ | @⟨entry, bonus, _, last, has, shown⟩
  · obtain ⟨named, valued⟩ := free entry inside
    refine ⟨?_, (valued bonus has).unsigned shown⟩
    simpa [BraceFree] using named
  · have valued := (free entry last.mem).2 bonus has
    exact ⟨(by decide : BraceFree "value"), valued.unsigned shown⟩

theorem fillBonus_eq (talent template : String) (linked : Members Document) : fillBonus talent template linked =
    (filledIn talent linked).foldl (fun text entry => Text.replaceAll text (token entry.1) entry.2) template := by
  rw [filledIn, List.foldl_append, List.foldl_map, fillBonus]
  cases last : (bonuses talent linked).getLast? with
  | none => rfl
  | some bonus => simp

/-- The tokens of a talent are filled with its bonuses, all at once, and nothing else of the template changes. -/
theorem fillBonus_tokens (distinct : Members.Distinct linked) (free : BraceFreeBonuses talent linked) (pieces : List Piece) :
    ∃ values : String → Option String, (∀ name bare, values name = some bare ↔ StandsFor talent linked name bare) ∧
      fillBonus talent (written pieces) linked = String.join (pieces.map (fill values)) := by
  refine ⟨Members.at? (filledIn talent linked), ?_, ?_⟩
  · intro name bare
    rw [Members.at?_eq_some_iff (distinct_filledIn distinct), mem_filledIn_iff]
  · rw [fillBonus_eq, foldl_replaceAll_written (braceFree_filledIn free)]

/-- One name begins another, the last entry has no bonus, and the shared token takes the bonus before it. -/
theorem fillBonus_tokens_shared :
    let linked : Members Document := [("damage", .table [("value", .text "100"), ("unique", .text "+50")]),
      ("damage_pct", .table [("unique", .text "x-2")]), ("radius", .table [("value", .text "300")])]
    let pieces : List Piece := [.token "bonus_damage" (by decide), .text ", " (by decide), .token "bonus_damage_pct" (by decide),
      .text ", " (by decide), .token "bonus_radius" (by decide), .text ", " (by decide), .token "value" (by decide)]
    ∃ values : String → Option String, (∀ name bare, values name = some bare ↔ StandsFor "unique" linked name bare) ∧
      values "bonus_damage" = some "50" ∧ values "value" = some "2" ∧
      fillBonus "unique" (written pieces) linked = String.join (pieces.map (fill values)) ∧
      fillBonus "unique" (written pieces) linked = "50, 2, \x7bs:bonus_radius\x7d, 2" := by
  intro linked pieces
  have distinct : Members.Distinct linked := by
    unfold Members.Distinct
    decide
  have free : BraceFreeBonuses "unique" linked := by
    simp only [BraceFreeBonuses, ← member?_eq_some_iff]
    decide +kernel
  obtain ⟨values, stands, filled⟩ := fillBonus_tokens distinct free pieces
  have damage : Unsigned (Document.text "+50").display "50" := (unsigned_iff _ _).mpr (by decide +kernel)
  have percent : Unsigned (Document.text "x-2").display "2" := (unsigned_iff _ _).mpr (by decide +kernel)
  let improved : String × Document := ("damage_pct", .table [("unique", .text "x-2")])
  have has : HasBonus "unique" improved (.text "x-2") := ⟨_, rfl, rfl⟩
  have last : IsLast (fun entry => ∃ bonus, HasBonus "unique" entry bonus) linked improved := by
    refine ⟨[_], [_], rfl, ⟨_, has⟩, List.forall_mem_singleton.mpr ?_⟩
    simp only [← member?_eq_some_iff]
    rintro ⟨bonus, held⟩
    cases held
  refine ⟨values, stands, ?_, ?_, filled, by decide +kernel⟩
  · exact (stands _ _).mpr (.entry (.head _) ⟨_, rfl, rfl⟩ damage)
  · exact (stands _ _).mpr (.shared last has percent)

end

end Compendium.NameTokens
