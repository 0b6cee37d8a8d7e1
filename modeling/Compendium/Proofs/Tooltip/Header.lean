import Compendium.Proofs.Tooltip.Symbols
import Compendium.Tooltip.ItemText

/-! Header lines read symbol by symbol. Only the tags of headers are kept for the reading, and the first opening tag, the
first colon behind it and the first closing tag behind that take the line apart. -/

set_option autoImplicit false
namespace Compendium

namespace Markup.Symbol

/-- Whether a symbol is the tag, in any letter case. -/
def spells (tag : List Char) (symbol : Symbol) : Bool :=
  Text.eqIgnoringAsciiCase symbol.written tag

def opensHeader (symbol : Symbol) : Bool :=
  symbol.spells ItemText.openTag

def closesHeader (symbol : Symbol) : Bool :=
  symbol.spells ItemText.closeTag

def isColon : Symbol → Bool
  | .char c => ItemText.isColon c
  | .tag _ => false

def isHeaderTag (symbol : Symbol) : Bool :=
  ItemText.isHeaderTag symbol.written

/-- Characters are kept, and of the tags those of headers. -/
def isKept : Symbol → Bool
  | .char _ => true
  | .tag inner => (Symbol.tag inner).isHeaderTag

variable {symbol : Symbol}

theorem isHeaderTag_of_opensHeader (opens : symbol.opensHeader = true) : symbol.isHeaderTag = true :=
  Bool.or_eq_true_iff.mpr (.inl opens)

theorem isHeaderTag_of_closesHeader (closes : symbol.closesHeader = true) : symbol.isHeaderTag = true :=
  Bool.or_eq_true_iff.mpr (.inr closes)

theorem isHeaderTag_char (c : Char) : (Symbol.char c).isHeaderTag = false := by
  simp [isHeaderTag, ItemText.isHeaderTag, Text.eqIgnoringAsciiCase, written, ItemText.openTag, ItemText.closeTag]

theorem exists_tag (header : symbol.isHeaderTag = true) : ∃ inner, symbol = .tag inner := by
  cases symbol with
  | char c =>
    rw [isHeaderTag_char] at header
    cases header
  | tag inner => exact ⟨inner, rfl⟩

theorem isKept_of_isHeaderTag (header : symbol.isHeaderTag = true) : symbol.isKept = true := by
  obtain ⟨inner, rfl⟩ := exists_tag header
  exact header

theorem isHeaderTag_and_isKept (symbol : Symbol) : (symbol.isHeaderTag && symbol.isKept) = symbol.isHeaderTag := by
  cases symbol with
  | char c => exact Bool.and_true _
  | tag inner => exact Bool.and_self _

end Markup.Symbol

namespace ItemText
open Markup

theorem closing_char : Text.unreachedRanges.contains '>' = true := by
  decide

theorem opening_char : Text.unreachedRanges.contains '<' = true := by
  decide

theorem cutTag?_eq {inner : List Char} (absent : '>' ∉ inner) (after : List Char) :
    cutTag? (inner ++ '>' :: after) = some (inner ++ ['>'], after) := by
  induction inner with
  | nil => rfl
  | cons c rest ih =>
    rw [List.mem_cons, not_or] at absent
    rw [List.cons_append, cutTag?, if_neg (Ne.symm absent.1), ih absent.2]
    rfl

theorem cutTag?_eq_none {text : List Char} (absent : '>' ∉ text) : cutTag? text = none := by
  induction text with
  | nil => rfl
  | cons c rest ih =>
    rw [List.mem_cons, not_or] at absent
    rw [cutTag?, if_neg (Ne.symm absent.1), ih absent.2]
    rfl

theorem keepHeaders_char {c : Char} {rest : List Char} (literal : c = '<' → '>' ∉ rest) :
    keepHeaders (c :: rest) = c :: keepHeaders rest := by
  rw [keepHeaders]
  split
  · next bracket =>
    have none := cutTag?_eq_none (literal bracket)
    split
    · next tag after found =>
      rw [none] at found
      cases found
    · rfl
  · rfl

theorem keepHeaders_tag {inner : List Char} (absent : '>' ∉ inner) (after : List Char) :
    keepHeaders ('<' :: (inner ++ '>' :: after)) =
      (if isHeaderTag ('<' :: (inner ++ ['>'])) then '<' :: (inner ++ ['>']) else []) ++ keepHeaders after := by
  have found := cutTag?_eq absent after
  rw [keepHeaders, if_pos rfl]
  split
  · next tag other same =>
    obtain ⟨rfl, rfl⟩ := Prod.mk.inj (Option.some.inj (found.symm.trans same))
    rfl
  · next none =>
    rw [found] at none
    cases none

theorem keepHeaders_write {symbols : List Symbol} (legible : Legible symbols) :
    keepHeaders (write symbols) = write (symbols.filter Symbol.isKept) := by
  induction symbols with
  | nil => rw [write_nil, keepHeaders, List.filter_nil, write_nil]
  | cons symbol rest ih =>
    cases symbol with
    | char c => rw [write_char, List.filter_cons_of_pos rfl, write_char, ← ih legible.2, keepHeaders_char legible.1]
    | tag inner =>
      rw [write_tag, keepHeaders_tag legible.1, ih legible.2]
      by_cases header : isHeaderTag ('<' :: (inner ++ ['>'])) = true
      · rw [if_pos header, List.filter_cons_of_pos (show (Symbol.tag inner).isKept = true from header), write_tag]
        simp
      · rw [if_neg header, List.filter_cons_of_neg (show ¬ (Symbol.tag inner).isKept = true from header), List.nil_append]

theorem legible_kept (text : List Char) : Legible ((read text).filter Symbol.isKept) :=
  (legible_read text).sublist List.filter_sublist

theorem keepHeaders_eq (text : List Char) : keepHeaders text = write ((read text).filter Symbol.isKept) := by
  rw [← keepHeaders_write (legible_read text), write_read]

/-- What stands before and after the first item of a kind. -/
def splitAt? {α : Type} (isMark : α → Bool) : List α → Option (List α × List α)
  | [] => none
  | item :: rest =>
    if isMark item then some ([], rest)
    else (splitAt? isMark rest).map fun (before, after) => (item :: before, after)

theorem splitAt?_eq_some_iff {α : Type} {isMark : α → Bool} {items before after : List α} :
    splitAt? isMark items = some (before, after) ↔
      ∃ item, items = before ++ item :: after ∧ isMark item = true ∧ ∀ other ∈ before, isMark other = false := by
  induction items generalizing before with
  | nil => simp [splitAt?]
  | cons item rest ih =>
    rw [splitAt?]
    split
    · next found =>
      constructor
      · rintro same
        obtain ⟨rfl, rfl⟩ := Prod.mk.inj (Option.some.inj same)
        exact ⟨item, rfl, found, by simp⟩
      · rintro ⟨mark, same, marked, free⟩
        cases before with
        | nil => rw [(List.cons.inj same).2]
        | cons first others =>
          have unmarked := free first List.mem_cons_self
          rw [← (List.cons.inj same).1, found] at unmarked
          cases unmarked
    · next passed =>
      rw [Option.map_eq_some_iff]
      constructor
      · rintro ⟨⟨others, last⟩, found, same⟩
        obtain ⟨rfl, rfl⟩ := Prod.mk.inj same
        obtain ⟨mark, rfl, marked, free⟩ := ih.mp found
        refine ⟨mark, rfl, marked, List.forall_mem_cons.mpr ⟨?_, free⟩⟩
        exact Bool.eq_false_iff.mpr passed
      · rintro ⟨mark, same, marked, free⟩
        cases before with
        | nil =>
          rw [← (List.cons.inj same).1] at marked
          exact absurd marked passed
        | cons first others =>
          obtain ⟨rfl, rfl⟩ := List.cons.inj same
          refine ⟨(others, after), ih.mpr ⟨mark, rfl, marked, ?_⟩, rfl⟩
          exact fun other member => free other (List.mem_cons_of_mem _ member)

theorem splitAt?_eq_none {α : Type} {isMark : α → Bool} {items : List α} (none : splitAt? isMark items = none) :
    ∀ item ∈ items, isMark item = false := by
  induction items with
  | nil => simp
  | cons item rest ih =>
    rw [splitAt?] at none
    split at none
    · cases none
    · next passed =>
      rw [Option.map_eq_none_iff] at none
      exact List.forall_mem_cons.mpr ⟨Bool.eq_false_iff.mpr passed, ih none⟩

section
variable {name : List Char}

/-- Whether a text starts with a tag is decided where the first bracket closes. -/
theorem take_spells (shut : '>' ∉ name) {inner : List Char} (absent : '>' ∉ inner) (after : List Char) :
    Text.eqIgnoringAsciiCase ((inner ++ '>' :: after).take (name ++ ['>']).length) (name ++ ['>']) =
      Text.eqIgnoringAsciiCase (inner ++ ['>']) (name ++ ['>']) := by
  rw [Bool.eq_iff_iff, Text.eqIgnoringAsciiCase_iff, Text.eqIgnoringAsciiCase_iff]
  induction inner generalizing name with
  | nil =>
    cases name with
    | nil => simp
    | cons d others =>
      rw [List.mem_cons, not_or] at shut
      have apart : '>' ≠ d.toLower := fun same => shut.1 (Text.eq_of_toLower_eq closing_char same.symm).symm
      simp [apart]
  | cons c rest ih =>
    rw [List.mem_cons, not_or] at absent
    cases name with
    | nil =>
      have apart : c.toLower ≠ '>' := fun same => absent.1 (Text.eq_of_toLower_eq closing_char same).symm
      simp [apart]
    | cons d others =>
      rw [List.mem_cons, not_or] at shut
      have tails := ih shut.2 absent.2
      simp only [List.cons_append, List.length_cons, List.take_succ_cons, List.map_cons, List.cons.injEq, tails]

theorem not_spells_char (c : Char) (rest : List Char) : (Symbol.char c).spells ('<' :: (name ++ '>' :: rest)) = false := by
  rw [Symbol.spells, Bool.eq_false_iff, ne_eq, Text.eqIgnoringAsciiCase_iff]
  intro same
  simpa [Symbol.written] using congrArg List.length same

/-- A bracket that opens no tag starts none that is looked for. -/
theorem not_spells_start {c : Char} {rest : List Char} (literal : c = '<' → '>' ∉ rest) :
    Text.eqIgnoringAsciiCase ((c :: rest).take ('<' :: (name ++ ['>'])).length) ('<' :: (name ++ ['>'])) = false := by
  rw [Bool.eq_false_iff, ne_eq, Text.eqIgnoringAsciiCase_iff]
  intro same
  have bracket : c = '<' := by
    rw [List.length_cons, List.take_succ_cons, List.map_cons, List.map_cons] at same
    exact Text.eq_of_toLower_eq opening_char (List.cons.inj same).1
  have closed : '>' ∈ ('<' :: (name ++ ['>'])).map Char.toLower :=
    List.mem_map.mpr ⟨'>', by simp, rfl⟩
  rw [← same] at closed
  obtain ⟨d, taken, lower⟩ := List.mem_map.mp closed
  obtain rfl := Text.eq_of_toLower_eq closing_char lower
  rcases List.mem_cons.mp (List.mem_of_mem_take taken) with here | later
  · exact absurd (here.trans bracket) (by decide)
  · exact literal bracket later

theorem splitAtTag?_append {passed : List Char} (absent : '<' ∉ passed) (others rest : List Char) :
    splitAtTag? ('<' :: others) (passed ++ rest) =
      (splitAtTag? ('<' :: others) rest).map fun (before, after) => (passed ++ before, after) := by
  induction passed with
  | nil => simp
  | cons c passed ih =>
    rw [List.mem_cons, not_or] at absent
    have elsewhere :
        Text.eqIgnoringAsciiCase ((c :: (passed ++ rest)).take ('<' :: others).length) ('<' :: others) = false := by
      rw [Bool.eq_false_iff, ne_eq, Text.eqIgnoringAsciiCase_iff, List.length_cons, List.take_succ_cons, List.map_cons,
        List.map_cons]
      intro same
      exact absent.1 (Text.eq_of_toLower_eq opening_char (List.cons.inj same).1).symm
    rw [List.cons_append, splitAtTag?, elsewhere, ih absent.2]
    simp [Option.map_map, Function.comp_def]

theorem isHeaderTag_iff (tag : List Char) :
    isHeaderTag tag = true ↔ tag.map Char.toLower = openTag ∨ tag.map Char.toLower = closeTag := by
  rw [isHeaderTag, Bool.or_eq_true, Text.eqIgnoringAsciiCase_iff, Text.eqIgnoringAsciiCase_iff]
  rfl

theorem not_mem_of_isKept {inner : List Char} (kept : (Symbol.tag inner).isKept = true) : '<' ∉ inner := by
  intro member
  have lower : '<' ∈ (inner ++ ['>']).map Char.toLower :=
    List.mem_map.mpr ⟨'<', List.mem_append_left _ member, rfl⟩
  rcases (isHeaderTag_iff _).mp kept with opens | closes
  · rw [(List.cons.inj opens).2] at lower
    exact absurd lower (by decide)
  · rw [(List.cons.inj closes).2] at lower
    exact absurd lower (by decide)

theorem splitAtTag?_write (shut : '>' ∉ name) {symbols : List Symbol} (legible : Legible symbols)
    (kept : ∀ symbol ∈ symbols, symbol.isKept = true) : splitAtTag? ('<' :: (name ++ ['>'])) (write symbols) =
      (splitAt? (Symbol.spells ('<' :: (name ++ ['>']))) symbols).map fun (before, after) => (write before, write after) := by
  induction symbols with
  | nil => rfl
  | cons symbol rest ih =>
    have later := fun legible => ih legible fun other member => kept other (List.mem_cons_of_mem _ member)
    cases symbol with
    | char c =>
      rw [write_char, splitAtTag?, not_spells_start legible.1, later legible.2, splitAt?, not_spells_char]
      simp [Option.map_map, Function.comp_def]
    | tag inner =>
      have decided : Text.eqIgnoringAsciiCase (('<' :: (inner ++ '>' :: write rest)).take ('<' :: (name ++ ['>'])).length)
          ('<' :: (name ++ ['>'])) = (Symbol.tag inner).spells ('<' :: (name ++ ['>'])) := by
        have same := take_spells shut legible.1 (write rest)
        simpa [Text.eqIgnoringAsciiCase, Symbol.spells, Symbol.written] using same
      rw [write_tag, splitAtTag?, decided, splitAt?]
      split
      · next spells =>
        rw [Symbol.spells, Text.eqIgnoringAsciiCase_iff] at spells
        have lengths : inner.length = name.length := by
          simpa [Symbol.written] using congrArg List.length spells
        simp [lengths.symm]
      · -- no tag that is looked for starts inside of one that is kept
        have passed : '<' ∉ inner ++ ['>'] := by
          rw [List.mem_append, not_or]
          exact ⟨not_mem_of_isKept (kept _ List.mem_cons_self), by decide⟩
        have skipped := splitAtTag?_append passed (name ++ ['>']) (write rest)
        rw [List.append_assoc, List.singleton_append] at skipped
        rw [skipped, later legible.2]
        simp [Option.map_map, Function.comp_def]

end

theorem lower_of_mem_headerTag {tag : List Char} (header : isHeaderTag tag = true) {c : Char} (member : c ∈ tag) :
    c.toLower ∈ closeTag := by
  have lower : c.toLower ∈ tag.map Char.toLower := List.mem_map_of_mem member
  rcases (isHeaderTag_iff tag).mp header with opens | closes
  · rw [opens] at lower
    exact (by decide : openTag ⊆ closeTag) lower
  · rwa [closes] at lower

theorem isColon_write {symbols : List Symbol} (kept : ∀ symbol ∈ symbols, symbol.isKept = true)
    (free : ∀ symbol ∈ symbols, symbol.isColon = false) : ∀ c ∈ write symbols, isColon c = false := by
  intro c member
  obtain ⟨symbol, inside, written⟩ := List.mem_flatMap.mp member
  cases symbol with
  | char d =>
    obtain rfl := List.mem_singleton.mp written
    exact free _ inside
  | tag inner =>
    have lower := lower_of_mem_headerTag (kept _ inside) written
    rw [Bool.eq_false_iff, isColon, ne_eq, Bool.or_eq_true, beq_iff_eq, beq_iff_eq]
    rintro (rfl | rfl)
    · exact absurd lower (by decide)
    · exact absurd lower (by decide)

/-- A line taken apart at its first header. -/
structure Header where
  front : List Symbol
  opening : Symbol
  kind : List Symbol
  colon : Char
  name : List Symbol
  closing : Symbol
  desc : List Symbol
  opens : opening.opensHeader = true
  beforeOpening : ∀ symbol ∈ front, symbol.opensHeader = false
  divides : isColon colon = true
  beforeColon : ∀ symbol ∈ kind, symbol.isColon = false
  closes : closing.closesHeader = true
  beforeClosing : ∀ symbol ∈ name, symbol.closesHeader = false

def trimmed (symbols : List Symbol) : String :=
  String.ofList (Text.trim (write symbols))

namespace Header

def symbols (header : Header) : List Symbol :=
  header.front ++ header.opening ::
    (header.kind ++ .char header.colon :: (header.name ++ header.closing :: header.desc))

def entry (header : Header) : String × Section :=
  (Text.lower (trimmed header.kind), ⟨trimmed header.name, trimmed header.desc⟩)

end Header

theorem write_at_colon {symbols kind rest : List Symbol} (kept : ∀ symbol ∈ symbols, symbol.isKept = true)
    (found : splitAt? Symbol.isColon symbols = some (kind, rest)) :
    (write symbols).takeWhile (fun c => !isColon c) = write kind ∧
      ∃ colon, (write symbols).dropWhile (fun c => !isColon c) = colon :: write rest := by
  obtain ⟨symbol, rfl, marked, free⟩ := splitAt?_eq_some_iff.mp found
  cases symbol with
  | tag inner => cases marked
  | char colon =>
    have before : ∀ c ∈ write kind, (!isColon c) = true := by
      intro c member
      rw [isColon_write (fun other inside => kept other (List.mem_append_left _ inside)) free c member]
      rfl
    have stop : (!isColon colon) = false := by
      rw [show isColon colon = true from marked]
      rfl
    rw [write_append, write_char, List.takeWhile_append_of_pos before, List.dropWhile_append_of_pos before,
      List.takeWhile_cons, List.dropWhile_cons, stop]
    exact ⟨List.append_nil _, colon, rfl⟩

theorem write_without_colon {symbols : List Symbol} (kept : ∀ symbol ∈ symbols, symbol.isKept = true)
    (none : splitAt? Symbol.isColon symbols = none) : (write symbols).dropWhile (fun c => !isColon c) = [] := by
  rw [List.dropWhile_eq_nil_iff]
  intro c member
  rw [isColon_write kept (splitAt?_eq_none none) c member]
  rfl

/-- A header line read from its symbols. -/
def readSymbols? (symbols : List Symbol) : Option (String × Section) := do
  let (_, body) ← splitAt? Symbol.opensHeader symbols
  let (kind, afterColon) ← splitAt? Symbol.isColon body
  let (name, desc) ← splitAt? Symbol.closesHeader afterColon
  return (Text.lower (trimmed kind), ⟨trimmed name, trimmed desc⟩)

theorem readHeader?_write {symbols : List Symbol} (legible : Legible symbols)
    (kept : ∀ symbol ∈ symbols, symbol.isKept = true) : readHeader? (write symbols) = readSymbols? symbols := by
  have opening : splitAtTag? openTag (write symbols) =
      (splitAt? Symbol.opensHeader symbols).map fun (before, after) => (write before, write after) :=
    splitAtTag?_write (by decide : '>' ∉ ['h', '1']) legible kept
  rw [readHeader?, readSymbols?, opening]
  cases found : splitAt? Symbol.opensHeader symbols with
  | none => rfl
  | some pair =>
    obtain ⟨front, body⟩ := pair
    obtain ⟨symbol, rfl, -, -⟩ := splitAt?_eq_some_iff.mp found
    have bodyLegible : Legible body := legible.sublist (by simp)
    have bodyKept : ∀ other ∈ body, other.isKept = true := fun other member => kept other (by simp [member])
    simp only [Option.map_some, Option.bind_eq_bind, Option.bind_some]
    cases divided : splitAt? Symbol.isColon body with
    | none =>
      rw [write_without_colon bodyKept divided]
      rfl
    | some pair =>
      obtain ⟨kind, afterColon⟩ := pair
      obtain ⟨before, colon, behind⟩ := write_at_colon bodyKept divided
      obtain ⟨mark, rfl, -, -⟩ := splitAt?_eq_some_iff.mp divided
      have closing : splitAtTag? closeTag (write afterColon) =
          (splitAt? Symbol.closesHeader afterColon).map fun (before, after) => (write before, write after) :=
        splitAtTag?_write (by decide : '>' ∉ ['/', 'h', '1']) (bodyLegible.sublist (by simp))
          fun other member => bodyKept other (by simp [member])
      rw [before, behind]
      simp only [closing, Option.bind_some]
      cases splitAt? Symbol.closesHeader afterColon with
      | none => rfl
      | some pair => rfl

theorem readSymbols?_eq_some_iff {symbols : List Symbol} (entry : String × Section) :
    readSymbols? symbols = some entry ↔ ∃ header : Header, header.symbols = symbols ∧ header.entry = entry := by
  simp only [readSymbols?, Option.bind_eq_bind, Option.bind_eq_some_iff]
  constructor
  · rintro ⟨⟨front, body⟩, first, ⟨kind, afterColon⟩, second, ⟨name, desc⟩, third, same⟩
    obtain ⟨opening, rfl, opens, beforeOpening⟩ := splitAt?_eq_some_iff.mp first
    obtain ⟨mark, rfl, divides, beforeColon⟩ := splitAt?_eq_some_iff.mp second
    obtain ⟨closing, rfl, closes, beforeClosing⟩ := splitAt?_eq_some_iff.mp third
    cases mark with
    | tag inner => cases divides
    | char colon =>
      exact ⟨⟨front, opening, kind, colon, name, closing, desc, opens, beforeOpening, divides, beforeColon, closes,
        beforeClosing⟩, rfl, Option.some.inj same⟩
  · rintro ⟨header, rfl, rfl⟩
    refine ⟨(header.front, _), splitAt?_eq_some_iff.mpr ⟨header.opening, rfl, header.opens, header.beforeOpening⟩,
      (header.kind, _), splitAt?_eq_some_iff.mpr ⟨.char header.colon, rfl, header.divides, header.beforeColon⟩,
      (header.name, header.desc), splitAt?_eq_some_iff.mpr ⟨header.closing, rfl, header.closes, header.beforeClosing⟩, rfl⟩

theorem exists_header {script : Document} {line kind : String} {content : Section}
    (entry : readLine script line = .entry kind content) :
    ∃ header : Header, header.symbols = (read line.toList).filter Symbol.isKept ∧ header.entry = (kind, content) := by
  rw [readLine] at entry
  split at entry
  · rw [keepHeaders_eq, readHeader?_write (legible_kept _) fun _ => List.of_mem_filter] at entry
    split at entry
    · next found =>
      obtain ⟨rfl, rfl⟩ := LineReading.entry.inj entry
      exact (readSymbols?_eq_some_iff _).mp found
    · cases entry
  · cases entry

/-- What stands before the first opening tag of a header. -/
def beforeHeader (symbols : List Symbol) : List Symbol :=
  symbols.takeWhile fun symbol => !symbol.opensHeader

def fromHeader (symbols : List Symbol) : List Symbol :=
  symbols.dropWhile fun symbol => !symbol.opensHeader

theorem not_kept_or_not_opensHeader (symbol : Symbol) :
    (!symbol.isKept || !symbol.opensHeader) = !symbol.opensHeader := by
  cases opens : symbol.opensHeader with
  | true =>
    rw [Symbol.isKept_of_isHeaderTag (Symbol.isHeaderTag_of_opensHeader opens)]
    rfl
  | false => simp

theorem beforeHeader_filter (symbols : List Symbol) :
    beforeHeader (symbols.filter Symbol.isKept) = (beforeHeader symbols).filter Symbol.isKept := by
  simp only [beforeHeader, List.takeWhile_filter, not_kept_or_not_opensHeader]

theorem fromHeader_filter (symbols : List Symbol) :
    fromHeader (symbols.filter Symbol.isKept) = (fromHeader symbols).filter Symbol.isKept := by
  simp only [fromHeader, List.dropWhile_filter, not_kept_or_not_opensHeader]

namespace Header
variable (header : Header)

theorem not_opens_front {symbol : Symbol} (member : symbol ∈ header.front) : (!symbol.opensHeader) = true := by
  rw [header.beforeOpening symbol member]
  rfl

theorem beforeHeader_symbols : beforeHeader header.symbols = header.front := by
  rw [beforeHeader, symbols, List.takeWhile_append_of_pos fun symbol => header.not_opens_front, List.takeWhile_cons,
    header.opens]
  exact List.append_nil _

theorem fromHeader_symbols : fromHeader header.symbols =
    header.opening :: (header.kind ++ .char header.colon :: (header.name ++ header.closing :: header.desc)) := by
  rw [fromHeader, symbols, List.dropWhile_append_of_pos fun symbol => header.not_opens_front, List.dropWhile_cons,
    header.opens]
  rfl

/-- What an entry is made of. -/
def parts : List Symbol :=
  header.kind ++ (header.name ++ header.desc)

theorem parts_sublist : header.parts.Sublist header.symbols := by
  have named : (header.name ++ header.desc).Sublist (header.name ++ header.closing :: header.desc) :=
    (List.Sublist.refl _).append (List.sublist_cons_self _ _)
  exact ((List.Sublist.refl _).append (named.cons _)).cons _ |>.trans (List.sublist_append_right _ _)

end Header

end ItemText
end Compendium
