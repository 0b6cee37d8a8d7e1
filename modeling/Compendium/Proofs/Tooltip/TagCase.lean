import Compendium.Proofs.Tooltip.HeaderTags
import Compendium.Proofs.Tooltip.Splitting
import Mathlib.Data.List.Forall2
import Mathlib.Logic.Relation

/-! Header tags in another letter case. Whether a line is one with a header is told by an opening tag in small letters; all that
is made of the line after that does not depend on the letter case of the tags. -/

set_option autoImplicit false
namespace Compendium

namespace Markup.Symbol

/-- The symbol with a tag in small letters. -/
def small : Symbol → Symbol
  | .char c => .char c
  | .tag inner => .tag (inner.map Char.toLower)

variable (symbol : Symbol)

theorem spells_small (tag : List Char) : symbol.small.spells tag = symbol.spells tag := by
  cases symbol with
  | char c => rfl
  | tag inner => simp [small, spells, written, Text.eqIgnoringAsciiCase, Function.comp_def]

theorem opensHeader_small : symbol.small.opensHeader = symbol.opensHeader :=
  symbol.spells_small ItemText.openTag

theorem closesHeader_small : symbol.small.closesHeader = symbol.closesHeader :=
  symbol.spells_small ItemText.closeTag

theorem isColon_small : symbol.small.isColon = symbol.isColon := by
  cases symbol with
  | char c => rfl
  | tag inner => rfl

theorem isHeaderTag_small : symbol.small.isHeaderTag = symbol.isHeaderTag :=
  congrArg₂ or symbol.opensHeader_small symbol.closesHeader_small

theorem isKept_small : symbol.small.isKept = symbol.isKept := by
  cases symbol with
  | char c => rfl
  | tag inner => exact isHeaderTag_small (.tag inner)

end Markup.Symbol

namespace ItemText
open Markup

theorem shown_small (symbols : List Symbol) : shown (symbols.map Symbol.small) = shown symbols := by
  unfold shown
  rw [List.filterMap_map]
  congr 1
  funext symbol
  cases symbol with
  | char c => rfl
  | tag inner => rfl

theorem splitAt?_map {α : Type} {isMark : α → Bool} {f : α → α} (keeps : ∀ item, isMark (f item) = isMark item)
    (items : List α) : splitAt? isMark (items.map f) =
      (splitAt? isMark items).map fun (before, after) => (before.map f, after.map f) := by
  induction items with
  | nil => rfl
  | cons item rest ih =>
    simp only [List.map_cons, splitAt?, keeps, ih]
    split
    · rfl
    · simp [Option.map_map, Function.comp_def]

/-- One tag of a header is written with the same letters in another case. -/
inductive RespellsTag : List Char → List Char → Prop where
  | tag (before after : List Char) {tag other : List Char} : isHeaderTag tag = true →
      other.map Char.toLower = tag.map Char.toLower → RespellsTag (before ++ (tag ++ after)) (before ++ (other ++ after))

/-- Any tags of headers are written in another letter case. -/
def Respells : List Char → List Char → Prop :=
  Relation.ReflTransGen RespellsTag

section
variable {tag text other : List Char}

theorem exists_inner (header : isHeaderTag tag = true) : ∃ inner, tag = '<' :: (inner ++ ['>']) := by
  have brackets : ∃ inner, tag.map Char.toLower = '<' :: (inner ++ ['>']) := by
    rcases (isHeaderTag_iff tag).mp header with opens | closes
    · exact ⟨['h', '1'], opens⟩
    · exact ⟨['/', 'h', '1'], closes⟩
  obtain ⟨lower, same⟩ := brackets
  obtain ⟨first, rest, rfl, opening, later⟩ := List.map_eq_cons_iff.mp same
  obtain ⟨inner, last, rfl, rfl, ending⟩ := List.map_eq_append_iff.mp later
  obtain ⟨close, none, rfl, closing, empty⟩ := List.map_eq_cons_iff.mp ending
  obtain rfl := List.map_eq_nil_iff.mp empty
  exact ⟨inner, by rw [Text.eq_of_toLower_eq opening_char opening, Text.eq_of_toLower_eq closing_char closing]⟩

theorem isHeaderTag_congr (same : other.map Char.toLower = tag.map Char.toLower) : isHeaderTag other = isHeaderTag tag := by
  simp only [isHeaderTag, Text.eqIgnoringAsciiCase, same]

theorem not_mem_inner {inner : List Char} (header : (Symbol.tag inner).isHeaderTag = true) {c : Char}
    (outside : c.toLower ∉ ['/', 'h', '1']) : c ∉ inner := by
  intro member
  have lower : c.toLower ∈ inner.map Char.toLower := List.mem_map_of_mem member
  have letters : inner.map Char.toLower = ['h', '1'] ∨ inner.map Char.toLower = ['/', 'h', '1'] := by
    rcases (isHeaderTag_iff _).mp header with opens | closes
    · exact .inl (by simpa using congrArg List.dropLast (List.cons.inj opens).2)
    · exact .inr (by simpa using congrArg List.dropLast (List.cons.inj closes).2)
  rcases letters with opens | closes
  · rw [opens] at lower
    exact outside (List.mem_cons_of_mem _ lower)
  · rw [closes] at lower
    exact outside lower

namespace RespellsTag

theorem of_inner {inner spelled : List Char} (header : (Symbol.tag inner).isHeaderTag = true)
    (same : spelled.map Char.toLower = inner.map Char.toLower) (before after : List Char) :
    RespellsTag (before ++ '<' :: (inner ++ '>' :: after)) (before ++ '<' :: (spelled ++ '>' :: after)) := by
  have step : RespellsTag (before ++ ('<' :: (inner ++ ['>']) ++ after)) (before ++ ('<' :: (spelled ++ ['>']) ++ after)) :=
    .tag before after header (by simp [same])
  simpa using step

/-- What is the same on both sides: what stands around the tag, and the letters of the tag. -/
theorem exists_inner (respells : RespellsTag text other) : ∃ before after inner spelled,
    text = before ++ '<' :: (inner ++ '>' :: after) ∧ other = before ++ '<' :: (spelled ++ '>' :: after) ∧
    (Symbol.tag inner).isHeaderTag = true ∧ (Symbol.tag spelled).isHeaderTag = true ∧
    spelled.map Char.toLower = inner.map Char.toLower := by
  cases respells with
  | @tag before after tag other header same =>
    have also := (isHeaderTag_congr same).trans header
    obtain ⟨inner, rfl⟩ := ItemText.exists_inner header
    obtain ⟨spelled, rfl⟩ := ItemText.exists_inner also
    exact ⟨before, after, inner, spelled, by simp, by simp, header, also, by simpa using same⟩

/-- To show that something becomes of a text that does not depend on the letter case of tags, it is enough to look at one
tag with a text before it and a text behind it. -/
theorem map {f : List Char → List Char} (before' after' : List Char → List Char)
    (parts : ∀ before inner after, (Symbol.tag inner).isHeaderTag = true →
      f (before ++ '<' :: (inner ++ '>' :: after)) = before' before ++ '<' :: (inner ++ '>' :: after' after))
    (respells : RespellsTag text other) : RespellsTag (f text) (f other) := by
  obtain ⟨before, after, inner, spelled, rfl, rfl, header, also, same⟩ := respells.exists_inner
  rw [parts before inner after header, parts before spelled after also]
  exact of_inner header same _ _

theorem map_toLower (respells : RespellsTag text other) : other.map Char.toLower = text.map Char.toLower := by
  cases respells with
  | tag before after header same => simp [same]

theorem trim (respells : RespellsTag text other) : RespellsTag (Text.trim text) (Text.trim other) := by
  apply respells.map Text.trimStart Text.trimEnd
  intro before inner after header
  rw [Text.trim, Text.trimStart_append_cons (by decide), Text.trimEnd_append_cons (by decide), ← List.cons_append,
    Text.trimEnd_append_cons (by decide), List.cons_append]

theorem halvePercents (respells : RespellsTag text other) :
    RespellsTag (Text.replaceAllChars '%' ['%'] ['%'] text) (Text.replaceAllChars '%' ['%'] ['%'] other) := by
  apply respells.map (Text.replaceAllChars '%' ['%'] ['%']) (Text.replaceAllChars '%' ['%'] ['%'])
  intro before inner after header
  have absent : '%' ∉ inner := not_mem_inner header (by decide)
  have kept : Text.replaceAllChars '%' ['%'] ['%'] inner = inner :=
    Text.replaceAllChars_of_not_infix fun inside => absent (inside.subset List.mem_cons_self)
  rw [Text.replaceAllChars_append_cons (by decide), Text.replaceAllChars_append_cons (by decide), kept]

theorem fillTokens (value : String → String) (respells : RespellsTag text other) :
    RespellsTag (TokenGrammar.smallName.fill value (String.ofList text)).toList
      (TokenGrammar.smallName.fill value (String.ofList other)).toList := by
  let filled (text : List Char) := (TokenGrammar.smallName.fill value (String.ofList text)).toList
  apply respells.map filled filled
  intro before inner after header
  have absent : '%' ∉ inner := not_mem_inner header (by decide)
  simp only [filled, TokenGrammar.fill, TokenGrammar.pieces, String.toList_ofList]
  rw [TokenGrammar.cut_append_cons (by decide) (by decide), TokenGrammar.cut_append_cons (by decide) (by decide),
    TokenGrammar.cut_of_not_mem absent]
  simp [List.flatMap_map]

theorem read (respells : RespellsTag text other) :
    (Markup.read other).map Symbol.small = (Markup.read text).map Symbol.small := by
  obtain ⟨before, after, inner, spelled, rfl, rfl, header, also, same⟩ := respells.exists_inner
  obtain ⟨front, opened, tag⟩ := read_append_tag before
  rw [tag inner after (not_mem_inner header (by decide)), tag spelled after (not_mem_inner also (by decide))]
  simp [Symbol.small, same]

theorem append_left (respells : RespellsTag text other) (front : List Char) : RespellsTag (front ++ text) (front ++ other) := by
  cases respells with
  | tag before after header same =>
    have longer := RespellsTag.tag (front ++ before) after header same
    simpa only [List.append_assoc] using longer

theorem holdsHeaderTag (respells : RespellsTag text other) : HoldsHeaderTag text := by
  cases respells with
  | @tag before after tag other header same => exact ⟨tag, header, before, after, List.append_assoc _ _ _⟩

end RespellsTag

namespace Respells

theorem congr {α : Type} {f : List Char → α} (step : ∀ {text other}, RespellsTag text other → f other = f text)
    (respells : Respells text other) : f other = f text := by
  induction respells with
  | refl => rfl
  | tail _ last ih => exact (step last).trans ih

theorem trim (respells : Respells text other) : Respells (Text.trim text) (Text.trim other) :=
  respells.lift Text.trim fun _ _ => RespellsTag.trim

theorem lower (respells : Respells text other) : Text.lowerFrom [] other = Text.lowerFrom [] text :=
  Text.lowerFrom_congr (respells.congr RespellsTag.map_toLower) rfl

theorem stripTagChars (respells : Respells text other) : Markup.stripTagChars other = Markup.stripTagChars text := by
  rw [stripTagChars_eq, stripTagChars_eq, ← shown_small, respells.congr RespellsTag.read, shown_small]

/-- A text without tags of headers has nothing to be written in another letter case. -/
theorem eq_of_not_holdsHeaderTag (respells : Respells text other) (free : ¬ HoldsHeaderTag text) : other = text := by
  rcases Relation.ReflTransGen.cases_head respells with same | ⟨next, first, -⟩
  · exact same.symm
  · exact absurd first.holdsHeaderTag free

/-- Symbols that differ in the letter case of tags only, and all of whose tags are those of headers. -/
theorem of_small {symbols others : List Symbol} (same : others.map Symbol.small = symbols.map Symbol.small)
    (kept : ∀ symbol ∈ symbols, symbol.isKept = true) : Respells (write symbols) (write others) := by
  induction symbols generalizing others with
  | nil =>
    rw [List.map_eq_nil_iff.mp same]
    exact .refl
  | cons symbol rest ih =>
    obtain ⟨other, tail, rfl, here, later⟩ := List.map_eq_cons_iff.mp same
    obtain ⟨keptHere, keptLater⟩ := List.forall_mem_cons.mp kept
    have next : Respells (other.written ++ write rest) (other.written ++ write tail) :=
      (ih later keptLater).lift (other.written ++ ·) fun _ _ step => step.append_left other.written
    apply Relation.ReflTransGen.trans _ next
    cases symbol with
    | char c =>
      cases other with
      | char d =>
        obtain rfl := Symbol.char.inj here
        exact .refl
      | tag spelled => cases here
    | tag inner =>
      cases other with
      | char d => cases here
      | tag spelled =>
        have step := RespellsTag.of_inner keptHere (Symbol.tag.inj here) [] (write rest)
        simpa [write, Symbol.written] using Relation.ReflTransGen.single step

end Respells

theorem readHint_respells {line other : String} (respells : Respells line.toList other.toList) (script : Document) :
    readHint script other = readHint script line := by
  let value := fun name => Lookup.textOf name script
  let filled (text : List Char) := (TokenGrammar.smallName.fill value
    (String.ofList (Text.replaceAllChars '%' ['%'] ['%'] text))).toList
  have respelled : Respells (filled line.toList) (filled other.toList) :=
    respells.lift filled fun _ _ step => step.halvePercents.fillTokens value
  exact congrArg String.ofList respelled.stripTagChars

end

section
variable {symbols others : List Symbol}

theorem respells_trimmed (same : others.map Symbol.small = symbols.map Symbol.small)
    (kept : ∀ symbol ∈ symbols, symbol.isKept = true) : Respells (trimmed symbols).toList (trimmed others).toList := by
  simp only [trimmed, String.toList_ofList]
  exact (Respells.of_small same kept).trim

/-- Lists of symbols that differ in the letter case of tags only are split at the same place. -/
theorem splitAt?_small {isMark : Symbol → Bool} (keeps : ∀ symbol : Symbol, isMark symbol.small = isMark symbol)
    (same : others.map Symbol.small = symbols.map Symbol.small) :
    splitAt? isMark symbols = none ∧ splitAt? isMark others = none ∨
    ∃ before after front back, splitAt? isMark symbols = some (before, after) ∧ splitAt? isMark others = some (front, back) ∧
      front.map Symbol.small = before.map Symbol.small ∧ back.map Symbol.small = after.map Symbol.small := by
  have split := splitAt?_map keeps others
  rw [same, splitAt?_map keeps] at split
  cases first : splitAt? isMark symbols with
  | none =>
    rw [first] at split
    exact .inl ⟨rfl, Option.map_eq_none_iff.mp split.symm⟩
  | some pair =>
    obtain ⟨before, after⟩ := pair
    rw [first] at split
    obtain ⟨⟨front, back⟩, second, parts⟩ := Option.map_eq_some_iff.mp split.symm
    obtain ⟨fronts, backs⟩ := Prod.mk.inj parts
    exact .inr ⟨before, after, front, back, rfl, second, fronts, backs⟩

end

end ItemText

/-- Sections that differ in the letter case of header tags only. -/
def Section.Respells (content other : Section) : Prop :=
  ItemText.Respells content.name.toList other.name.toList ∧ ItemText.Respells content.desc.toList other.desc.toList

/-- Entries of one kind that differ in the letter case of header tags only. -/
def ItemText.EntryRespells (entry other : String × Section) : Prop :=
  entry.1 = other.1 ∧ entry.2.Respells other.2

/-- Readings that differ in the letter case of header tags only. -/
inductive LineReading.Respells : LineReading → LineReading → Prop where
  | hint (text : String) : Respells (.hint text) (.hint text)
  | entry (kind : String) {content other : Section} : content.Respells other → Respells (.entry kind content) (.entry kind other)
  | malformed : Respells .malformed .malformed

namespace LineReading.Respells
variable {reading other : LineReading}

theorem hints (respells : reading.Respells other) : reading.hints = other.hints := by
  cases respells with
  | hint text => rfl
  | entry kind contents => rfl
  | malformed => rfl

theorem entries (respells : reading.Respells other) :
    List.Forall₂ ItemText.EntryRespells reading.entries other.entries := by
  cases respells with
  | hint text => exact .nil
  | entry kind contents => exact .cons ⟨rfl, contents⟩ .nil
  | malformed => exact .nil

end LineReading.Respells

namespace ItemText
open Markup

theorem kept_of_splitAt? {isMark : Symbol → Bool} {symbols before after : List Symbol}
    (kept : ∀ symbol ∈ symbols, symbol.isKept = true) (found : splitAt? isMark symbols = some (before, after)) :
    (∀ symbol ∈ before, symbol.isKept = true) ∧ ∀ symbol ∈ after, symbol.isKept = true := by
  obtain ⟨mark, rfl, -, -⟩ := splitAt?_eq_some_iff.mp found
  rw [List.forall_mem_append, List.forall_mem_cons] at kept
  exact ⟨kept.1, kept.2.2⟩

/-- Headers are found at the same places, and what they are made of differs in the letter case of more header tags only. -/
theorem readSymbols?_small {symbols others : List Symbol} (same : others.map Symbol.small = symbols.map Symbol.small)
    (kept : ∀ symbol ∈ symbols, symbol.isKept = true) :
    Option.Rel EntryRespells (readSymbols? symbols) (readSymbols? others) := by
  unfold readSymbols?
  rcases splitAt?_small Symbol.opensHeader_small same with
    ⟨first, also⟩ | ⟨front, body, _, body', first, also, -, sameBody⟩
  · rw [first, also]
    exact .none
  have keptBody := (kept_of_splitAt? kept first).2
  rcases splitAt?_small Symbol.isColon_small sameBody with
    ⟨second, too⟩ | ⟨kind, afterColon, kind', afterColon', second, too, sameKind, sameAfter⟩
  · simp only [first, also, Option.bind_eq_bind, Option.bind_some, second, too]
    exact .none
  obtain ⟨keptKind, keptAfter⟩ := kept_of_splitAt? keptBody second
  rcases splitAt?_small Symbol.closesHeader_small sameAfter with
    ⟨third, last⟩ | ⟨name, desc, name', desc', third, last, sameName, sameDesc⟩
  · simp only [first, also, Option.bind_eq_bind, Option.bind_some, second, too, third, last]
    exact .none
  obtain ⟨keptName, keptDesc⟩ := kept_of_splitAt? keptAfter third
  simp only [first, also, Option.bind_eq_bind, Option.bind_some, second, too, third, last]
  have kinds := congrArg String.ofList (respells_trimmed sameKind keptKind).lower
  exact .some ⟨kinds.symm, respells_trimmed sameName keptName, respells_trimmed sameDesc keptDesc⟩

theorem readHeader?_respells {text other : List Char} (respells : Respells text other) :
    Option.Rel EntryRespells (readHeader? (keepHeaders text)) (readHeader? (keepHeaders other)) := by
  have keeps : Symbol.isKept ∘ Symbol.small = Symbol.isKept := funext Symbol.isKept_small
  have same : ((read other).filter Symbol.isKept).map Symbol.small = ((read text).filter Symbol.isKept).map Symbol.small := by
    have whole := congrArg (List.filter Symbol.isKept) (respells.congr RespellsTag.read)
    simpa only [List.filter_map, keeps] using whole
  rw [keepHeaders_eq, keepHeaders_eq, readHeader?_write (legible_kept _) fun _ => List.of_mem_filter,
    readHeader?_write (legible_kept _) fun _ => List.of_mem_filter]
  exact readSymbols?_small same fun _ => List.of_mem_filter

section
variable {line other : String} (script : Document)

theorem readLine_respells (respells : Respells line.toList other.toList)
    (gate : Text.occursIn "<h1>" line = Text.occursIn "<h1>" other) :
    (readLine script line).Respells (readLine script other) := by
  unfold readLine
  rw [← gate]
  split
  · have headers := readHeader?_respells respells
    generalize readHeader? (keepHeaders line.toList) = entry at headers ⊢
    generalize readHeader? (keepHeaders other.toList) = spelled at headers ⊢
    cases headers with
    | none => exact .malformed
    | @some entry spelled same =>
      obtain ⟨kind, content⟩ := entry
      obtain ⟨kind', content'⟩ := spelled
      obtain ⟨rfl, contents⟩ := same
      exact .entry kind contents
  · rw [readHint_respells respells script]
    exact .hint _

theorem hints_readLine (line : String) :
    (readLine script line).hints = [] ↔ Text.occursIn "<h1>" line = true := by
  unfold readLine
  split
  · next opened =>
    cases readHeader? (keepHeaders line.toList) with
    | none => simp [LineReading.hints, opened]
    | some entry => simp [LineReading.hints, opened]
  · next closed => simp [LineReading.hints, closed]

/-- A line alone keeps its hint exactly where the test for a header gives the same. -/
theorem hints_respells_iff (respells : Respells line.toList other.toList) :
    (readLine script line).hints = (readLine script other).hints ↔
      Text.occursIn "<h1>" line = Text.occursIn "<h1>" other := by
  constructor
  · intro same
    apply Bool.eq_iff_iff.mpr
    rw [← hints_readLine script, ← hints_readLine script, same]
  · exact fun gate => (readLine_respells script respells gate).hints

end

/-- Lines in each of which any tags of headers are written in another letter case. -/
def LinesRespell (lines others : List String) : Prop :=
  List.Forall₂ (fun line other => Respells line.toList other.toList) lines others

section
variable {lines others : List String} (respells : LinesRespell lines others) (script : Document)
include respells

theorem hints_alone_respells_iff :
    lines.map (fun line => (readLine script line).hints) = others.map (fun line => (readLine script line).hints) ↔
      lines.map (Text.occursIn "<h1>") = others.map (Text.occursIn "<h1>") := by
  induction respells with
  | nil => simp
  | cons here _ ih => simp only [List.map_cons, List.cons.injEq, hints_respells_iff script here, ih]

variable (gates : lines.map (Text.occursIn "<h1>") = others.map (Text.occursIn "<h1>"))
include gates

theorem hints_respell : lines.flatMap (fun line => (readLine script line).hints) =
    others.flatMap fun line => (readLine script line).hints := by
  have alone := (hints_alone_respells_iff respells script).mpr gates
  simp only [List.flatMap, alone]

theorem entries_respell : List.Forall₂ EntryRespells (entriesOf script lines) (entriesOf script others) := by
  induction respells with
  | nil => exact .nil
  | cons here _ ih =>
    obtain ⟨gate, later⟩ := List.cons.inj gates
    exact List.rel_append (readLine_respells script here gate).entries (ih later)

end

section
variable {entries others : List (String × Section)} (respells : List.Forall₂ EntryRespells entries others)
include respells

theorem kinds_respell : entries.map Prod.fst = others.map Prod.fst := by
  induction respells with
  | nil => rfl
  | cons here _ ih => rw [List.map_cons, List.map_cons, here.1, ih]

theorem contents_respell (kind : String) : List.Forall₂ Section.Respells
    ((entries.filter fun entry => entry.1 == kind).map Prod.snd)
    ((others.filter fun entry => entry.1 == kind).map Prod.snd) := by
  induction respells with
  | nil => exact .nil
  | cons here _ ih =>
    simp only [List.filter_cons, here.1]
    split
    · exact .cons here.2 ih
    · exact ih

theorem eq_of_headerFree (free : ∀ entry ∈ entries, HeaderFree entry.2) : entries = others := by
  induction respells with
  | nil => rfl
  | @cons entry other _ _ here _ ih =>
    obtain ⟨freeHere, freeLater⟩ := List.forall_mem_cons.mp free
    have name := String.toList_injective (here.2.1.eq_of_not_holdsHeaderTag freeHere.1)
    have desc := String.toList_injective (here.2.2.eq_of_not_holdsHeaderTag freeHere.2)
    have same : entry = other := Prod.ext here.1 (by rw [Section.mk.injEq]; exact ⟨name.symm, desc.symm⟩)
    rw [same, ih freeLater]

end

/-- Tags of headers may be written in any letter case if a line with an opening one in small letters keeps one, and a line
without stays without. Hints and kinds are the same then, and names and descriptions are up to the letter case of further tags
of headers in them. Any other line gets a hint, or loses it. -/
theorem ofLines_respells {lines others : List String} (respells : LinesRespell lines others) (script : Document) :
    let item := (ofLines lines script).value
    let other := (ofLines others script).value
    let alone := fun line => (ofLines [line] script).value.hints
    (lines.map alone = others.map alone ↔ lines.map (Text.occursIn "<h1>") = others.map (Text.occursIn "<h1>")) ∧
    (lines.map (Text.occursIn "<h1>") = others.map (Text.occursIn "<h1>") →
      item.hints = other.hints ∧ Members.names item.sections = Members.names other.sections ∧
      (∀ kind, List.Forall₂ Section.Respells (item.sectionsOf kind) (other.sectionsOf kind)) ∧
      ((∀ grouped ∈ item.sections, ∀ content ∈ grouped.2, HeaderFree content) → item = other)) := by
  intro item other alone
  constructor
  · simp only [alone, ofLines_singleton]
    exact hints_alone_respells_iff respells script
  · intro gates
    have hints := hints_respell respells script gates
    have entries := entries_respell respells script gates
    refine ⟨?_, ?_, ?_, ?_⟩
    · simp only [item, other, ofLines_eq, hints]
    · simp only [item, other, names_ofLines, kinds_respell entries]
    · intro kind
      simp only [item, other, sectionsOf_ofLines]
      exact contents_respell entries kind
    · intro free
      have told : ∀ entry ∈ entriesOf script lines, HeaderFree entry.2 := by
        have all := (forall_foldl_group_iff [] (entriesOf script lines) (fun _ => True) HeaderFree).mp
        simp only [item, ofLines_eq] at free
        simpa using (all fun grouped member => ⟨trivial, free grouped member⟩).2
      simp only [item, other, ofLines_eq, hints, eq_of_headerFree entries told]

/-- A capital in the closing tag. -/
theorem ofLines_respells_closing :
    let lines := ["<h1>Active: Go</H1>now"]
    let others := ["<h1>Active: Go</h1>now"]
    LinesRespell lines others ∧ (ofLines lines (.table [])).value = (ofLines others (.table [])).value := by
  intro lines others
  have header : (Symbol.tag ['/', 'H', '1']).isHeaderTag = true := by decide
  have letters : ['/', 'h', '1'].map Char.toLower = ['/', 'H', '1'].map Char.toLower := by decide
  have step : RespellsTag "<h1>Active: Go</H1>now".toList "<h1>Active: Go</h1>now".toList :=
    .of_inner header letters "<h1>Active: Go".toList "now".toList
  have respells : LinesRespell lines others := .cons (.single step) .nil
  have gates : lines.map (Text.occursIn "<h1>") = others.map (Text.occursIn "<h1>") := by decide
  have sections : (ofLines ["<h1>Active: Go</H1>now"] (.table [])).value.sections = [("active", [⟨"Go", "now"⟩])] := by
    cbv
  have free : ∀ grouped ∈ (ofLines lines (.table [])).value.sections, ∀ content ∈ grouped.2, HeaderFree content := by
    rw [sections]
    simp only [List.forall_mem_singleton]
    constructor
    · apply not_holdsHeaderTag_of_tagFree
      unfold TagFree
      decide
    · apply not_holdsHeaderTag_of_tagFree
      unfold TagFree
      decide
  exact ⟨respells, ((ofLines_respells respells (.table [])).2 gates).2.2.2 free⟩

/-- With a capital in its opening tag a line is a hint. -/
theorem hint_of_capital : ¬ ∀ (lines others : List String) (script : Document), LinesRespell lines others →
    (ofLines lines script).value.hints = (ofLines others script).value.hints := by
  intro claim
  have header : (Symbol.tag ['h', '1']).isHeaderTag = true := by decide
  have letters : ['H', '1'].map Char.toLower = ['h', '1'].map Char.toLower := by decide
  have step : RespellsTag "<h1>Active: Go</h1>now".toList "<H1>Active: Go</h1>now".toList :=
    .of_inner header letters [] "Active: Go</h1>now".toList
  have same := claim ["<h1>Active: Go</h1>now"] ["<H1>Active: Go</h1>now"] (.table []) (.cons (.single step) .nil)
  have small : (readLine (.table []) "<h1>Active: Go</h1>now").hints = [] := by decide +kernel
  have capital : (readLine (.table []) "<H1>Active: Go</h1>now").hints = ["Active: Gonow"] := by decide +kernel
  simp only [ofLines_singleton, small, capital] at same
  cases same

end ItemText
end Compendium
