import Compendium.Proofs.Text.Occurrence
import Compendium.Proofs.Tooltip.Header
import Compendium.Proofs.Tooltip.Sorting

/-! Header lines as they are written: an opening tag, a kind, a colon, a name, a closing tag and a description. Other tags may
stand anywhere between these, and what a line says is read without them. -/

set_option autoImplicit false
namespace Compendium

/-- A character that opens no tag, or a tag that is not one of headers. -/
def Markup.Symbol.Ordinary : Symbol → Prop
  | .char c => c ≠ '<'
  | .tag inner => '>' ∉ inner ∧ ItemText.isHeaderTag ('<' :: (inner ++ ['>'])) = false

instance Markup.Symbol.decidableOrdinary : DecidablePred Symbol.Ordinary
  | .char c => inferInstanceAs (Decidable (c ≠ '<'))
  | .tag inner => inferInstanceAs (Decidable ('>' ∉ inner ∧ ItemText.isHeaderTag ('<' :: (inner ++ ['>'])) = false))

namespace ItemText
open Markup

theorem keepHeaders_append {symbols : List Symbol} (ordinary : ∀ symbol ∈ symbols, symbol.Ordinary) (rest : List Char) :
    keepHeaders (write symbols ++ rest) = shown symbols ++ keepHeaders rest := by
  induction symbols with
  | nil => rfl
  | cons symbol others ih =>
    obtain ⟨here, later⟩ := List.forall_mem_cons.mp ordinary
    cases symbol with
    | char c =>
      have literal : c = '<' → '>' ∉ write others ++ rest := fun bracket => absurd bracket here
      simp only [write_char, shown_char, List.cons_append, keepHeaders_char literal, ih later]
    | tag inner =>
      have dropped := keepHeaders_tag here.1 (write others ++ rest)
      simp only [here.2, Bool.false_eq_true, if_false, List.nil_append] at dropped
      simp only [write_tag, shown_tag, List.cons_append, List.append_assoc, dropped, ih later]

theorem keepHeaders_openTag (rest : List Char) : keepHeaders (openTag ++ rest) = openTag ++ keepHeaders rest :=
  keepHeaders_tag (by decide : '>' ∉ ['h', '1']) rest

theorem keepHeaders_closeTag (rest : List Char) : keepHeaders (closeTag ++ rest) = closeTag ++ keepHeaders rest :=
  keepHeaders_tag (by decide : '>' ∉ ['/', 'h', '1']) rest

theorem not_mem_shown {symbols : List Symbol} (ordinary : ∀ symbol ∈ symbols, symbol.Ordinary) : '<' ∉ shown symbols := by
  intro member
  obtain ⟨symbol, inside, same⟩ := List.mem_filterMap.mp member
  cases symbol with
  | char c => exact ordinary _ inside (Option.some.inj same)
  | tag inner => cases same

theorem splitAtTag?_openTag (rest : List Char) : splitAtTag? openTag (openTag ++ rest) = some ([], rest) :=
  rfl

theorem splitAtTag?_closeTag {passed : List Char} (absent : '<' ∉ passed) (rest : List Char) :
    splitAtTag? closeTag (passed ++ (closeTag ++ rest)) = some (passed, rest) := by
  have skipped : splitAtTag? closeTag (passed ++ (closeTag ++ rest)) = some (passed ++ [], rest) :=
    splitAtTag?_append absent ['/', 'h', '1', '>'] (closeTag ++ rest)
  rwa [List.append_nil] at skipped

/-- What shows of a text, without the white space around it. -/
def said (symbols : List Symbol) : String :=
  String.ofList (Text.trim (shown symbols))

theorem readHeader?_plain {kind name : List Char} {colon : Char} (undivided : ∀ c ∈ kind, isColon c = false)
    (divides : isColon colon = true) (absent : '<' ∉ name) (desc : List Char) :
    readHeader? (openTag ++ (kind ++ colon :: (name ++ (closeTag ++ desc)))) =
      some (Text.lower (String.ofList (Text.trim kind)),
        ⟨String.ofList (Text.trim name), String.ofList (Text.trim desc)⟩) := by
  have passed : ∀ c ∈ kind, (!isColon c) = true := fun c member => by simp [undivided c member]
  unfold readHeader?
  simp [splitAtTag?_openTag, List.takeWhile_append_of_pos passed, List.dropWhile_append_of_pos passed, divides,
    splitAtTag?_closeTag absent]

/-- A line with a header, and with other tags in it. -/
structure HeaderLine where
  front : List Symbol
  kind : List Symbol
  colon : Char
  name : List Symbol
  desc : List Symbol
  /-- Nothing but tags stands before the header. -/
  silent : shown front = []
  undivided : ∀ c ∈ shown kind, isColon c = false
  divides : isColon colon = true
  ordinary : ∀ symbol ∈ front ++ (kind ++ (name ++ desc)), symbol.Ordinary

namespace HeaderLine
variable (line : HeaderLine)

def chars : List Char :=
  write line.front ++ (openTag ++ (write line.kind ++ line.colon :: (write line.name ++ (closeTag ++ write line.desc))))

def text : String :=
  String.ofList line.chars

theorem keepHeaders_chars : keepHeaders line.chars =
    openTag ++ (shown line.kind ++ line.colon :: (shown line.name ++ (closeTag ++ shown line.desc))) := by
  have ordinary := line.ordinary
  simp only [List.forall_mem_append] at ordinary
  obtain ⟨front, kind, name, desc⟩ := ordinary
  have literal (rest : List Char) : line.colon = '<' → '>' ∉ rest := by
    intro bracket
    have divides := line.divides
    rw [bracket] at divides
    cases divides
  have last := keepHeaders_append desc []
  rw [List.append_nil, keepHeaders, List.append_nil] at last
  rw [chars, keepHeaders_append front, line.silent, List.nil_append, keepHeaders_openTag, keepHeaders_append kind,
    keepHeaders_char (literal _), keepHeaders_append name, keepHeaders_closeTag, last]

theorem toList_text : line.text.toList = line.chars :=
  String.toList_ofList

theorem occursIn_text : Text.occursIn "<h1>" line.text = true := by
  apply (Text.occursIn_iff _ _).mpr
  rw [toList_text]
  exact ⟨write line.front, _, List.append_assoc _ _ _⟩

theorem readLine_text (script : Document) : readLine script line.text =
    .entry (Text.lower (said line.kind)) ⟨said line.name, said line.desc⟩ := by
  have name : ∀ symbol ∈ line.name, symbol.Ordinary := fun symbol member => line.ordinary symbol (by simp [member])
  have read := readHeader?_plain line.undivided line.divides (not_mem_shown name) (shown line.desc)
  rw [readLine, if_pos line.occursIn_text, line.toList_text, line.keepHeaders_chars, read]
  rfl

end HeaderLine

/-- A line with a header gives one section and neither a hint nor a notice, whatever other tags it has. -/
theorem ofLines_headerLine (line : HeaderLine) (script : Document) :
    ofLines [line.text] script =
      ⟨⟨[], [(Text.lower (said line.kind), [⟨said line.name, said line.desc⟩])]⟩, []⟩ := by
  simp only [ofLines_singleton, line.readLine_text script]
  rfl

/-- A wide colon, with tags before the header, around the kind and behind the description. -/
theorem ofLines_headerLine_blink : ∃ line : HeaderLine,
    line.text = "<b><h1> <i>ACTIVE</i> ：Blink: II</h1> Teleports up to 1200.</b>" ∧
    ofLines [line.text] (.table []) = ⟨⟨[], [("active", [⟨"Blink: II", "Teleports up to 1200."⟩])]⟩, []⟩ := by
  let chars (text : String) := text.toList.map Symbol.char
  let active := chars " " ++ .tag ['i'] :: (chars "ACTIVE" ++ .tag ['/', 'i'] :: chars " ")
  let line : HeaderLine := {
    front := [.tag ['b']]
    kind := active
    colon := '：'
    name := chars "Blink: II"
    desc := chars " Teleports up to 1200." ++ [.tag ['/', 'b']]
    silent := rfl
    undivided := by
      have free : (shown active).all (fun c => !isColon c) = true := by decide
      exact fun c member => by simpa using List.all_eq_true.mp free c member
    divides := by decide
    ordinary := by decide }
  have kind : Text.lower (said line.kind) = "active" := by decide +kernel
  have name : said line.name = "Blink: II" := by decide +kernel
  have desc : said line.desc = "Teleports up to 1200." := by decide +kernel
  refine ⟨line, by decide, ?_⟩
  rw [ofLines_headerLine line, kind, name, desc]

end ItemText
end Compendium
