import Compendium.Proofs.KeyValues.Pieces
import Compendium.Proofs.KeyValues.Weight

/-! Marks are the characters that take the scanner into another mode. Reading a written form back never finds more of
them in its texts than were written: a text that swallows a quote leaves a later quote to stand alone, and what begins
there costs a mark too. -/

set_option autoImplicit false
namespace Compendium.KeyValues

def isMark (c : Char) : Bool :=
  c == '"' || c == '[' || c == '/'

def marks (text : List Char) : Nat :=
  text.countP isMark

def marksIn (text : String) : Nat :=
  marks text.toList

theorem marks_append (first second : List Char) : marks (first ++ second) = marks first + marks second :=
  List.countP_append

theorem marks_cons (c : Char) (rest : List Char) : marks (c :: rest) = marks [c] + marks rest := by
  rw [← List.singleton_append, marks_append]

theorem marks_reverse (text : List Char) : marks text.reverse = marks text :=
  List.countP_reverse

theorem IsGap.marks {c : Char} (gap : IsGap c) : marks [c] = 0 := by
  rw [KeyValues.marks, List.countP_eq_zero]
  intro other member
  rw [List.mem_singleton] at member
  subst member
  intro mark
  simp only [isMark, Bool.or_eq_true, beq_iff_eq] at mark
  rcases mark with (rfl | rfl) | rfl
  · exact gap.2 rfl
  · exact absurd gap.1 (by decide)
  · exact absurd gap.1 (by decide)

namespace Scanner

/-- The marks of what the scanner will emit as a text. -/
def heldMarks : Mode → Nat
  | .slash => marks ['/']
  | .bare held | .quoted _ held | .escaped _ held => marks held
  | .between | .comment | .conditional => 0

/-- The marks of all texts emitted so far or held back. -/
def load (scanner : Scanner) : Nat :=
  weigh marksIn scanner.tokens + heldMarks scanner.mode

/-- A mark that is still to come may take the scanner into another mode, and is no part of a text then. -/
def allowanceInText : Mode → Nat
  | .between | .slash | .bare _ => 1
  | _ => 0

def allowanceInGap : Mode → Nat
  | .quoted _ _ | .escaped _ _ => 1
  | _ => 0

def isEscaped : Mode → Bool
  | .escaped _ _ => true
  | _ => false

/-- Between the two quotes of a written text, with these marks written so far. -/
def InText (scanner : Scanner) (written : Nat) : Prop :=
  scanner.load ≤ written + allowanceInText scanner.mode

/-- Between two written texts. -/
structure InGap (scanner : Scanner) (written : Nat) : Prop where
  bound : scanner.load ≤ written + allowanceInGap scanner.mode
  paired : isEscaped scanner.mode = false

theorem weigh_emit_text (scanner : Scanner) (held : List Char) (line : Nat) :
    weigh marksIn (scanner.emitText held line).tokens = weigh marksIn scanner.tokens + marks held := by
  rw [tokens_emitText, weigh_append]
  simp [weigh, Token.weigh, marksIn, marks_reverse]

theorem weigh_emit {token : Token} (scanner : Scanner) (line : Nat) (brace : token.weigh marksIn = 0) :
    weigh marksIn (scanner.emit token line).tokens = weigh marksIn scanner.tokens := by
  rw [tokens_emit, weigh_append]
  simp [weigh, brace]

theorem inText_enter_iff (scanner : Scanner) (mode : Mode) (written : Nat) : InText (scanner.enter mode) written ↔
    weigh marksIn scanner.tokens + heldMarks mode ≤ written + allowanceInText mode :=
  Iff.rfl

theorem inText_pass_iff (scanner : Scanner) (mode : Mode) (c : Char) (written : Nat) :
    InText (scanner.pass mode c) written ↔
      weigh marksIn scanner.tokens + heldMarks mode ≤ written + allowanceInText mode :=
  Iff.rfl

theorem inText_emit {scanner : Scanner} {token : Token} {line written : Nat} (brace : token.weigh marksIn = 0)
    (bound : weigh marksIn scanner.tokens ≤ written + 1) : InText (scanner.emit token line) written := by
  unfold InText load
  rw [weigh_emit scanner line brace]
  exact bound

theorem inText_emitText {scanner : Scanner} {held : List Char} {line written : Nat}
    (bound : weigh marksIn scanner.tokens + marks held ≤ written + 1) :
    InText (scanner.emitText held line) written := by
  unfold InText load
  rw [weigh_emit_text]
  exact bound

/-- A comment or a conditional costs what was written in it. -/
theorem inText_skip {scanner : Scanner} {mode : Mode} {written : Nat} (silent : heldMarks mode = 0)
    (bound : weigh marksIn scanner.tokens ≤ written) (c : Char) :
    InText (scanner.pass mode c) (written + marks [c]) := by
  rw [inText_pass_iff, silent]
  omega

theorem inText_between {scanner : Scanner} {written : Nat} (bound : weigh marksIn scanner.tokens ≤ written + 1)
    (c : Char) : InText (scanner.between c) (written + marks [c]) := by
  have started := started_between scanner c
  generalize scanner.between c = next at started ⊢
  have plain : weigh marksIn scanner.tokens ≤ written + marks [c] + 1 := by omega
  cases started with
  | blank => exact plain
  | slash same =>
    rw [inText_enter_iff, same]
    simp only [heldMarks, allowanceInText]
    omega
  | conditional same =>
    -- the bracket itself is the mark that pays for leaving the tokens
    have mark : marks [c] = 1 := by rw [same]; rfl
    rw [inText_enter_iff]
    simp only [heldMarks, allowanceInText]
    omega
  | opening => exact inText_emit rfl plain
  | closing => exact inText_emit rfl plain
  | quoted same =>
    -- so is the quote, which is no part of the token it opens
    have mark : marks [c] = 1 := by rw [same]; rfl
    have none : marks [] = 0 := rfl
    rw [inText_enter_iff]
    simp only [heldMarks, allowanceInText]
    omega
  | bare =>
    rw [inText_enter_iff]
    simp only [heldMarks, allowanceInText]
    omega

theorem inText_bare {scanner : Scanner} {held : List Char} {written : Nat}
    (bound : weigh marksIn scanner.tokens + marks held ≤ written + 1) (c : Char) :
    InText (scanner.bare held c) (written + marks [c]) := by
  rw [bare]
  split
  · apply inText_between
    rw [weigh_emit_text]
    exact bound
  · have longer := marks_cons c held
    rw [inText_enter_iff]
    simp only [heldMarks, allowanceInText]
    omega

theorem InText.step {scanner : Scanner} {written : Nat} (inText : InText scanner written) (c : Char) :
    InText (scanner.step c) (written + marks [c]) := by
  obtain ⟨mode, line, lexemes⟩ := scanner
  unfold InText load at inText
  cases mode with
  | between => exact inText_between inText c
  | slash =>
    simp only [Scanner.step]
    split
    · next same =>
      -- two slashes are given up for the comment
      have mark : marks ['/'] = 1 := rfl
      rw [inText_enter_iff, same]
      simp only [heldMarks, allowanceInText] at inText ⊢
      omega
    · exact inText_bare inText c
  | comment =>
    have silent : heldMarks (if c = '\n' then .between else .comment) = 0 := by split <;> rfl
    exact inText_skip silent inText c
  | conditional =>
    have silent : heldMarks (if c = ']' then .between else .conditional) = 0 := by split <;> rfl
    exact inText_skip silent inText c
  | bare held => exact inText_bare inText c
  | quoted start held =>
    have longer := marks_cons c held
    simp only [heldMarks, allowanceInText] at inText
    simp only [Scanner.step]
    split
    · exact inText_emitText (by omega)
    split
    · rw [inText_enter_iff]
      simp only [heldMarks, allowanceInText]
      omega
    · rw [inText_pass_iff]
      simp only [heldMarks, allowanceInText]
      omega
  | escaped start held =>
    have longer := marks_cons c held
    simp only [heldMarks, allowanceInText] at inText
    rw [Scanner.step, inText_pass_iff]
    simp only [heldMarks, allowanceInText]
    omega

theorem inGap_between {scanner : Scanner} {written : Nat} (bound : weigh marksIn scanner.tokens ≤ written) {c : Char}
    (gap : IsGap c) : InGap (scanner.between c) written := by
  have started := started_between scanner c
  generalize scanner.between c = next at started ⊢
  cases started with
  | blank => exact ⟨bound, rfl⟩
  | slash same =>
    subst same
    exact absurd gap.1 (by decide)
  | conditional same =>
    subst same
    exact absurd gap.1 (by decide)
  | opening =>
    refine ⟨?_, rfl⟩
    rw [load, weigh_emit scanner _ rfl]
    exact bound
  | closing =>
    refine ⟨?_, rfl⟩
    rw [load, weigh_emit scanner _ rfl]
    exact bound
  | quoted same => exact absurd same gap.2
  | bare =>
    refine ⟨?_, rfl⟩
    rw [load, tokens_enter, mode_enter, heldMarks, gap.marks]
    exact bound

theorem inGap_bare {scanner : Scanner} {held : List Char} {written : Nat}
    (bound : weigh marksIn scanner.tokens + marks held ≤ written) {c : Char} (gap : IsGap c) :
    InGap (scanner.bare held c) written := by
  rw [bare, if_pos gap.1]
  apply inGap_between _ gap
  rw [weigh_emit_text]
  exact bound

theorem InGap.step {scanner : Scanner} {written : Nat} (inGap : InGap scanner written) {c : Char} (gap : IsGap c) :
    InGap (scanner.step c) written := by
  obtain ⟨mode, line, lexemes⟩ := scanner
  have bound := inGap.bound
  unfold load at bound
  cases mode with
  | between => exact inGap_between bound gap
  | slash =>
    have other : c ≠ '/' := by
      rintro rfl
      exact absurd gap.1 (by decide)
    simp only [Scanner.step, if_neg other]
    exact inGap_bare bound gap
  | comment =>
    simp only [Scanner.step]
    split
    · exact ⟨bound, rfl⟩
    · exact ⟨bound, rfl⟩
  | conditional =>
    simp only [Scanner.step]
    split
    · exact ⟨bound, rfl⟩
    · exact ⟨bound, rfl⟩
  | bare held => exact inGap_bare bound gap
  | quoted start held =>
    rw [step_plain gap.2 gap.ne_backslash]
    refine ⟨?_, rfl⟩
    have longer := marks_cons c held
    have none := gap.marks
    unfold load
    simp only [heldMarks, allowanceInGap] at bound ⊢
    change weigh marksIn (tokens ⟨.quoted start held, line, lexemes⟩) + _ ≤ _
    omega
  | escaped start held => cases inGap.paired

/-- A quote changes sides: what it leaves allowed afterwards is what it was allowed before. -/
theorem load_step_quote (scanner : Scanner) : (scanner.step '"').load + allowanceInText scanner.mode =
    scanner.load + allowanceInGap (scanner.step '"').mode := by
  obtain ⟨mode, line, lexemes⟩ := scanner
  cases mode with
  | between => rfl
  | slash => exact congrArg (· + 1) (weigh_emit_text _ _ _)
  | comment => rfl
  | conditional => rfl
  | bare held => exact congrArg (· + 1) (weigh_emit_text _ _ _)
  | quoted start held => exact weigh_emit_text _ _ _
  | escaped start held =>
    have longer := marks_cons '"' held
    have mark : marks ['"'] = 1 := rfl
    simp only [Scanner.step, load, tokens_pass, mode_pass, heldMarks, allowanceInText, allowanceInGap]
    change weigh marksIn (tokens ⟨.escaped start held, line, lexemes⟩) + _ + _ = _
    omega

theorem InGap.openQuote {scanner : Scanner} {written : Nat} (inGap : InGap scanner written) :
    InText (scanner.step '"') written := by
  have same := load_step_quote scanner
  have sides : allowanceInText (scanner.step '"').mode = allowanceInGap scanner.mode ∧
      allowanceInGap (scanner.step '"').mode = allowanceInText scanner.mode := by
    obtain ⟨mode, line, lexemes⟩ := scanner
    cases mode with
    -- a backslash at the end of a text has taken the closing quote, so none is left over
    | escaped start held => cases inGap.paired
    | _ => exact ⟨rfl, rfl⟩
  have bound := inGap.bound
  unfold InText
  omega

theorem InText.closeQuote {scanner : Scanner} {written : Nat} (inText : InText scanner written) :
    InGap (scanner.step '"') written := by
  have same := load_step_quote scanner
  unfold InText at inText
  refine ⟨by omega, ?_⟩
  obtain ⟨mode, line, lexemes⟩ := scanner
  cases mode <;> rfl

theorem InText.run {scanner : Scanner} {written : Nat} (inText : InText scanner written) (text : List Char) :
    InText (text.foldl Scanner.step scanner) (written + marks text) := by
  induction text generalizing scanner written with
  | nil => exact inText
  | cons c rest ih =>
    rw [marks_cons, ← Nat.add_assoc]
    exact ih (inText.step c)

theorem InGap.step_text {scanner : Scanner} {written : Nat} (inGap : InGap scanner written) (text : String) :
    InGap ((quote text).foldl Scanner.step scanner) (written + marksIn text) := by
  rw [quote, List.cons_append, List.foldl_cons, List.foldl_append]
  exact (inGap.openQuote.run text.toList).closeQuote

theorem InGap.run_pieces {scanner : Scanner} {written : Nat} (inGap : InGap scanner written) (form : List Piece) :
    InGap ((form.flatMap Piece.chars).foldl Scanner.step scanner)
      (written + weigh marksIn (form.flatMap Piece.tokens)) := by
  induction form generalizing scanner written with
  | nil => exact inGap
  | cons piece rest ih =>
    rw [List.flatMap_cons, List.flatMap_cons, List.foldl_append, weigh_append, ← Nat.add_assoc]
    apply ih
    rcases piece.text_or_gap with ⟨text, rfl⟩ | ⟨c, gap, single, textless⟩
    · exact inGap.step_text text
    · have light : weigh marksIn piece.tokens = 0 := by
        apply Nat.eq_zero_of_not_pos
        intro heavy
        obtain ⟨text, member, _⟩ := exists_mem_of_weigh_pos marksIn heavy
        exact textless text member
      rw [single, light]
      exact inGap.step gap

theorem InGap.finish {scanner : Scanner} {written : Nat} (inGap : InGap scanner written)
    (complete : scanner.finish.ending = .complete) : weigh marksIn scanner.finish.tokens ≤ written := by
  obtain ⟨mode, line, lexemes⟩ := scanner
  have bound := inGap.bound
  cases mode with
  | slash =>
    refine Nat.le_trans (Nat.le_of_eq ?_) bound
    exact weigh_emit_text _ _ _
  | bare held =>
    refine Nat.le_trans (Nat.le_of_eq ?_) bound
    exact weigh_emit_text _ _ _
  | quoted start held => cases complete
  | escaped start held => cases complete
  | _ => exact bound

end Scanner

/-- Reading a written form back finds no more marks than were written. -/
theorem weigh_marks_lex_write (tabs : Bool) (entries : Entries)
    (complete : (lex (write tabs entries)).ending = .complete) :
    weigh marksIn (lex (write tabs entries)).tokens ≤ weighEntries marksIn entries := by
  have start : Scanner.InGap Scanner.start 0 := ⟨Nat.le_refl 0, rfl⟩
  have run := start.run_pieces (pieces tabs 0 entries)
  rw [chars_pieces, tokens_pieces, Nat.zero_add] at run
  rw [lex, write, String.toList_ofList, lexChars] at complete ⊢
  exact run.finish complete

end Compendium.KeyValues
