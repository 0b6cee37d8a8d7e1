import Compendium.KeyValues.Printer
import Compendium.Proofs.KeyValues.Scanning

/-! The written form of a tree as a list of pieces: quoted texts, braces and blanks. The scanner gives back one token for
each text and each brace, up to the first text with a dangling backslash. -/

set_option autoImplicit false
namespace Compendium.KeyValues

/-- What a written form is put together from. -/
inductive Piece where
  | blank (c : Char) (isBlank : Text.isBlank c = true)
  | opening
  | closing
  | text (value : String)

namespace Piece

def chars : Piece → List Char
  | .blank c _ => [c]
  | .opening => ['{']
  | .closing => ['}']
  | .text value => quote value

def tokens : Piece → List Token
  | .blank _ _ => []
  | .opening => [.opening]
  | .closing => [.closing]
  | .text value => [.text value]

def space : Piece :=
  .blank ' ' (by decide)

def newline : Piece :=
  .blank '\n' (by decide)

def indent (tabs : Bool) (level : Nat) : List Piece :=
  if tabs then List.replicate level (.blank '\t' (by decide)) else []

theorem chars_indent (tabs : Bool) (level : Nat) :
    (indent tabs level).flatMap chars = Node.writeUnder.indent tabs level := by
  cases tabs with
  | false => rfl
  | true => simp [indent, Node.writeUnder.indent, chars, List.flatMap_replicate]

theorem tokens_indent (tabs : Bool) (level : Nat) : (indent tabs level).flatMap tokens = [] := by
  cases tabs with
  | false => rfl
  | true => simp [indent, tokens, List.flatMap_replicate]

end Piece

mutual

def Node.piecesUnder (tabs : Bool) (level : Nat) (key : String) : Node → List Piece
  | .text value => Piece.indent tabs level ++ [.text key, .space, .text value, .newline]
  | .block entries =>
    Piece.indent tabs level ++ [.text key, .newline] ++ Piece.indent tabs level ++ [.opening, .newline] ++
      pieces tabs (level + 1) entries ++ Piece.indent tabs level ++ [.closing, .newline]

def pieces (tabs : Bool) (level : Nat) : List (String × Node) → List Piece
  | [] => []
  | (key, node) :: rest => node.piecesUnder tabs level key ++ pieces tabs level rest

end

mutual

theorem Node.chars_piecesUnder (tabs : Bool) (level : Nat) (key : String) : ∀ node : Node,
    (node.piecesUnder tabs level key).flatMap Piece.chars = node.writeUnder tabs level key
  | .text value => by
    rw [Node.piecesUnder, Node.writeUnder, List.flatMap_append, Piece.chars_indent]
    simp [Piece.chars, Piece.space, Piece.newline]
  | .block entries => by
    rw [Node.piecesUnder, Node.writeUnder]
    simp only [List.flatMap_append, Piece.chars_indent, chars_pieces tabs (level + 1) entries]
    simp [Piece.chars, Piece.newline]

theorem chars_pieces (tabs : Bool) (level : Nat) : ∀ entries : List (String × Node),
    (pieces tabs level entries).flatMap Piece.chars = writeEntries tabs level entries
  | [] => by
    rw [pieces, writeEntries]
    rfl
  | (key, node) :: rest => by
    rw [pieces, writeEntries, List.flatMap_append, node.chars_piecesUnder tabs level key, chars_pieces tabs level rest]

end

mutual

theorem Node.tokens_piecesUnder (tabs : Bool) (level : Nat) (key : String) : ∀ node : Node,
    (node.piecesUnder tabs level key).flatMap Piece.tokens = .text key :: node.tokens
  | .text value => by
    rw [Node.piecesUnder, Node.tokens, List.flatMap_append, Piece.tokens_indent]
    rfl
  | .block entries => by
    rw [Node.piecesUnder, Node.tokens]
    simp only [List.flatMap_append, Piece.tokens_indent, tokens_pieces tabs (level + 1) entries]
    simp [Piece.tokens, Piece.newline]

theorem tokens_pieces (tabs : Bool) (level : Nat) : ∀ entries : List (String × Node),
    (pieces tabs level entries).flatMap Piece.tokens = tokensOf entries
  | [] => by
    rw [pieces, tokensOf]
    rfl
  | (key, node) :: rest => by
    rw [pieces, tokensOf, List.flatMap_append, node.tokens_piecesUnder tabs level key, tokens_pieces tabs level rest]
    rfl

end

theorem mem_tokens_of_mem_pieces {tabs : Bool} {level : Nat} {entries : Entries} {text : String}
    (member : .text text ∈ pieces tabs level entries) : .text text ∈ tokensOf entries := by
  rw [← tokens_pieces tabs level entries, List.mem_flatMap]
  exact ⟨.text text, member, List.mem_singleton.mpr rfl⟩

theorem mem_pieces_of_mem_tokens (tabs : Bool) (level : Nat) {entries : Entries} {text : String}
    (member : .text text ∈ tokensOf entries) : .text text ∈ pieces tabs level entries := by
  rw [← tokens_pieces tabs level entries, List.mem_flatMap] at member
  obtain ⟨piece, inside, here⟩ := member
  cases piece with
  | text value =>
    rw [Piece.tokens, List.mem_singleton, Token.text.injEq] at here
    exact here ▸ inside
  | _ => simp [Piece.tokens] at here

namespace Scanner

/-- The scanner stands between tokens, having emitted these. -/
structure Rests (scanner : Scanner) (emitted : List Token) : Prop where
  mode : scanner.mode = .between
  tokens : scanner.tokens = emitted

theorem Rests.step_quote {scanner : Scanner} {emitted : List Token} (rests : Rests scanner emitted) :
    scanner.step '"' = ⟨.quoted scanner.line [], scanner.line, scanner.lexemes⟩ := by
  rw [step, rests.mode]
  rfl

/-- A quoted text becomes a token of the line that its first quote is on. -/
theorem Rests.run_quote {scanner : Scanner} {emitted : List Token} (rests : Rests scanner emitted) {text : String}
    (escaped : WellEscaped text) : (quote text).foldl step scanner =
      ⟨.between, scanner.line + text.toList.count '\n', ⟨.text text, scanner.line⟩ :: scanner.lexemes⟩ := by
  rw [quote, List.cons_append, List.foldl_cons, rests.step_quote, List.foldl_append, run_wellEscaped escaped,
    List.foldl_cons, List.foldl_nil, step_closingQuote, emitText, List.append_nil, List.reverse_reverse,
    String.ofList_toList]
  rfl

theorem Rests.step_text {scanner : Scanner} {emitted : List Token} (rests : Rests scanner emitted) {text : String}
    (escaped : WellEscaped text) : Rests ((quote text).foldl step scanner) (emitted ++ [.text text]) := by
  rw [rests.run_quote escaped, ← rests.tokens]
  exact ⟨rfl, tokens_emit scanner (.text text) scanner.line⟩

theorem Rests.step_piece {scanner : Scanner} {emitted : List Token} (rests : Rests scanner emitted) (piece : Piece)
    (escaped : ∀ value, piece = .text value → WellEscaped value) :
    Rests (piece.chars.foldl step scanner) (emitted ++ piece.tokens) := by
  cases piece with
  | blank c blank =>
    rw [Piece.chars, List.foldl_cons, List.foldl_nil, step, rests.mode, Piece.tokens, List.append_nil]
    simp only [between, blank, ↓reduceIte]
    exact ⟨rfl, rests.tokens⟩
  | opening =>
    rw [Piece.chars, List.foldl_cons, List.foldl_nil, step, rests.mode]
    refine ⟨rfl, ?_⟩
    rw [← rests.tokens]
    exact tokens_emit scanner .opening scanner.line
  | closing =>
    rw [Piece.chars, List.foldl_cons, List.foldl_nil, step, rests.mode]
    refine ⟨rfl, ?_⟩
    rw [← rests.tokens]
    exact tokens_emit scanner .closing scanner.line
  | text value => exact rests.step_text (escaped value rfl)

theorem Rests.run_pieces {scanner : Scanner} {emitted : List Token} (rests : Rests scanner emitted)
    (written : List Piece) (escaped : ∀ value, .text value ∈ written → WellEscaped value) :
    Rests ((written.flatMap Piece.chars).foldl step scanner) (emitted ++ written.flatMap Piece.tokens) := by
  induction written generalizing scanner emitted with
  | nil =>
    rw [List.flatMap_nil, List.flatMap_nil, List.append_nil]
    exact rests
  | cons piece rest ih =>
    have here := rests.step_piece piece (fun value same => escaped value (same ▸ List.mem_cons_self))
    have later := ih here (fun value member => escaped value (List.mem_cons_of_mem _ member))
    rw [List.flatMap_cons, List.flatMap_cons, List.foldl_append, ← List.append_assoc]
    exact later

theorem Rests.finish {scanner : Scanner} {emitted : List Token} (rests : Rests scanner emitted) :
    scanner.finish.ending = .complete ∧ scanner.finish.tokens = emitted := by
  rw [Scanner.finish, rests.mode]
  exact ⟨rfl, rests.tokens⟩

theorem rests_start : Rests start [] :=
  ⟨rfl, rfl⟩

end Scanner

/-- A tree of well escaped texts is written so that its tokens are read back. -/
theorem lex_write (tabs : Bool) {entries : Entries} (escaped : AllEscaped (tokensOf entries)) :
    (lex (write tabs entries)).ending = .complete ∧ (lex (write tabs entries)).tokens = tokensOf entries := by
  have run := Scanner.rests_start.run_pieces (pieces tabs 0 entries)
    (fun value member => escaped value (mem_tokens_of_mem_pieces member))
  rw [chars_pieces, List.nil_append, tokens_pieces] at run
  rw [lex, write, String.toList_ofList, lexChars]
  exact run.finish

/-- A character that the written form puts between texts. -/
def IsGap (c : Char) : Prop :=
  Scanner.endsBare c = true ∧ c ≠ '"'

theorem IsGap.ne_backslash {c : Char} (gap : IsGap c) : c ≠ '\\' := by
  rintro rfl
  exact absurd gap.1 (by decide)

/-- Every piece but a text is one character. -/
theorem Piece.text_or_gap (piece : Piece) :
    (∃ value, piece = .text value) ∨ ∃ c, IsGap c ∧ piece.chars = [c] ∧ ∀ text, .text text ∉ piece.tokens := by
  cases piece with
  | blank c blank =>
    refine .inr ⟨c, ⟨?_, ?_⟩, rfl, by simp [tokens]⟩
    · simp [Scanner.endsBare, blank]
    · rintro rfl
      exact absurd blank (by decide)
  | opening => exact .inr ⟨'{', ⟨by decide, by decide⟩, rfl, by simp [tokens]⟩
  | closing => exact .inr ⟨'}', ⟨by decide, by decide⟩, rfl, by simp [tokens]⟩
  | text value => exact .inl ⟨value, rfl⟩

namespace Scanner

theorem tokens_prefix_emitText (scanner : Scanner) (held : List Char) (line : Nat) :
    scanner.tokens <+: (scanner.emitText held line).tokens := by
  rw [tokens_emitText]
  exact List.prefix_append _ _

theorem tokens_prefix_run (scanner : Scanner) (text : List Char) :
    scanner.tokens <+: (text.foldl step scanner).tokens := by
  have follows := follows_run scanner text
  exact (List.reverse_prefix.mpr follows.lexemes).map Lexeme.token

theorem tokens_prefix_finish (scanner : Scanner) : scanner.tokens <+: scanner.finish.tokens := by
  obtain ⟨mode, line, lexemes⟩ := scanner
  cases mode with
  | slash => exact tokens_prefix_emitText _ _ _
  | bare held => exact tokens_prefix_emitText _ _ _
  | _ => exact List.prefix_rfl

/-- A quoted token that runs on into the written form takes blanks and braces along, up to the next text. -/
theorem run_pieces_quoted (written : List Piece) (start line : Nat) (held : List Char) (lexemes : List Lexeme) :
    let lexed := ((written.flatMap Piece.chars).foldl step ⟨.quoted start held, line, lexemes⟩).finish
    (∃ line, lexed.ending = .unterminated line) ∨
    ∃ gap, (lexemes.reverse.map Lexeme.token ++ [.text (String.ofList (held.reverse ++ gap))]) <+: lexed.tokens := by
  induction written generalizing line held with
  | nil => exact .inl ⟨start, rfl⟩
  | cons piece rest ih =>
    rw [List.flatMap_cons, List.foldl_append]
    rcases piece.text_or_gap with ⟨value, rfl⟩ | ⟨c, gap, single, _⟩
    · -- the quote that opens the next text ends the token
      refine .inr ⟨[], ?_⟩
      have emitted := tokens_emitText ⟨.quoted start held, line, lexemes⟩ held start
      rw [List.append_nil, Piece.chars, quote, List.cons_append, List.foldl_cons, step_closingQuote]
      refine (List.IsPrefix.trans ?_ (tokens_prefix_run _ _)).trans ((tokens_prefix_run _ _).trans (tokens_prefix_finish _))
      rw [emitted]
      exact List.prefix_rfl
    · rw [single, List.foldl_cons, List.foldl_nil, step_plain gap.2 gap.ne_backslash]
      rcases ih (line + [c].count '\n') (c :: held) with unterminated | ⟨gap, emitted⟩
      · exact .inl unterminated
      · refine .inr ⟨c :: gap, ?_⟩
        rw [List.reverse_cons, List.append_assoc] at emitted
        exact emitted

/-- The first text with a dangling backslash swallows its closing quote, or runs to the end of the text. -/
theorem Rests.run_dangling {scanner : Scanner} {emitted : List Token} (rests : Rests scanner emitted) {text : String}
    (dangling : EndsDangling text.toList) (written : List Piece) :
    let lexed := ((quote text ++ written.flatMap Piece.chars).foldl step scanner).finish
    (∃ line, lexed.ending = .unterminated line) ∨
    ∃ gap, (emitted ++ [.text (String.ofList (text.toList ++ '"' :: gap))]) <+: lexed.tokens := by
  rw [quote, List.cons_append, List.cons_append, List.foldl_cons, rests.step_quote, List.foldl_append,
    Scanner.run_dangling dangling, ← rests.tokens]
  rcases run_pieces_quoted written scanner.line (scanner.line + text.toList.count '\n') ('"' :: text.toList.reverse)
    scanner.lexemes with unterminated | ⟨gap, prefixes⟩
  · exact .inl unterminated
  · refine .inr ⟨gap, ?_⟩
    rw [List.reverse_cons, List.reverse_reverse, List.append_assoc] at prefixes
    exact prefixes

end Scanner

end Compendium.KeyValues
