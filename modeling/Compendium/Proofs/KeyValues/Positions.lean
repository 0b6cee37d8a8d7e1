import Compendium.Proofs.KeyValues.Layout

/-! Where the tokens of a text stand. Every text can be taken apart into tokens and what separates them, and the scanner
finds these tokens, each with the line on which it starts. They decide whether the text is accepted, or which fault is
reported; the line of a fault is that of the token at fault. -/

set_option autoImplicit false
namespace Compendium.KeyValues

/-- The number of a line is one more than the number of line breaks before it. -/
def lineBehind (before : List Char) : Nat :=
  before.count '\n' + 1

/-- A token as it is written, and what is written before it. -/
structure Occurrence where
  before : List Char
  spelling : Spelling

def Occurrence.lexeme (occurrence : Occurrence) : Lexeme :=
  ⟨occurrence.spelling.token, lineBehind occurrence.before⟩

/-- How a text ends behind its last token. -/
inductive Stop where
  | complete
  /-- In a quoted text, with what is written before and behind its opening quote. -/
  | unclosed (before body : List Char)

def Stop.ending : Stop → Ending
  | .complete => .complete
  | .unclosed before _ => .unterminated (lineBehind before)

/-- A text taken apart from the left, where `before` is what precedes it. Comments and conditionals at its end need not
be closed. -/
inductive Scans : List Char → List Char → List Occurrence → Stop → Prop where
  | nothing {before : List Char} : Scans before [] [] .complete
  | comment {before body : List Char} : '\n' ∉ body → Scans before ('/' :: '/' :: body) [] .complete
  | conditional {before body : List Char} : ']' ∉ body → Scans before ('[' :: body) [] .complete
  | unclosed {before body : List Char} : StaysOpen body → Scans before ('"' :: body) [] (.unclosed before body)
  | filler {before rest : List Char} {occurrences : List Occurrence} {stop : Stop} (filler : Filler) :
      Scans (before ++ filler.chars) rest occurrences stop → Scans before (filler.chars ++ rest) occurrences stop
  | token {before rest : List Char} {occurrences : List Occurrence} {stop : Stop} (spelling : Spelling) :
      (spelling.isBare = true → ∀ c more, rest = c :: more → Scanner.endsBare c = true) →
      Scans (before ++ spelling.chars) rest occurrences stop →
      Scans before (spelling.chars ++ rest) (⟨before, spelling⟩ :: occurrences) stop

/-- A character that starts no separator, brace or quoted text starts a bare text, up to what ends it. -/
theorem exists_bare {c : Char} {rest : List Char} (goesOn : Scanner.endsBare c = false) (noConditional : c ≠ '[')
    (noComment : ¬ ['/', '/'] <+: c :: rest) : ∃ text more, Bare text ∧ c :: rest = text ++ more ∧
      ∀ d after, more = d :: after → Scanner.endsBare d = true := by
  let inBare : Char → Bool := fun d => !Scanner.endsBare d
  have kept : ∀ d ∈ (c :: rest).takeWhile inBare, Scanner.endsBare d = false := by
    intro d member
    simpa [inBare] using List.mem_takeWhile_imp member
  have split : (c :: rest).takeWhile inBare ++ (c :: rest).dropWhile inBare = c :: rest :=
    List.takeWhile_append_dropWhile
  have nonempty : (c :: rest).takeWhile inBare = c :: rest.takeWhile inBare := by
    simp [inBare, goesOn]
  refine ⟨(c :: rest).takeWhile inBare, (c :: rest).dropWhile inBare, ⟨?_, ?_, ?_, ?_⟩, split.symm, ?_⟩
  · rw [nonempty]
    exact List.cons_ne_nil _ _
  · intro d member
    have plain := kept d member
    simp only [Scanner.endsBare, Bool.or_eq_false_iff, beq_eq_false_iff_ne] at plain
    exact ⟨plain.1.1.1, plain.1.1.2, plain.1.2, plain.2⟩
  · rw [nonempty, List.singleton_prefix_cons_iff]
    exact Ne.symm noConditional
  · intro slashes
    exact noComment (slashes.trans (List.takeWhile_prefix inBare))
  · intro d after same
    have stopped := List.head?_dropWhile_not inBare (c :: rest)
    rw [same] at stopped
    simpa [inBare] using stopped

theorem Filler.chars_length_pos (filler : Filler) : 0 < filler.chars.length := by
  cases filler <;> simp [Filler.chars]

theorem Spelling.chars_length_pos (spelling : Spelling) : 0 < spelling.chars.length := by
  cases spelling with
  | bare text plain => exact List.length_pos_iff.mpr plain.nonempty
  | _ => simp [Spelling.chars, quote]

/-- A comment or a conditional is closed, or takes the rest of the text along. -/
theorem exists_body (closing : Char) (text : List Char) :
    closing ∉ text ∨ ∃ body rest, closing ∉ body ∧ text = body ++ closing :: rest := by
  by_cases member : closing ∈ text
  · obtain ⟨body, rest, same, fresh⟩ := List.eq_append_cons_of_mem member
    exact .inr ⟨body, rest, fresh, same⟩
  · exact .inl member

/-- Everything that a text can start with. -/
theorem scan_cases (text : List Char) : (∀ before, ∃ stop, Scans before text [] stop) ∨
    (∃ (filler : Filler) (rest : List Char), text = filler.chars ++ rest) ∨
    ∃ (spelling : Spelling) (rest : List Char), text = spelling.chars ++ rest ∧
      (spelling.isBare = true → ∀ c more, rest = c :: more → Scanner.endsBare c = true) := by
  cases text with
  | nil => exact .inl fun before => ⟨.complete, .nothing⟩
  | cons c rest =>
    -- in the scanner's order: one slash alone does not open a comment, it starts a bare text
    by_cases isComment : ['/', '/'] <+: c :: rest
    · obtain ⟨text, same⟩ := isComment
      rw [← same]
      rcases exists_body '\n' text with runsOn | ⟨body, after, inLine, rfl⟩
      · exact .inl fun before => ⟨.complete, .comment runsOn⟩
      · exact .inr (.inl ⟨.comment body inLine, after, by simp [Filler.chars]⟩)
    by_cases isConditional : c = '['
    · subst isConditional
      rcases exists_body ']' rest with runsOn | ⟨body, after, unclosed, rfl⟩
      · exact .inl fun before => ⟨.complete, .conditional runsOn⟩
      · exact .inr (.inl ⟨.conditional body unclosed, after, by simp [Filler.chars]⟩)
    by_cases ends : Scanner.endsBare c = true
    · simp only [Scanner.endsBare, Bool.or_eq_true, beq_iff_eq] at ends
      rcases ends with ((blank | rfl) | rfl) | rfl
      · exact .inr (.inl ⟨.blank c blank, rest, rfl⟩)
      · rcases staysOpen_or_closed rest with opened | ⟨body, after, escaped, rfl⟩
        · exact .inl fun before => ⟨.unclosed before rest, .unclosed opened⟩
        · refine .inr (.inr ⟨.quoted (String.ofList body) ?_, after, ?_, fun bare => absurd bare Bool.false_ne_true⟩)
          · rwa [WellEscaped, String.toList_ofList]
          · simp [Spelling.chars, quote]
      · exact .inr (.inr ⟨.opening, rest, rfl, fun bare => absurd bare Bool.false_ne_true⟩)
      · exact .inr (.inr ⟨.closing, rest, rfl, fun bare => absurd bare Bool.false_ne_true⟩)
    · obtain ⟨text, more, bare, same, stops⟩ := exists_bare (Bool.not_eq_true _ ▸ ends) isConditional isComment
      refine .inr (.inr ⟨.bare (String.ofList text) ?_, more, ?_, fun _ => stops⟩)
      · rwa [String.toList_ofList]
      · rw [Spelling.chars, String.toList_ofList, same]

theorem exists_scans (before text : List Char) : ∃ occurrences stop, Scans before text occurrences stop := by
  rcases scan_cases text with stops | ⟨filler, rest, same⟩ | ⟨spelling, rest, same, ends⟩
  · obtain ⟨stop, scans⟩ := stops before
    exact ⟨[], stop, scans⟩
  · have shorter := filler.chars_length_pos
    obtain ⟨occurrences, stop, scans⟩ := exists_scans (before ++ filler.chars) rest
    rw [same]
    exact ⟨occurrences, stop, .filler filler scans⟩
  · have shorter := spelling.chars_length_pos
    obtain ⟨occurrences, stop, scans⟩ := exists_scans (before ++ spelling.chars) rest
    rw [same]
    exact ⟨_, stop, .token spelling ends scans⟩
termination_by text.length
decreasing_by
  · rw [same, List.length_append]
    omega
  · rw [same, List.length_append]
    omega

namespace Scanner

/-- Between tokens, behind what is already read. -/
def behind (before : List Char) (lexemes : List Lexeme) : Scanner :=
  ⟨.between, lineBehind before, lexemes⟩

theorem behind_append (before text : List Char) (lexemes : List Lexeme) :
    behind (before ++ text) lexemes = ⟨.between, lineBehind before + text.count '\n', lexemes⟩ := by
  rw [behind, lineBehind, lineBehind, List.count_append, Nat.add_right_comm]

variable (before : List Char) (lexemes : List Lexeme)

theorem rests_behind : Rests (behind before lexemes) (behind before lexemes).tokens :=
  ⟨rfl, rfl⟩

theorem run_filler (filler : Filler) :
    filler.chars.foldl step (behind before lexemes) = behind (before ++ filler.chars) lexemes := by
  have rests := (rests_behind before lexemes).run_filler filler
  have follows := follows_run (behind before lexemes) filler.chars
  rw [behind_append, ← rests.mode]
  exact congrArg₂ (Scanner.mk _) follows.line (follows.lexemes_eq rests.tokens)

/-- Behind a token the scanner rests, and the token has the line on which it starts. -/
theorem run_spelling (spelling : Spelling) (rest : List Char)
    (ends : spelling.isBare = true → ∀ c more, rest = c :: more → endsBare c = true) :
    ((spelling.chars ++ rest).foldl step (behind before lexemes)).finish =
      (rest.foldl step
        (behind (before ++ spelling.chars) (Occurrence.lexeme ⟨before, spelling⟩ :: lexemes))).finish := by
  rw [List.foldl_append]
  cases spelling with
  | opening =>
    rw [behind_append]
    rfl
  | closing =>
    rw [behind_append]
    rfl
  | quoted text escaped =>
    have count : (quote text).count '\n' = text.toList.count '\n' := by simp [quote]
    rw [behind_append, Spelling.chars, count, (rests_behind before lexemes).run_quote escaped]
    rfl
  | bare text plain =>
    -- it is emitted only by what ends it, on the line of its start since it has no line break in it
    have holds := (rests_behind before lexemes).run_bare plain
    have follows := follows_run (behind before lexemes) text.toList
    have inLine : text.toList.count '\n' = 0 := by
      rw [List.count_eq_zero]
      intro member
      have stops := plain.not_endsBare member
      exact absurd stops (by decide)
    have line := follows.line
    rw [inLine] at line
    have emitted : (text.toList.foldl step (behind before lexemes)).emitText text.toList.reverse
        (text.toList.foldl step (behind before lexemes)).line =
          behind (before ++ text.toList) (⟨.text text, lineBehind before⟩ :: lexemes) := by
      rw [emitText, emit, line, follows.lexemes_eq holds.tokens, List.reverse_reverse, String.ofList_toList,
        behind_append, inLine]
      rfl
    exact (holds.finish (ends rfl)).trans (congrArg (fun later => (rest.foldl step later).finish) emitted)

theorem finish_comment {body : List Char} (inLine : '\n' ∉ body) :
    (('/' :: '/' :: body).foldl step (behind before lexemes)).finish = ⟨lexemes.reverse, .complete⟩ := by
  have slashes : Stays .comment (behind before lexemes).tokens (((behind before lexemes).step '/').step '/') :=
    ⟨rfl, rfl⟩
  have inside := slashes.run_comment inLine
  have follows := follows_run (behind before lexemes) ('/' :: '/' :: body)
  rw [List.foldl_cons, List.foldl_cons] at follows ⊢
  rw [finish, inside.mode, follows.lexemes_eq inside.tokens]
  rfl

theorem finish_conditional {body : List Char} (unclosed : ']' ∉ body) :
    (('[' :: body).foldl step (behind before lexemes)).finish = ⟨lexemes.reverse, .complete⟩ := by
  have bracket : Stays .conditional (behind before lexemes).tokens ((behind before lexemes).step '[') := ⟨rfl, rfl⟩
  have inside := bracket.run_conditional unclosed
  have follows := follows_run (behind before lexemes) ('[' :: body)
  rw [List.foldl_cons] at follows ⊢
  rw [finish, inside.mode, follows.lexemes_eq inside.tokens]
  rfl

theorem finish_unclosed {body : List Char} (opened : StaysOpen body) :
    (('"' :: body).foldl step (behind before lexemes)).finish =
      ⟨lexemes.reverse, .unterminated (lineBehind before)⟩ := by
  rw [List.foldl_cons, (rests_behind before lexemes).step_quote]
  rcases opened with escaped | ⟨paired, escaped, rfl⟩
  · rw [run_wellEscaped escaped]
    rfl
  · rw [List.foldl_append, run_wellEscaped escaped]
    rfl

end Scanner

/-- The scanner finds the tokens of a text where they stand. -/
theorem Scans.finish {before text : List Char} {occurrences : List Occurrence} {stop : Stop}
    (scans : Scans before text occurrences stop) (lexemes : List Lexeme) :
    (text.foldl Scanner.step (Scanner.behind before lexemes)).finish =
      ⟨lexemes.reverse ++ occurrences.map Occurrence.lexeme, stop.ending⟩ := by
  -- a separator or a token takes the scanner from between tokens to between tokens, with what is read put before it
  induction scans generalizing lexemes with
  | nothing => simp [Scanner.behind, Scanner.finish, Stop.ending]
  | comment inLine =>
    rw [List.map_nil, List.append_nil]
    exact Scanner.finish_comment _ lexemes inLine
  | conditional unclosed =>
    rw [List.map_nil, List.append_nil]
    exact Scanner.finish_conditional _ lexemes unclosed
  | unclosed opened =>
    rw [List.map_nil, List.append_nil]
    exact Scanner.finish_unclosed _ lexemes opened
  | filler filler _ ih =>
    rw [List.foldl_append, Scanner.run_filler, ih]
  | token spelling ends _ ih =>
    rw [Scanner.run_spelling _ _ _ _ ends, ih]
    simp

/-- The tokens of a text with their lines, from any way to take it apart. -/
theorem Scans.lex {text : String} {occurrences : List Occurrence} {stop : Stop}
    (scans : Scans [] text.toList occurrences stop) :
    lex text = ⟨occurrences.map Occurrence.lexeme, stop.ending⟩ :=
  scans.finish []

theorem Scans.occurrence_stands {before text : List Char} {occurrences : List Occurrence} {stop : Stop}
    (scans : Scans before text occurrences stop) {occurrence : Occurrence} (member : occurrence ∈ occurrences) :
    ∃ after, before ++ text = occurrence.before ++ occurrence.spelling.chars ++ after := by
  induction scans with
  | filler filler _ ih =>
    rw [← List.append_assoc]
    exact ih member
  | @token before rest _ _ spelling _ _ ih =>
    rw [← List.append_assoc]
    rcases List.mem_cons.mp member with rfl | later
    · exact ⟨rest, rfl⟩
    · exact ih later
  | _ => cases member

theorem Scans.unclosed_stands {before text start body : List Char} {occurrences : List Occurrence} {stop : Stop}
    (scans : Scans before text occurrences stop) (unclosed : stop = .unclosed start body) :
    before ++ text = start ++ '"' :: body := by
  induction scans with
  | unclosed _ =>
    obtain ⟨rfl, rfl⟩ := Stop.unclosed.inj unclosed
    rfl
  | filler filler _ ih =>
    rw [← List.append_assoc]
    exact ih unclosed
  | token spelling _ _ ih =>
    rw [← List.append_assoc]
    exact ih unclosed
  | _ => cases unclosed

/-- The line that a fault is on. Blocks left open at the end of a text are on none. -/
def Fault.line? : Fault → Option Nat
  | .unterminatedText line => some line
  | .unexpectedClosing line => some line
  | .unexpectedOpening line => some line
  | .missingValue _ line => some line
  | .unclosedBlocks _ => none

def Occurrence.tokens (occurrences : List Occurrence) : List Token :=
  occurrences.map fun occurrence => occurrence.spelling.token

/-- The token at fault, among the tokens of a text and what the text ends with: what is written before it, and how it is
written itself. -/
inductive AtFault : List Occurrence → Stop → FaultKind → List Char → List Char → Prop where
  /-- A brace that closes no block. -/
  | closing {earlier later : List Occurrence} {brace : Occurrence} {stop : Stop} :
      Between (Occurrence.tokens earlier) → openBlocks (Occurrence.tokens earlier) = 0 →
      brace.spelling.token = .closing →
      AtFault (earlier ++ brace :: later) stop .unexpectedClosing brace.before brace.spelling.chars
  /-- A brace where a key is expected. -/
  | opening {earlier later : List Occurrence} {brace : Occurrence} {stop : Stop} :
      Between (Occurrence.tokens earlier) → brace.spelling.token = .opening →
      AtFault (earlier ++ brace :: later) stop .unexpectedOpening brace.before brace.spelling.chars
  | closingAfterKey {earlier later : List Occurrence} {name brace : Occurrence} {key : String} {stop : Stop} :
      Between (Occurrence.tokens earlier) → name.spelling.token = .text key → brace.spelling.token = .closing →
      AtFault (earlier ++ name :: brace :: later) stop (.missingValue key) name.before name.spelling.chars
  | endAfterKey {earlier : List Occurrence} {name : Occurrence} {key : String} :
      Between (Occurrence.tokens earlier) → name.spelling.token = .text key →
      AtFault (earlier ++ [name]) .complete (.missingValue key) name.before name.spelling.chars
  | unclosedKey {earlier : List Occurrence} {before body : List Char} : Between (Occurrence.tokens earlier) →
      AtFault earlier (.unclosed before body) .unterminatedText before ('"' :: body)
  | unclosedValue {earlier : List Occurrence} {name : Occurrence} {key : String} {before body : List Char} :
      Between (Occurrence.tokens earlier) → name.spelling.token = .text key →
      AtFault (earlier ++ [name]) (.unclosed before body) .unterminatedText before ('"' :: body)

theorem AtFault.stands {text start written : List Char} {occurrences : List Occurrence} {stop : Stop}
    {kind : FaultKind} (atFault : AtFault occurrences stop kind start written)
    (scans : Scans [] text occurrences stop) : ∃ after, text = start ++ written ++ after := by
  cases atFault with
  | unclosedKey _ => exact ⟨[], by simpa using scans.unclosed_stands rfl⟩
  | unclosedValue _ _ => exact ⟨[], by simpa using scans.unclosed_stands rfl⟩
  | _ => exact scans.occurrence_stands (by simp)

theorem Occurrence.tokens_eq (occurrences : List Occurrence) :
    (occurrences.map Occurrence.lexeme).map Lexeme.token = Occurrence.tokens occurrences :=
  List.map_map

theorem Occurrence.lexeme_eq_iff (occurrence : Occurrence) (token : Token) (line : Nat) :
    occurrence.lexeme = ⟨token, line⟩ ↔ occurrence.spelling.token = token ∧ lineBehind occurrence.before = line := by
  rw [Occurrence.lexeme, Lexeme.mk.injEq]

theorem FaultAmong.atFault {lexemes : List Lexeme} {fault : Fault} (among : FaultAmong lexemes fault)
    {occurrences : List Occurrence} (same : occurrences.map Occurrence.lexeme = lexemes) (stop : Stop) :
    ∃ start written, AtFault occurrences stop fault.kind start written ∧ fault.line? = some (lineBehind start) := by
  cases among with
  | closing between balanced =>
    simp only [List.map_eq_append_iff, List.map_eq_cons_iff, Occurrence.lexeme_eq_iff] at same
    obtain ⟨earlier, _, rfl, rfl, brace, later, rfl, ⟨closes, rfl⟩, rfl⟩ := same
    rw [Occurrence.tokens_eq] at between balanced
    exact ⟨_, _, .closing between balanced closes, rfl⟩
  | opening between =>
    simp only [List.map_eq_append_iff, List.map_eq_cons_iff, Occurrence.lexeme_eq_iff] at same
    obtain ⟨earlier, _, rfl, rfl, brace, later, rfl, ⟨opens, rfl⟩, rfl⟩ := same
    rw [Occurrence.tokens_eq] at between
    exact ⟨_, _, .opening between opens, rfl⟩
  | closingAfterKey between =>
    simp only [List.map_eq_append_iff, List.map_eq_cons_iff, Occurrence.lexeme_eq_iff] at same
    obtain ⟨earlier, _, rfl, rfl, name, _, rfl, ⟨names, rfl⟩, brace, later, rfl, ⟨closes, rfl⟩, rfl⟩ := same
    rw [Occurrence.tokens_eq] at between
    exact ⟨_, _, .closingAfterKey between names closes, rfl⟩

theorem Stop.ending_eq_complete_iff (stop : Stop) : stop.ending = .complete ↔ stop = .complete := by
  cases stop <;> simp [Stop.ending]

theorem Stop.ending_eq_unterminated_iff (stop : Stop) (line : Nat) :
    stop.ending = .unterminated line ↔ ∃ before body, stop = .unclosed before body ∧ lineBehind before = line := by
  cases stop <;> simp [Stop.ending]

/-- Every text can be taken apart, and in whatever way that is done, it is accepted if its tokens are those of a document and
no quoted text is left open; otherwise reading reports the first fault. -/
theorem read_ok_iff_doc_error_iff_firstFault (text : String) :
    (∃ occurrences stop, Scans [] text.toList occurrences stop) ∧
    ∀ occurrences stop, Scans [] text.toList occurrences stop →
      lex text = ⟨occurrences.map Occurrence.lexeme, stop.ending⟩ ∧
      ((∃ entries, read text = .ok entries) ↔ stop = .complete ∧ Doc (Occurrence.tokens occurrences)) ∧
      ∀ fault, read text = .error fault ↔ FirstFault ⟨occurrences.map Occurrence.lexeme, stop.ending⟩ fault := by
  refine ⟨exists_scans [] text.toList, ?_⟩
  intro occurrences stop scans
  have found := scans.lex
  refine ⟨found, ?_, ?_⟩
  · rw [read, readLexed_ok_iff, found, Stop.ending_eq_complete_iff, Lexed.tokens, Occurrence.tokens_eq]
  · intro fault
    rw [read, readLexed_error_iff, found]

/-- The end of the text comes when the second key waits for its value, and not between two entries of the open block. -/
theorem read_error_iff_firstFault_key :
    ∃ occurrences stop, Scans [] "a \x7b b".toList occurrences stop ∧
      FirstFault ⟨occurrences.map Occurrence.lexeme, stop.ending⟩ (.missingValue "b" 1) ∧
      ¬ (stop = .complete ∧ Doc (Occurrence.tokens occurrences)) := by
  obtain ⟨⟨occurrences, stop, scans⟩, each⟩ := read_ok_iff_doc_error_iff_firstFault "a \x7b b"
  have failed : read "a \x7b b" = .error (.missingValue "b" 1) := by cbv
  obtain ⟨-, accepted, first⟩ := each occurrences stop scans
  refine ⟨occurrences, stop, scans, (first _).mp failed, ?_⟩
  rw [← accepted]
  rintro ⟨entries, read⟩
  cases failed.symm.trans read

/-- The token at fault stands on the line that the fault reports. -/
theorem FirstFault.atFault {lexed : Lexed} {fault : Fault} {line : Nat} (first : FirstFault lexed fault)
    (counted : fault.line? = some line) {occurrences : List Occurrence} {stop : Stop}
    (same : lexed = ⟨occurrences.map Occurrence.lexeme, stop.ending⟩) :
    ∃ start written, AtFault occurrences stop fault.kind start written ∧ lineBehind start = line := by
  cases first with
  | among among =>
    obtain ⟨start, written, atFault, here⟩ := among.atFault (Lexed.mk.inj same).1.symm stop
    rw [here, Option.some.injEq] at counted
    exact ⟨start, written, atFault, counted⟩
  | endInBlock _ _ => cases counted
  | endAfterKey between =>
    rw [Lexed.mk.injEq, eq_comm, List.map_eq_append_iff, eq_comm, Stop.ending_eq_complete_iff] at same
    obtain ⟨⟨earlier, _, rfl, rfl, last⟩, rfl⟩ := same
    obtain ⟨name, rfl, named⟩ := List.map_eq_singleton_iff.mp last
    obtain ⟨names, rfl⟩ := (Occurrence.lexeme_eq_iff name _ _).mp named
    rw [Occurrence.tokens_eq] at between
    exact ⟨_, _, .endAfterKey between names, Option.some.inj counted⟩
  | unterminatedKey between =>
    rw [Lexed.mk.injEq, eq_comm (a := Ending.unterminated _), Stop.ending_eq_unterminated_iff] at same
    obtain ⟨rfl, before, body, rfl, rfl⟩ := same
    rw [Occurrence.tokens_eq] at between
    exact ⟨_, _, .unclosedKey between, Option.some.inj counted⟩
  | unterminatedValue between =>
    rw [Lexed.mk.injEq, eq_comm, List.map_eq_append_iff, eq_comm (a := Ending.unterminated _),
      Stop.ending_eq_unterminated_iff] at same
    obtain ⟨⟨earlier, _, rfl, rfl, last⟩, before, body, rfl, rfl⟩ := same
    obtain ⟨name, rfl, named⟩ := List.map_eq_singleton_iff.mp last
    obtain ⟨names, rfl⟩ := (Occurrence.lexeme_eq_iff name _ _).mp named
    rw [Occurrence.tokens_eq] at between
    exact ⟨_, _, .unclosedValue between names, Option.some.inj counted⟩

/-- Every text can be taken apart, and in whatever way that is done, a fault is on the line on which the token at fault
starts. -/
theorem ofBlockText_fault_line (text : String) :
    (∃ occurrences stop, Scans [] text.toList occurrences stop) ∧
    ∀ occurrences stop, Scans [] text.toList occurrences stop →
      ∀ fault line, Resource.ofBlockText text = .error (.fault fault) → fault.line? = some line →
        ∃ start written after, AtFault occurrences stop fault.kind start written ∧
          text.toList = start ++ written ++ after ∧ line = start.count '\n' + 1 := by
  refine ⟨exists_scans [] text.toList, ?_⟩
  intro occurrences stop scans fault line failed counted
  obtain ⟨_, failed, same⟩ := (Resource.ofBlockText_eq_error_iff _ _).mp failed
  rw [ResourceError.fault.inj same] at failed
  obtain ⟨start, written, atFault, here⟩ := (firstFault_of_readLexed failed).atFault counted scans.lex
  obtain ⟨after, stands⟩ := atFault.stands scans
  exact ⟨start, written, after, atFault, stands, here.symm⟩

/-- Line breaks in quoted texts, behind backslashes, in conditionals, behind comments and between tokens count alike. -/
theorem ofBlockText_fault_line_sixth :
    ∃ text occurrences stop start written after, text = "r \x7b\n\"a\\\nb\" \"c\nd\" [$X\n] // z\n  e\n\x7d" ∧
      Resource.ofBlockText text = .error (.fault (.missingValue "e" 6)) ∧ Scans [] text.toList occurrences stop ∧
      AtFault occurrences stop (.missingValue "e") start written ∧ text.toList = start ++ written ++ after ∧
      6 = start.count '\n' + 1 := by
  generalize same : "r \x7b\n\"a\\\nb\" \"c\nd\" [$X\n] // z\n  e\n\x7d" = text
  have failed : Resource.ofBlockText text = .error (.fault (.missingValue "e" 6)) := by
    subst same
    cbv
  obtain ⟨⟨occurrences, stop, scans⟩, stands⟩ := ofBlockText_fault_line text
  obtain ⟨start, written, after, found⟩ := stands occurrences stop scans _ 6 failed rfl
  exact ⟨text, occurrences, stop, start, written, after, rfl, failed, scans, found⟩

end Compendium.KeyValues
