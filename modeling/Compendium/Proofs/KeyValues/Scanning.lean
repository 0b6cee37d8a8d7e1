import Compendium.Proofs.KeyValues.Grammar

/-! What the scanner makes of quoted texts. A text is well escaped if it is read back from between two quotes; every
text that the scanner emits is, or has a backslash too many at its end. -/

set_option autoImplicit false
namespace Compendium.KeyValues

/-- No quote stands alone and no backslash is left over, where a backslash takes the next character along. -/
def isWellEscaped : List Char → Bool
  | [] => true
  | ['\\'] => false
  | '\\' :: _ :: rest => isWellEscaped rest
  | c :: rest => c != '"' && isWellEscaped rest

def WellEscaped (text : String) : Prop :=
  isWellEscaped text.toList = true

instance (text : String) : Decidable (WellEscaped text) :=
  inferInstanceAs (Decidable (isWellEscaped text.toList = true))

/-- Every text among the tokens is well escaped. -/
def AllEscaped (tokens : List Token) : Prop :=
  ∀ text, .text text ∈ tokens → WellEscaped text

theorem AllEscaped.append_iff (first second : List Token) :
    AllEscaped (first ++ second) ↔ AllEscaped first ∧ AllEscaped second := by
  simp only [AllEscaped, List.mem_append, or_imp, forall_and]

theorem AllEscaped.cons_text_iff (text : String) (rest : List Token) :
    AllEscaped (.text text :: rest) ↔ WellEscaped text ∧ AllEscaped rest := by
  simp [AllEscaped, or_imp, forall_and]

theorem isWellEscaped_cons {c : Char} (plain : c ≠ '\\') (rest : List Char) :
    isWellEscaped (c :: rest) = (c != '"' && isWellEscaped rest) := by
  rw [isWellEscaped]
  · exact fun same => absurd same plain
  · exact fun _ _ same => absurd same plain

theorem ne_backslash_of_unpaired {c : Char} {rest : List Char} (single : c = '\\' → rest = [] → False)
    (pair : ∀ head tail, c = '\\' → rest = head :: tail → False) : c ≠ '\\' := by
  intro same
  cases rest with
  | nil => exact single same rfl
  | cons head tail => exact pair head tail same rfl

theorem isWellEscaped_append {first : List Char} (escaped : isWellEscaped first = true) (second : List Char) :
    isWellEscaped (first ++ second) = isWellEscaped second := by
  fun_induction isWellEscaped first with
  | case1 => rfl
  | case2 => cases escaped
  | case3 c rest ih => exact ih escaped
  | case4 c rest single pair ih =>
    have plain := ne_backslash_of_unpaired single pair
    rw [Bool.and_eq_true] at escaped
    rw [List.cons_append, isWellEscaped_cons plain, escaped.1, Bool.true_and]
    exact ih escaped.2

/-- Well escaped but for a backslash at the end that has nothing to take along. -/
def EndsDangling (text : List Char) : Prop :=
  ∃ before, isWellEscaped before = true ∧ text = before ++ ['\\']

theorem EndsDangling.append {first second : List Char} (escaped : isWellEscaped first = true)
    (dangling : EndsDangling second) : EndsDangling (first ++ second) := by
  obtain ⟨before, paired, rfl⟩ := dangling
  refine ⟨first ++ before, ?_, (List.append_assoc _ _ _).symm⟩
  rw [isWellEscaped_append escaped, paired]

/-- No quote in it stands alone, so that a quoted text that starts with it is still open behind it. -/
def StaysOpen (text : List Char) : Prop :=
  isWellEscaped text = true ∨ EndsDangling text

theorem StaysOpen.append {first second : List Char} (escaped : isWellEscaped first = true) (opened : StaysOpen second) :
    StaysOpen (first ++ second) := by
  rcases opened with paired | dangling
  · exact .inl (by rw [isWellEscaped_append escaped, paired])
  · exact .inr (dangling.append escaped)

/-- Behind an opening quote there is a first quote that stands alone, or none. -/
theorem staysOpen_or_closed (text : List Char) :
    StaysOpen text ∨ ∃ body rest, isWellEscaped body = true ∧ text = body ++ '"' :: rest := by
  fun_induction isWellEscaped text with
  | case1 => exact .inl (.inl rfl)
  | case2 => exact .inl (.inr ⟨[], rfl, rfl⟩)
  | case3 c rest ih =>
    have pair : isWellEscaped ['\\', c] = true := rfl
    rcases ih with opened | ⟨body, after, escaped, rfl⟩
    · exact .inl (opened.append pair)
    · refine .inr ⟨'\\' :: c :: body, after, ?_, rfl⟩
      rw [← escaped]
      exact isWellEscaped_append pair body
  | case4 c rest single more ih =>
    by_cases quote : c = '"'
    · exact .inr ⟨[], rest, rfl, by rw [quote]; rfl⟩
    · have one : isWellEscaped [c] = true := by
        rw [isWellEscaped_cons (ne_backslash_of_unpaired single more)]
        simpa [isWellEscaped] using quote
      rcases ih with opened | ⟨body, after, escaped, rfl⟩
      · exact .inl (opened.append one)
      · refine .inr ⟨c :: body, after, ?_, rfl⟩
        rw [← escaped]
        exact isWellEscaped_append one body

theorem staysOpen_of_no_quote {text : List Char} (quoteless : '"' ∉ text) : StaysOpen text := by
  rcases staysOpen_or_closed text with opened | ⟨body, rest, -, rfl⟩
  · exact opened
  · exact absurd (List.mem_append_right body List.mem_cons_self) quoteless

namespace Scanner

/-- The tokens emitted so far, in reading order. -/
def tokens (scanner : Scanner) : List Token :=
  scanner.lexemes.reverse.map Lexeme.token

variable (scanner : Scanner)

@[simp] theorem mode_enter (mode : Mode) : (scanner.enter mode).mode = mode := rfl

@[simp] theorem tokens_enter (mode : Mode) : (scanner.enter mode).tokens = scanner.tokens := rfl

@[simp] theorem mode_pass (mode : Mode) (c : Char) : (scanner.pass mode c).mode = mode := rfl

@[simp] theorem tokens_pass (mode : Mode) (c : Char) : (scanner.pass mode c).tokens = scanner.tokens := rfl

@[simp] theorem mode_emit (token : Token) (line : Nat) : (scanner.emit token line).mode = .between := rfl

@[simp] theorem tokens_emit (token : Token) (line : Nat) :
    (scanner.emit token line).tokens = scanner.tokens ++ [token] := by
  simp [tokens, emit]

@[simp] theorem mode_emitText (held : List Char) (line : Nat) : (scanner.emitText held line).mode = .between := rfl

@[simp] theorem tokens_emitText (held : List Char) (line : Nat) :
    (scanner.emitText held line).tokens = scanner.tokens ++ [.text (String.ofList held.reverse)] :=
  tokens_emit _ _ _

/-- Everything that a character between tokens can do. -/
inductive Started (c : Char) : Scanner → Prop where
  | blank : Text.isBlank c = true → Started c (scanner.pass .between c)
  | slash : c = '/' → Started c (scanner.enter .slash)
  | conditional : c = '[' → Started c (scanner.enter .conditional)
  | opening : c = '{' → Started c (scanner.emit .opening scanner.line)
  | closing : c = '}' → Started c (scanner.emit .closing scanner.line)
  | quoted : c = '"' → Started c (scanner.enter (.quoted scanner.line []))
  | bare : ¬ Text.isBlank c = true → c ≠ '"' → Started c (scanner.enter (.bare [c]))

theorem started_between (c : Char) : Started scanner c (scanner.between c) := by
  rw [between]
  split
  · next blank => exact .blank blank
  next notBlank =>
    split
    · next same => exact .slash same
    split
    · next same => exact .conditional same
    split
    · next same => exact .opening same
    split
    · next same => exact .closing same
    split
    · next same => exact .quoted same
    · next other => exact .bare notBlank other

end Scanner

/-- A text that can stand in a token: the scanner ends it at its first quote that stands alone. -/
def Closed (text : String) : Prop :=
  isWellEscaped text.toList = true ∨ EndsDangling text.toList

namespace Scanner

/-- What the scanner holds back, once emitted, is closed. -/
def HoldsClosed : Mode → Prop
  | .bare held => '"' ∉ held
  | .quoted _ held => isWellEscaped held.reverse = true
  | .escaped _ held => ∃ before, held = '\\' :: before ∧ isWellEscaped before.reverse = true
  | _ => True

structure EmitsClosed (scanner : Scanner) : Prop where
  tokens : ∀ text, .text text ∈ scanner.tokens → Closed text
  mode : HoldsClosed scanner.mode

theorem EmitsClosed.enter {scanner : Scanner} (closed : EmitsClosed scanner) {mode : Mode} (held : HoldsClosed mode) :
    EmitsClosed (scanner.enter mode) :=
  ⟨closed.tokens, held⟩

theorem EmitsClosed.emit {scanner : Scanner} (closed : EmitsClosed scanner) {token : Token} (line : Nat)
    (new : ∀ text, token = .text text → Closed text) : EmitsClosed (scanner.emit token line) := by
  refine ⟨?_, trivial⟩
  intro text member
  rw [tokens_emit, List.mem_append, List.mem_singleton] at member
  rcases member with old | same
  · exact closed.tokens text old
  · exact new text same.symm

theorem EmitsClosed.emitText {scanner : Scanner} (closed : EmitsClosed scanner) {held : List Char} (line : Nat)
    (new : Closed (String.ofList held.reverse)) : EmitsClosed (scanner.emitText held line) := by
  apply closed.emit
  intro text same
  rw [Token.text.injEq] at same
  exact same ▸ new

theorem EmitsClosed.between {scanner : Scanner} (closed : EmitsClosed scanner) (c : Char) :
    EmitsClosed (scanner.between c) := by
  have started := started_between scanner c
  generalize scanner.between c = next at started ⊢
  cases started with
  | blank => exact ⟨closed.tokens, trivial⟩
  | slash => exact closed.enter trivial
  | conditional => exact closed.enter trivial
  | opening => exact closed.emit _ (fun _ same => nomatch same)
  | closing => exact closed.emit _ (fun _ same => nomatch same)
  | quoted => exact closed.enter rfl
  | bare _ other => exact closed.enter (by simpa [HoldsClosed] using Ne.symm other)

theorem EmitsClosed.bare {scanner : Scanner} (closed : EmitsClosed scanner) {held : List Char} (c : Char)
    (quoteless : '"' ∉ held) : EmitsClosed (scanner.bare held c) := by
  -- without a quote in it, only its last backslash can be wrong with a bare text
  have new : Closed (String.ofList held.reverse) := by
    rw [Closed, String.toList_ofList]
    exact staysOpen_of_no_quote (by rwa [List.mem_reverse])
  rw [Scanner.bare]
  split
  · exact (closed.emitText scanner.line new).between c
  · next goes =>
    simp only [endsBare, Bool.or_eq_true, beq_iff_eq, not_or] at goes
    refine closed.enter ?_
    rw [HoldsClosed, List.mem_cons, not_or]
    exact ⟨Ne.symm goes.1.1.2, quoteless⟩

theorem EmitsClosed.step {scanner : Scanner} (closed : EmitsClosed scanner) (c : Char) :
    EmitsClosed (scanner.step c) := by
  obtain ⟨mode, line, lexemes⟩ := scanner
  cases mode with
  | between => exact closed.between c
  | slash =>
    simp only [Scanner.step]
    split
    · exact closed.enter trivial
    · exact closed.bare c (by decide)
  | comment =>
    simp only [Scanner.step]
    refine ⟨closed.tokens, ?_⟩
    rw [mode_pass]
    split <;> trivial
  | conditional =>
    simp only [Scanner.step]
    refine ⟨closed.tokens, ?_⟩
    rw [mode_pass]
    split <;> trivial
  | bare held => exact closed.bare c closed.mode
  | quoted start held =>
    have paired : isWellEscaped held.reverse = true := closed.mode
    simp only [Scanner.step]
    split
    · apply closed.emitText
      rw [Closed, String.toList_ofList]
      exact .inl paired
    · next inside =>
      split
      · next same =>
        exact closed.enter ⟨held, by rw [same], paired⟩
      · next plain =>
        -- neither a quote nor a backslash, so the pairs before it stay as they are
        refine ⟨closed.tokens, ?_⟩
        rw [mode_pass, HoldsClosed, List.reverse_cons, isWellEscaped_append paired, isWellEscaped_cons plain]
        simpa [isWellEscaped] using inside
  | escaped start held =>
    obtain ⟨before, same, paired⟩ := closed.mode
    refine ⟨closed.tokens, ?_⟩
    simp only [Scanner.step, mode_pass, HoldsClosed]
    rw [same, List.reverse_cons, List.reverse_cons, List.append_assoc, isWellEscaped_append paired]
    rfl

theorem EmitsClosed.run {scanner : Scanner} (closed : EmitsClosed scanner) (text : List Char) :
    EmitsClosed (text.foldl Scanner.step scanner) := by
  induction text generalizing scanner with
  | nil => exact closed
  | cons c rest ih => exact ih (closed.step c)

theorem EmitsClosed.finish {scanner : Scanner} (closed : EmitsClosed scanner) :
    ∀ text, .text text ∈ scanner.finish.tokens → Closed text := by
  obtain ⟨mode, line, lexemes⟩ := scanner
  cases mode with
  | bare held =>
    have new : Closed (String.ofList held.reverse) := by
      rw [Closed, String.toList_ofList]
      have quoteless : '"' ∉ held := closed.mode
      exact staysOpen_of_no_quote (by rwa [List.mem_reverse])
    exact (closed.emitText line new).tokens
  | slash => exact (closed.emitText line (.inl rfl)).tokens
  | between => exact closed.tokens
  | comment => exact closed.tokens
  | conditional => exact closed.tokens
  | quoted start held => exact closed.tokens
  | escaped start held => exact closed.tokens

end Scanner

theorem closed_of_mem_lex {source text : String} (member : .text text ∈ (lex source).tokens) : Closed text := by
  have start : Scanner.EmitsClosed Scanner.start := ⟨(fun _ member => nomatch member), trivial⟩
  exact (start.run source.toList).finish text member

namespace Scanner

/-- The line after a character that stood on `line`. -/
theorem line_pass (c : Char) (line : Nat) : (if c = '\n' then line + 1 else line) = line + [c].count '\n' := by
  by_cases lineBreak : c = '\n' <;> simp [lineBreak]

/-- What reading a text does to a scanner, whatever it is inside of: lines are counted, and lexemes are added. -/
structure Follows (scanner : Scanner) (text : List Char) (later : Scanner) : Prop where
  line : later.line = scanner.line + text.count '\n'
  lexemes : scanner.lexemes <:+ later.lexemes

theorem follows_enter (scanner : Scanner) (mode : Mode) {c : Char} (inLine : c ≠ '\n') :
    Follows scanner [c] (scanner.enter mode) :=
  ⟨by simp [enter, inLine], List.suffix_rfl⟩

theorem follows_pass (scanner : Scanner) (mode : Mode) (c : Char) : Follows scanner [c] (scanner.pass mode c) :=
  ⟨line_pass c scanner.line, List.suffix_rfl⟩

theorem follows_emit (scanner : Scanner) (token : Token) (line : Nat) {c : Char} (inLine : c ≠ '\n') :
    Follows scanner [c] (scanner.emit token line) :=
  ⟨by simp [emit, inLine], List.suffix_cons _ _⟩

theorem follows_between (scanner : Scanner) (c : Char) : Follows scanner [c] (scanner.between c) := by
  have started := started_between scanner c
  generalize scanner.between c = next at started ⊢
  cases started with
  | blank => exact follows_pass scanner _ c
  | slash same => exact follows_enter scanner _ (by rw [same]; decide)
  | conditional same => exact follows_enter scanner _ (by rw [same]; decide)
  | opening same => exact follows_emit scanner _ _ (by rw [same]; decide)
  | closing same => exact follows_emit scanner _ _ (by rw [same]; decide)
  | quoted same => exact follows_enter scanner _ (by rw [same]; decide)
  | bare notBlank _ => exact follows_enter scanner _ fun same => notBlank (by rw [same]; exact Text.isBlank_newline)

theorem follows_bare (scanner : Scanner) (held : List Char) (c : Char) : Follows scanner [c] (scanner.bare held c) := by
  rw [bare]
  split
  · have next := follows_between (scanner.emitText held scanner.line) c
    exact ⟨next.line, (List.suffix_cons _ _).trans next.lexemes⟩
  · next goesOn =>
    apply follows_enter
    rintro rfl
    exact goesOn (by decide)

theorem follows_step (scanner : Scanner) (c : Char) : Follows scanner [c] (scanner.step c) := by
  obtain ⟨mode, line, lexemes⟩ := scanner
  cases mode with
  | between => exact follows_between _ c
  | slash =>
    simp only [step]
    split
    · next same => exact follows_enter _ _ (by rw [same]; decide)
    · exact follows_bare _ _ c
  | comment => exact follows_pass _ _ c
  | conditional => exact follows_pass _ _ c
  | bare held => exact follows_bare _ held c
  | quoted start held =>
    simp only [step]
    split
    · next quote => exact follows_emit _ _ _ (by rw [quote]; decide)
    split
    · next backslash => exact follows_enter _ _ (by rw [backslash]; decide)
    · exact follows_pass _ _ c
  | escaped start held => exact follows_pass _ _ c

theorem follows_run (scanner : Scanner) (text : List Char) : Follows scanner text (text.foldl step scanner) := by
  induction text generalizing scanner with
  | nil => exact ⟨rfl, List.suffix_rfl⟩
  | cons c rest ih =>
    have first := follows_step scanner c
    have later := ih (scanner.step c)
    have split : (c :: rest).count '\n' = [c].count '\n' + rest.count '\n' := by
      rw [← List.count_append, List.singleton_append]
    refine ⟨?_, first.lexemes.trans later.lexemes⟩
    rw [List.foldl_cons, later.line, first.line, split, Nat.add_assoc]

theorem Follows.lexemes_eq {scanner later : Scanner} {text : List Char} (follows : Follows scanner text later)
    (same : later.tokens = scanner.tokens) : later.lexemes = scanner.lexemes := by
  have length := congrArg List.length same
  simp only [tokens, List.length_map, List.length_reverse] at length
  exact (follows.lexemes.eq_of_length length.symm).symm

theorem step_plain {c : Char} (notQuote : c ≠ '"') (notBackslash : c ≠ '\\') (start line : Nat) (held : List Char)
    (lexemes : List Lexeme) :
    step ⟨.quoted start held, line, lexemes⟩ c = ⟨.quoted start (c :: held), line + [c].count '\n', lexemes⟩ := by
  rw [← line_pass]
  simp [step, notQuote, notBackslash, pass]

theorem step_closingQuote (start line : Nat) (held : List Char) (lexemes : List Lexeme) :
    step ⟨.quoted start held, line, lexemes⟩ '"' = emitText ⟨.quoted start held, line, lexemes⟩ held start := by
  simp [step]

theorem step_escaped (c : Char) (start line : Nat) (held : List Char) (lexemes : List Lexeme) :
    step ⟨.escaped start held, line, lexemes⟩ c = ⟨.quoted start (c :: held), line + [c].count '\n', lexemes⟩ := by
  rw [← line_pass]
  rfl

/-- A well escaped text goes into the quoted token as it is. -/
theorem run_wellEscaped {text : List Char} (escaped : isWellEscaped text = true) (start line : Nat)
    (held : List Char) (lexemes : List Lexeme) :
    text.foldl step ⟨.quoted start held, line, lexemes⟩ =
      ⟨.quoted start (text.reverse ++ held), line + text.count '\n', lexemes⟩ := by
  fun_induction isWellEscaped text generalizing line held with
  | case1 => rfl
  | case2 => cases escaped
  | case3 c rest ih =>
    have pair : step (step ⟨.quoted start held, line, lexemes⟩ '\\') c = _ :=
      step_escaped c start line ('\\' :: held) lexemes
    rw [List.foldl_cons, List.foldl_cons, pair, ih escaped]
    simp [List.count_cons, Nat.add_comm, Nat.add_left_comm]
  | case4 c rest single more ih =>
    rw [Bool.and_eq_true, bne_iff_ne] at escaped
    have plain := ne_backslash_of_unpaired single more
    rw [List.foldl_cons, step_plain escaped.1 plain, ih escaped.2]
    simp [List.count_cons, Nat.add_comm, Nat.add_left_comm]

/-- After a dangling backslash the closing quote is taken along. -/
theorem run_dangling {text : List Char} (dangling : EndsDangling text) (start line : Nat) (lexemes : List Lexeme) :
    (text ++ ['"']).foldl step ⟨.quoted start [], line, lexemes⟩ =
      ⟨.quoted start ('"' :: text.reverse), line + text.count '\n', lexemes⟩ := by
  obtain ⟨before, escaped, rfl⟩ := dangling
  rw [List.append_assoc, List.foldl_append, run_wellEscaped escaped]
  simp [step, enter, pass, List.count_append]

end Scanner

end Compendium.KeyValues
