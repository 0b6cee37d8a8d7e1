import Compendium.Proofs.KeyValues.Lines
import Compendium.Proofs.KeyValues.Pieces
import Compendium.Proofs.KeyValues.Tree
import Mathlib

/-! Texts that differ in their layout only. The same tokens can be quoted or bare, with any blanks, comments and
conditionals between them. The scanner gives back these tokens, so that reading comes to the same entries, or to a
fault of the same kind. -/

set_option autoImplicit false
namespace Compendium.KeyValues

/-- What separates tokens. -/
inductive Filler where
  | blank (c : Char) (isBlank : Text.isBlank c = true)
  | comment (body : List Char) (inLine : '\n' ∉ body)
  | conditional (body : List Char) (unclosed : ']' ∉ body)

abbrev Separator := List Filler

/-- A text that can do without quotes. -/
structure Bare (text : List Char) : Prop where
  nonempty : text ≠ []
  plain : ∀ c ∈ text, Text.isBlank c = false ∧ c ≠ '"' ∧ c ≠ '{' ∧ c ≠ '}'
  noConditional : ¬ ['['] <+: text
  noComment : ¬ ['/', '/'] <+: text

inductive Spelling where
  | opening
  | closing
  | quoted (text : String) (escaped : WellEscaped text)
  | bare (text : String) (plain : Bare text.toList)

def Filler.chars : Filler → List Char
  | .blank c _ => [c]
  | .comment body _ => '/' :: '/' :: (body ++ ['\n'])
  | .conditional body _ => '[' :: (body ++ [']'])

def Separator.chars (separator : Separator) : List Char :=
  separator.flatMap Filler.chars

namespace Spelling

def chars : Spelling → List Char
  | .opening => ['{']
  | .closing => ['}']
  | .quoted text _ => quote text
  | .bare text _ => text.toList

def token : Spelling → Token
  | .opening => .opening
  | .closing => .closing
  | .quoted text _ => .text text
  | .bare text _ => .text text

def isBare : Spelling → Bool
  | .bare _ _ => true
  | _ => false

end Spelling

/-- Tokens as they are written, each with the separator behind it. -/
abbrev Written := List (Spelling × Separator)

namespace Written

def chars (written : Written) : List Char :=
  written.flatMap fun entry => entry.1.chars ++ Separator.chars entry.2

def tokens (written : Written) : List Token :=
  written.map fun entry => entry.1.token

/-- Behind a bare text stands a blank, or at once a quote, a brace or the end. -/
def EndsBareText : Separator → Written → Prop
  | .blank _ _ :: _, _ => True
  | [], (next, _) :: _ => next.isBare = false
  | [], [] => True
  | _, _ => False

def Separated : Written → Prop
  | [] => True
  | (spelling, separator) :: rest => (spelling.isBare = true → EndsBareText separator rest) ∧ Separated rest

end Written

structure Layout where
  before : Separator
  written : Written
  separated : written.Separated

namespace Layout

def text (layout : Layout) : String :=
  String.ofList (layout.before.chars ++ layout.written.chars)

def tokens (layout : Layout) : List Token :=
  layout.written.tokens

end Layout

theorem Bare.not_endsBare {text : List Char} (bare : Bare text) {c : Char} (member : c ∈ text) :
    Scanner.endsBare c = false := by
  obtain ⟨notBlank, notQuote, notOpening, notClosing⟩ := bare.plain c member
  simp [Scanner.endsBare, notBlank, notQuote, notOpening, notClosing]

theorem Written.EndsBareText.endsBare {separator : Separator} {rest : Written} (ends : EndsBareText separator rest)
    {c : Char} {more : List Char} (next : separator.chars ++ rest.chars = c :: more) : Scanner.endsBare c = true := by
  cases separator with
  | cons filler fillers =>
    cases filler with
    | blank b isBlank =>
      obtain ⟨rfl, -⟩ := List.cons.inj next
      simp [Scanner.endsBare, isBlank]
    | comment body inLine => exact ends.elim
    | conditional body unclosed => exact ends.elim
  | nil =>
    cases rest with
    | nil => cases next
    | cons entry rest =>
      obtain ⟨spelling, separator⟩ := entry
      cases spelling with
      | bare text plain => cases ends
      | opening =>
        obtain ⟨rfl, -⟩ := List.cons.inj next
        decide
      | closing =>
        obtain ⟨rfl, -⟩ := List.cons.inj next
        decide
      | quoted text escaped =>
        obtain ⟨rfl, -⟩ := List.cons.inj next
        decide

namespace Scanner

/-- The scanner is in this mode, having emitted these. -/
structure Stays (mode : Mode) (emitted : List Token) (scanner : Scanner) : Prop where
  mode : scanner.mode = mode
  tokens : scanner.tokens = emitted

theorem Stays.run {mode : Mode} {emitted : List Token} {scanner : Scanner} (stays : Stays mode emitted scanner)
    (body : List Char)
    (step : ∀ c ∈ body, ∀ scanner, Stays mode emitted scanner → Stays mode emitted (Scanner.step scanner c)) :
    Stays mode emitted (body.foldl Scanner.step scanner) := by
  induction body generalizing scanner with
  | nil => exact stays
  | cons c body ih =>
    apply ih (step c List.mem_cons_self scanner stays)
    exact fun c member => step c (List.mem_cons_of_mem _ member)

theorem Stays.step_comment {emitted : List Token} {scanner : Scanner} (stays : Stays .comment emitted scanner) (c : Char) :
    Stays (if c = '\n' then .between else .comment) emitted (scanner.step c) := by
  rw [step, stays.mode]
  exact ⟨rfl, stays.tokens⟩

theorem Stays.step_conditional {emitted : List Token} {scanner : Scanner} (stays : Stays .conditional emitted scanner)
    (c : Char) : Stays (if c = ']' then .between else .conditional) emitted (scanner.step c) := by
  rw [step, stays.mode]
  exact ⟨rfl, stays.tokens⟩

theorem Stays.run_comment {emitted : List Token} {scanner : Scanner} (stays : Stays .comment emitted scanner)
    {body : List Char} (inLine : '\n' ∉ body) : Stays .comment emitted (body.foldl Scanner.step scanner) := by
  apply stays.run body
  intro c member scanner stays
  have other : c ≠ '\n' := fun same => inLine (same ▸ member)
  simpa [other] using stays.step_comment c

theorem Stays.run_conditional {emitted : List Token} {scanner : Scanner} (stays : Stays .conditional emitted scanner)
    {body : List Char} (unclosed : ']' ∉ body) : Stays .conditional emitted (body.foldl Scanner.step scanner) := by
  apply stays.run body
  intro c member scanner stays
  have other : c ≠ ']' := fun same => unclosed (same ▸ member)
  simpa [other] using stays.step_conditional c

theorem Rests.step {scanner : Scanner} {emitted : List Token} (rests : Rests scanner emitted) (c : Char) :
    scanner.step c = scanner.between c := by
  rw [Scanner.step, rests.mode]

theorem Rests.run_filler {scanner : Scanner} {emitted : List Token} (rests : Rests scanner emitted) (filler : Filler) :
    Rests (filler.chars.foldl Scanner.step scanner) emitted := by
  cases filler with
  | blank c isBlank =>
    simp only [Filler.chars, List.foldl_cons, List.foldl_nil, rests.step, between, isBlank, ↓reduceIte]
    exact ⟨rfl, rests.tokens⟩
  | comment body inLine =>
    have slashes : Stays .comment emitted ((scanner.step '/').step '/') := by
      rw [rests.step]
      exact ⟨rfl, rests.tokens⟩
    have outside := (slashes.run_comment inLine).step_comment '\n'
    rw [Filler.chars, List.foldl_cons, List.foldl_cons, List.foldl_append]
    exact ⟨outside.mode, outside.tokens⟩
  | conditional body unclosed =>
    have bracket : Stays .conditional emitted (scanner.step '[') := by
      rw [rests.step]
      exact ⟨rfl, rests.tokens⟩
    have outside := (bracket.run_conditional unclosed).step_conditional ']'
    rw [Filler.chars, List.foldl_cons, List.foldl_append]
    exact ⟨outside.mode, outside.tokens⟩

theorem Rests.run_separator {scanner : Scanner} {emitted : List Token} (rests : Rests scanner emitted)
    (separator : Separator) : Rests (separator.chars.foldl Scanner.step scanner) emitted := by
  induction separator generalizing scanner with
  | nil => exact rests
  | cons filler rest ih =>
    rw [Separator.chars, List.flatMap_cons, List.foldl_append]
    exact ih (rests.run_filler filler)

/-- The scanner holds a bare text back: one slash could still open a comment. -/
structure Holds (held : List Char) (emitted : List Token) (scanner : Scanner) : Prop where
  mode : scanner.mode = .bare held ∨ scanner.mode = .slash ∧ held = ['/']
  tokens : scanner.tokens = emitted

theorem Holds.step {held : List Char} {emitted : List Token} {scanner : Scanner} (holds : Holds held emitted scanner)
    {c : Char} (goesOn : endsBare c = false) (noComment : ¬ (held = ['/'] ∧ c = '/')) :
    Holds (c :: held) emitted (scanner.step c) := by
  have next : scanner.step c = scanner.enter (.bare (c :: held)) := by
    rcases holds.mode with inBare | ⟨inSlash, rfl⟩
    · rw [Scanner.step, inBare]
      simp [Scanner.bare, goesOn]
    · have other : c ≠ '/' := fun same => noComment ⟨rfl, same⟩
      rw [Scanner.step, inSlash]
      simp [Scanner.bare, goesOn, other]
  rw [next]
  exact ⟨.inl rfl, holds.tokens⟩

theorem Holds.run {held : List Char} {emitted : List Token} {scanner : Scanner} (holds : Holds held emitted scanner)
    (rest : List Char) (goesOn : ∀ c ∈ rest, endsBare c = false) (noComment : held = ['/'] → ¬ ['/'] <+: rest)
    (started : held ≠ []) : Holds (rest.reverse ++ held) emitted (rest.foldl Scanner.step scanner) := by
  induction rest generalizing held scanner with
  | nil => exact holds
  | cons c rest ih =>
    have next := holds.step (goesOn c List.mem_cons_self) fun both => noComment both.1 (by simp [both.2])
    have later := ih next (fun c member => goesOn c (List.mem_cons_of_mem _ member))
      (fun same => absurd (List.cons.inj same).2 started) (List.cons_ne_nil _ _)
    simpa using later

theorem Rests.step_bareStart {scanner : Scanner} {emitted : List Token} (rests : Rests scanner emitted) {c : Char}
    (goesOn : endsBare c = false) (noConditional : c ≠ '[') : Holds [c] emitted (scanner.step c) := by
  simp only [endsBare, Bool.or_eq_false_iff, beq_eq_false_iff_ne] at goesOn
  obtain ⟨⟨⟨notBlank, notQuote⟩, notOpening⟩, notClosing⟩ := goesOn
  rw [rests.step]
  by_cases slash : c = '/'
  · subst slash
    exact ⟨.inr ⟨rfl, rfl⟩, rests.tokens⟩
  · simp only [between, notBlank, slash, noConditional, notOpening, notClosing, notQuote, Bool.false_eq_true, ↓reduceIte]
    exact ⟨.inl rfl, rests.tokens⟩

theorem Rests.run_bare {scanner : Scanner} {emitted : List Token} (rests : Rests scanner emitted) {text : List Char}
    (bare : Bare text) : Holds text.reverse emitted (text.foldl Scanner.step scanner) := by
  cases text with
  | nil => exact absurd rfl bare.nonempty
  | cons c rest =>
    have noConditional : c ≠ '[' := fun same => bare.noConditional (by simp [same])
    -- the first character opens the text, and a second slash would make it a comment
    have start := rests.step_bareStart (bare.not_endsBare List.mem_cons_self) noConditional
    have whole := start.run rest (fun c member => bare.not_endsBare (List.mem_cons_of_mem _ member))
      (by
        intro same double
        obtain ⟨rfl, -⟩ := List.cons.inj same
        exact bare.noComment (by simpa using double))
      (List.cons_ne_nil _ _)
    simpa using whole

/-- What ends a bare text finds the scanner as it would be between tokens, with the text emitted. -/
theorem Holds.finish {held : List Char} {emitted : List Token} {scanner : Scanner} (holds : Holds held emitted scanner)
    {rest : List Char} (ends : ∀ c more, rest = c :: more → endsBare c = true) :
    (rest.foldl Scanner.step scanner).finish =
      (rest.foldl Scanner.step (scanner.emitText held scanner.line)).finish := by
  cases rest with
  | nil =>
    rcases holds.mode with inBare | ⟨inSlash, rfl⟩
    · simp only [List.foldl_nil, Scanner.finish, inBare, mode_emitText]
    · simp only [List.foldl_nil, Scanner.finish, inSlash, mode_emitText]
  | cons c more =>
    have ended := ends c more rfl
    have same : scanner.step c = (scanner.emitText held scanner.line).step c := by
      rcases holds.mode with inBare | ⟨inSlash, rfl⟩
      · simp only [Scanner.step, inBare, Scanner.bare, ended, ↓reduceIte, mode_emitText]
      · have other : c ≠ '/' := by
          rintro rfl
          cases ended
        simp only [Scanner.step, inSlash, Scanner.bare, ended, other, ↓reduceIte, mode_emitText]
    rw [List.foldl_cons, List.foldl_cons, same]

theorem Holds.emit {held : List Char} {emitted : List Token} {scanner : Scanner} (holds : Holds held emitted scanner) :
    Rests (scanner.emitText held scanner.line) (emitted ++ [.text (String.ofList held.reverse)]) := by
  refine ⟨rfl, ?_⟩
  rw [tokens_emitText, holds.tokens]

theorem Rests.run_spelling {scanner : Scanner} {emitted : List Token} (rests : Rests scanner emitted)
    (spelling : Spelling) (rest : List Char)
    (ends : spelling.isBare = true → ∀ c more, rest = c :: more → endsBare c = true) :
    ∃ later, Rests later (emitted ++ [spelling.token]) ∧
      ((spelling.chars ++ rest).foldl Scanner.step scanner).finish = (rest.foldl Scanner.step later).finish := by
  rw [List.foldl_append]
  cases spelling with
  | opening => exact ⟨_, rests.step_piece .opening (fun _ same => nomatch same), rfl⟩
  | closing => exact ⟨_, rests.step_piece .closing (fun _ same => nomatch same), rfl⟩
  | quoted text escaped => exact ⟨_, rests.step_text escaped, rfl⟩
  | bare text plain =>
    -- nothing of a bare text is emitted before the character that ends it
    have holds := rests.run_bare plain
    have emits := holds.emit
    rw [List.reverse_reverse, String.ofList_toList] at emits
    exact ⟨_, emits, holds.finish (ends rfl)⟩

theorem Rests.run_written {scanner : Scanner} {emitted : List Token} (rests : Rests scanner emitted) {written : Written}
    (separated : written.Separated) :
    (written.chars.foldl Scanner.step scanner).finish.ending = .complete ∧
      (written.chars.foldl Scanner.step scanner).finish.tokens = emitted ++ written.tokens := by
  induction written generalizing scanner emitted with
  | nil =>
    have finished := rests.finish
    simpa [Written.chars, Written.tokens] using finished
  | cons entry rest ih =>
    obtain ⟨spelling, separator⟩ := entry
    obtain ⟨ends, separated⟩ := separated
    have chars : Written.chars ((spelling, separator) :: rest) =
        spelling.chars ++ (separator.chars ++ Written.chars rest) := by
      simp [Written.chars]
    obtain ⟨later, restsLater, same⟩ := rests.run_spelling spelling (separator.chars ++ Written.chars rest)
      fun isBare c more next => (ends isBare).endsBare next
    have finished := ih (restsLater.run_separator separator) separated
    rw [chars, same, List.foldl_append]
    simpa [Written.tokens] using finished

end Scanner

/-- The tokens of a layout are the tokens that are read from it. -/
theorem lex_layout (layout : Layout) :
    (lex layout.text).ending = .complete ∧ (lex layout.text).tokens = layout.tokens := by
  have run := (Scanner.rests_start.run_separator layout.before).run_written layout.separated
  rw [lex, Layout.text, String.toList_ofList, lexChars, List.foldl_append]
  simpa [Layout.tokens] using run

/-- What is read from a text depends on its tokens only, not on the way they are laid out. -/
theorem ofBlockText_layout (layout : Layout) :
    (lex layout.text).ending = .complete ∧ (lex layout.text).tokens = layout.tokens ∧
    ∀ other : Layout, other.tokens = layout.tokens →
      (∀ document, Resource.ofBlockText layout.text = .ok document → Resource.ofBlockText other.text = .ok document) ∧
      (∀ error, Resource.ofBlockText layout.text = .error error → ∃ fault moved, error = .fault fault ∧
        Resource.ofBlockText other.text = .error (.fault moved) ∧ moved.kind = fault.kind) := by
  obtain ⟨complete, tokens⟩ := lex_layout layout
  refine ⟨complete, tokens, ?_⟩
  intro other same
  obtain ⟨otherComplete, otherTokens⟩ := lex_layout other
  have agree : Agree Eq (read layout.text) (read other.text) :=
    readLexed_agree (by rw [tokens, otherTokens, same]) complete otherComplete
  constructor
  · intro document accepted
    obtain ⟨entries, here, rfl⟩ := (Resource.ofBlockText_eq_ok_iff _ _).mp accepted
    rw [here] at agree
    generalize there : read other.text = outcome at agree
    cases agree with
    | ok equal => exact (Resource.ofBlockText_eq_ok_iff _ _).mpr ⟨entries, equal ▸ there, rfl⟩
  · intro error failed
    obtain ⟨fault, here, rfl⟩ := (Resource.ofBlockText_eq_error_iff _ _).mp failed
    rw [here] at agree
    generalize there : read other.text = outcome at agree
    cases agree with
    | @error _ moved kind =>
      exact ⟨fault, moved, rfl, (Resource.ofBlockText_eq_error_iff _ _).mpr ⟨moved, there, rfl⟩, kind.symm⟩

/-- Bare texts among comments and conditionals are read as the same texts in quotes without anything between them. -/
theorem ofBlockText_layout_commented :
    Resource.ofBlockText "\"a\"\x7b\"b\"\"/c\"\x7d" = .ok (.table [("a", .table [("b", .text "/c")])]) ∧
    Resource.ofBlockText " a\n// \" \x7d [\n[$X //\n]\x7bb\t/c\x7d// end\n" =
      .ok (.table [("a", .table [("b", .text "/c")])]) := by
  have bareA : Bare "a".toList := ⟨by decide, List.forall_mem_singleton.mpr (by decide), by decide, by decide⟩
  have bareB : Bare "b".toList := ⟨by decide, List.forall_mem_singleton.mpr (by decide), by decide, by decide⟩
  have bareC : Bare "/c".toList := ⟨by decide, List.forall_mem_cons.mpr ⟨by decide,
    List.forall_mem_singleton.mpr (by decide)⟩, by decide, by decide⟩
  let tight : Layout := ⟨[], [(.quoted "a" (by decide), []), (.opening, []), (.quoted "b" (by decide), []),
    (.quoted "/c" (by decide), []), (.closing, [])], by simp [Written.Separated, Spelling.isBare]⟩
  let spread : Layout := ⟨[.blank ' ' (by decide)],
    [(.bare "a" bareA, [.blank '\n' (by decide), .comment " \" \x7d [".toList (by decide),
      .conditional "$X //\n".toList (by decide)]), (.opening, []), (.bare "b" bareB, [.blank '\t' (by decide)]),
      (.bare "/c" bareC, []), (.closing, [.comment " end".toList (by decide)])],
    by simp [Written.Separated, Written.EndsBareText, Spelling.isBare]⟩
  have read : read tight.text = .ok [("a", .block [("b", .text "/c")])] := by cbv
  have accepted := (Resource.ofBlockText_eq_ok_iff _ _).mpr ⟨_, read, rfl⟩
  exact ⟨accepted, ((ofBlockText_layout tight).2.2 spread rfl).1 _ accepted⟩

end Compendium.KeyValues
