import Compendium.Proofs.KeyValues.Grammar

/-! What the reader makes of a sequence of tokens: the entries of a document, stored one after the other, or the
first fault. -/

set_option autoImplicit false
namespace Compendium.KeyValues

mutual

/-- A node of a tree that may repeat keys, with its blocks merged. -/
def Node.merged : Node → Node
  | .text value => .text value
  | .block entries => .block (storeAll [] entries)

/-- Stores entries one after the other. A block is merged by itself before it is stored. -/
def storeAll (target : Entries) : List (String × Node) → Entries
  | [] => target
  | (key, node) :: rest => storeAll (Entries.store target key node.merged) rest

end

namespace Reader

theorem run_append {reader middle : Reader} {first : List Lexeme} (ran : first.foldlM step reader = .ok middle)
    (second : List Lexeme) : (first ++ second).foldlM step reader = second.foldlM step middle := by
  rw [List.foldlM_append, ran]
  rfl

theorem run_cons_ok {reader next : Reader} {lexeme : Lexeme} (stepped : reader.step lexeme = .ok next)
    (rest : List Lexeme) : (lexeme :: rest).foldlM step reader = rest.foldlM step next := by
  rw [List.foldlM_cons, stepped]
  rfl

theorem run_cons_error {reader : Reader} {lexeme : Lexeme} {fault : Fault}
    (stepped : reader.step lexeme = .error fault) (rest : List Lexeme) :
    (lexeme :: rest).foldlM step reader = .error fault := by
  rw [List.foldlM_cons, stepped]
  rfl

theorem run_value (outer : List Frame) (entries : Entries) (key value : String) (keyLine line : Nat)
    (rest : List Lexeme) :
    (⟨.text key, keyLine⟩ :: ⟨.text value, line⟩ :: rest).foldlM step ⟨outer, entries, none⟩ =
      rest.foldlM step ⟨outer, Entries.store entries key (.text value), none⟩ := by
  rfl

theorem run_opening (outer : List Frame) (entries : Entries) (key : String) (keyLine line : Nat)
    (rest : List Lexeme) :
    (⟨.text key, keyLine⟩ :: ⟨.opening, line⟩ :: rest).foldlM step ⟨outer, entries, none⟩ =
      rest.foldlM step ⟨⟨entries, key⟩ :: outer, [], none⟩ := by
  rfl

theorem run_closing (outer : List Frame) (around entries : Entries) (key : String) (line : Nat)
    (rest : List Lexeme) :
    (⟨.closing, line⟩ :: rest).foldlM step ⟨⟨around, key⟩ :: outer, entries, none⟩ =
      rest.foldlM step ⟨outer, Entries.store around key (.block entries), none⟩ := by
  rfl

/-- The frames around a document do not matter to it, and what it holds is stored into the entries before it. -/
theorem run_tokensOf : ∀ (written : List (String × Node)) (lexemes : List Lexeme) (outer : List Frame)
    (entries : Entries), lexemes.map Lexeme.token = tokensOf written →
    lexemes.foldlM step ⟨outer, entries, none⟩ = .ok ⟨outer, storeAll entries written, none⟩
  | [], lexemes, outer, entries, same => by
    rw [tokensOf, List.map_eq_nil_iff] at same
    subst same
    rfl
  | (key, .text value) :: rest, lexemes, outer, entries, same => by
    simp only [tokensOf, Node.tokens, List.cons_append, List.nil_append, List.map_eq_cons_iff] at same
    obtain ⟨⟨_, keyLine⟩, _, rfl, rfl, ⟨_, line⟩, tail, rfl, rfl, same⟩ := same
    rw [run_value, run_tokensOf rest tail outer _ same]
    rfl
  | (key, .block inner) :: rest, lexemes, outer, entries, same => by
    simp only [tokensOf, Node.tokens, List.cons_append, List.nil_append, List.append_assoc,
      List.map_eq_cons_iff, List.map_eq_append_iff] at same
    obtain ⟨⟨_, keyLine⟩, _, rfl, rfl, ⟨_, openLine⟩, _, rfl, rfl, block, _, rfl, inside, ⟨_, closeLine⟩, tail, rfl,
      rfl, same⟩ := same
    -- the block is read behind a frame of its own, from no entries on, and stored at its closing brace
    rw [run_opening, run_append (run_tokensOf inner block _ [] inside), run_closing, run_tokensOf rest tail outer _ same]
    rfl

/-- Where reading is while there is no fault: between two entries, or after the key of one. -/
def Reached (lexemes : List Lexeme) (reader : Reader) : Prop :=
  match reader.pending with
  | none => Between (lexemes.map Lexeme.token) ∧ reader.outer.length = openBlocks (lexemes.map Lexeme.token)
  | some (key, line) => ∃ before, lexemes = before ++ [⟨.text key, line⟩] ∧
      Between (before.map Lexeme.token) ∧ reader.outer.length = openBlocks (before.map Lexeme.token)

theorem run_between {tokens : List Token} (between : Between tokens) (lexemes : List Lexeme)
    (same : lexemes.map Lexeme.token = tokens) :
    ∃ outer entries, lexemes.foldlM step start = .ok ⟨outer, entries, none⟩ ∧ outer.length = openBlocks tokens := by
  induction between generalizing lexemes with
  | start =>
    rw [List.map_eq_nil_iff] at same
    subst same
    exact ⟨[], [], rfl, rfl⟩
  | value key value _ ih =>
    simp only [List.map_eq_append_iff, List.map_eq_cons_iff, List.map_eq_nil_iff] at same
    obtain ⟨before, _, rfl, same, ⟨_, keyLine⟩, _, rfl, rfl, ⟨_, line⟩, _, rfl, rfl, rfl⟩ := same
    obtain ⟨outer, entries, ran, depth⟩ := ih before same
    refine ⟨outer, Entries.store entries key (.text value), ?_, ?_⟩
    · rw [run_append ran, run_value]
      rfl
    · rw [openBlocks_value, depth]
  | opening key earlier ih =>
    simp only [List.map_eq_append_iff, List.map_eq_cons_iff, List.map_eq_nil_iff] at same
    obtain ⟨before, _, rfl, same, ⟨_, keyLine⟩, _, rfl, rfl, ⟨_, line⟩, _, rfl, rfl, rfl⟩ := same
    obtain ⟨outer, entries, ran, depth⟩ := ih before same
    refine ⟨⟨entries, key⟩ :: outer, [], ?_, ?_⟩
    · rw [run_append ran, run_opening]
      rfl
    · rw [earlier.openBlocks_opening, List.length_cons, depth]
  | closing _ inside ih =>
    simp only [List.map_eq_append_iff, List.map_eq_cons_iff, List.map_eq_nil_iff] at same
    obtain ⟨before, _, rfl, same, ⟨_, line⟩, _, rfl, rfl, rfl⟩ := same
    obtain ⟨outer, entries, ran, depth⟩ := ih before same
    cases outer with
    | nil =>
      rw [List.length_nil] at depth
      omega
    | cons frame outer =>
      obtain ⟨around, key⟩ := frame
      refine ⟨outer, Entries.store around key (.block entries), ?_, ?_⟩
      · rw [run_append ran, run_closing]
        rfl
      · rw [List.length_cons] at depth
        rw [openBlocks_closing]
        omega

end Reader

/-- A fault among the tokens: one that nothing after it can mend. -/
inductive FaultAmong : List Lexeme → Fault → Prop where
  | closing {before after : List Lexeme} {line : Nat} : Between (before.map Lexeme.token) →
      openBlocks (before.map Lexeme.token) = 0 →
      FaultAmong (before ++ ⟨.closing, line⟩ :: after) (.unexpectedClosing line)
  | opening {before after : List Lexeme} {line : Nat} : Between (before.map Lexeme.token) →
      FaultAmong (before ++ ⟨.opening, line⟩ :: after) (.unexpectedOpening line)
  | closingAfterKey {before after : List Lexeme} {key : String} {line closingLine : Nat} :
      Between (before.map Lexeme.token) →
      FaultAmong (before ++ ⟨.text key, line⟩ :: ⟨.closing, closingLine⟩ :: after) (.missingValue key line)

/-- The first fault in reading order. A quoted text that is never closed counts where it starts, after every token
before it. -/
inductive FirstFault : Lexed → Fault → Prop where
  | among {lexemes : List Lexeme} {ending : Ending} {fault : Fault} : FaultAmong lexemes fault →
      FirstFault ⟨lexemes, ending⟩ fault
  | endAfterKey {before : List Lexeme} {key : String} {line : Nat} : Between (before.map Lexeme.token) →
      FirstFault ⟨before ++ [⟨.text key, line⟩], .complete⟩ (.missingValue key line)
  | endInBlock {lexemes : List Lexeme} : Between (lexemes.map Lexeme.token) →
      0 < openBlocks (lexemes.map Lexeme.token) →
      FirstFault ⟨lexemes, .complete⟩ (.unclosedBlocks (openBlocks (lexemes.map Lexeme.token)))
  | unterminatedKey {lexemes : List Lexeme} {line : Nat} : Between (lexemes.map Lexeme.token) →
      FirstFault ⟨lexemes, .unterminated line⟩ (.unterminatedText line)
  | unterminatedValue {before : List Lexeme} {key : String} {keyLine line : Nat} :
      Between (before.map Lexeme.token) →
      FirstFault ⟨before ++ [⟨.text key, keyLine⟩], .unterminated line⟩ (.unterminatedText line)

theorem FaultAmong.append {lexemes : List Lexeme} {fault : Fault} (among : FaultAmong lexemes fault)
    (more : List Lexeme) : FaultAmong (lexemes ++ more) fault := by
  cases among with
  | closing before balanced =>
    rw [List.append_assoc, List.cons_append]
    exact .closing before balanced
  | opening before =>
    rw [List.append_assoc, List.cons_append]
    exact .opening before
  | closingAfterKey before =>
    rw [List.append_assoc, List.cons_append, List.cons_append]
    exact .closingAfterKey before

namespace Reader

/-- What one run over the tokens comes to. -/
def Outcome (lexemes : List Lexeme) : Except Fault Reader → Prop
  | .ok reader => Reached lexemes reader
  | .error fault => FaultAmong lexemes fault

theorem Reached.step {lexemes : List Lexeme} {reader : Reader} (reached : Reached lexemes reader)
    (lexeme : Lexeme) : Outcome (lexemes ++ [lexeme]) (reader.step lexeme) := by
  obtain ⟨outer, entries, pending⟩ := reader
  obtain ⟨token, line⟩ := lexeme
  cases pending with
  | none =>
    obtain ⟨between, depth⟩ := reached
    cases token with
    | text key => exact ⟨lexemes, rfl, between, depth⟩
    | opening => exact .opening between
    | closing =>
      cases outer with
      | nil => exact .closing between depth.symm
      | cons frame outer =>
        -- there is a frame for every open block, so the brace closes one
        rw [List.length_cons] at depth
        refine ⟨?_, ?_⟩
        · rw [List.map_append]
          exact .closing between (by omega)
        · rw [List.map_append]
          change outer.length = openBlocks (_ ++ [.closing])
          rw [openBlocks_closing]
          omega
  | some pair =>
    obtain ⟨key, keyLine⟩ := pair
    obtain ⟨before, rfl, between, depth⟩ := reached
    cases token with
    | text value =>
      refine ⟨?_, ?_⟩
      · simpa using between.value key value
      · simpa [openBlocks_value] using depth
    | opening =>
      refine ⟨?_, ?_⟩
      · simpa using between.opening key
      · simpa [between.openBlocks_opening] using depth
    | closing =>
      rw [List.append_assoc]
      exact FaultAmong.closingAfterKey between

theorem Reached.run {before : List Lexeme} {reader : Reader} (reached : Reached before reader)
    (lexemes : List Lexeme) : Outcome (before ++ lexemes) (lexemes.foldlM Reader.step reader) := by
  induction lexemes generalizing before reader with
  | nil =>
    rw [List.append_nil]
    exact reached
  | cons lexeme rest ih =>
    have next := reached.step lexeme
    cases stepped : reader.step lexeme with
    | error fault =>
      rw [stepped] at next
      rw [run_cons_error stepped, List.append_cons]
      exact FaultAmong.append next rest
    | ok later =>
      rw [stepped] at next
      rw [run_cons_ok stepped, List.append_cons]
      exact ih next

end Reader

theorem readLexed_of_run {lexed : Lexed} {reader : Reader} (ran : lexed.lexemes.foldlM Reader.step Reader.start = .ok reader) :
    readLexed lexed = reader.finish lexed.ending := by
  rw [readLexed, ran]
  rfl

theorem readLexed_of_run_error {lexed : Lexed} {fault : Fault}
    (ran : lexed.lexemes.foldlM Reader.step Reader.start = .error fault) : readLexed lexed = .error fault := by
  rw [readLexed, ran]
  rfl

theorem readLexed_tokensOf {lexed : Lexed} {written : List (String × Node)} (complete : lexed.ending = .complete)
    (same : lexed.tokens = tokensOf written) : readLexed lexed = .ok (storeAll [] written) := by
  rw [readLexed_of_run (Reader.run_tokensOf written lexed.lexemes [] [] same), complete]
  rfl

/-- Reading stops at a fault among the tokens, or the end of the text decides. -/
theorem readLexed_cases (lexed : Lexed) :
    (∃ fault, FaultAmong lexed.lexemes fault ∧ readLexed lexed = .error fault) ∨
    ∃ reader, Reader.Reached lexed.lexemes reader ∧ readLexed lexed = reader.finish lexed.ending := by
  have start : Reader.Reached [] Reader.start := ⟨.start, rfl⟩
  have outcome := start.run lexed.lexemes
  rw [List.nil_append] at outcome
  cases ran : lexed.lexemes.foldlM Reader.step Reader.start with
  | error fault =>
    rw [ran] at outcome
    exact .inl ⟨fault, outcome, readLexed_of_run_error ran⟩
  | ok reader =>
    rw [ran] at outcome
    exact .inr ⟨reader, outcome, readLexed_of_run ran⟩

theorem firstFault_of_readLexed {lexed : Lexed} {fault : Fault} (failed : readLexed lexed = .error fault) :
    FirstFault lexed fault := by
  obtain ⟨lexemes, ending⟩ := lexed
  rcases readLexed_cases ⟨lexemes, ending⟩ with ⟨stopped, among, stops⟩ | ⟨⟨outer, entries, pending⟩, reached, ends⟩
  · rw [stops, Except.error.injEq] at failed
    exact failed ▸ .among among
  rw [ends] at failed
  -- whether a key waits for its value decides what the end of the text is missing
  cases pending with
  | none =>
    obtain ⟨between, depth⟩ := reached
    cases ending with
    | unterminated line =>
      obtain rfl : Fault.unterminatedText line = fault := Except.error.inj failed
      exact .unterminatedKey between
    | complete =>
      simp only [Reader.finish] at failed
      split at failed
      · cases failed
      · next inside =>
        rw [Except.error.injEq] at failed
        subst failed
        have positive := List.length_pos_iff.mpr inside
        rw [show outer.length = _ from depth] at positive ⊢
        exact .endInBlock between positive
  | some pair =>
    obtain ⟨key, keyLine⟩ := pair
    obtain ⟨before, rfl, between, _⟩ := reached
    cases ending with
    | unterminated line =>
      obtain rfl : Fault.unterminatedText line = fault := Except.error.inj failed
      exact .unterminatedValue between
    | complete =>
      obtain rfl : Fault.missingValue key keyLine = fault := Except.error.inj failed
      exact .endAfterKey between

theorem FaultAmong.run {lexemes : List Lexeme} {fault : Fault} (among : FaultAmong lexemes fault) :
    lexemes.foldlM Reader.step Reader.start = .error fault := by
  cases among with
  | closing between balanced =>
    obtain ⟨outer, entries, ran, depth⟩ := Reader.run_between between _ rfl
    obtain rfl : outer = [] := List.length_eq_zero_iff.mp (depth.trans balanced)
    rw [Reader.run_append ran]
    exact Reader.run_cons_error rfl _
  | opening between =>
    obtain ⟨outer, entries, ran, _⟩ := Reader.run_between between _ rfl
    rw [Reader.run_append ran]
    exact Reader.run_cons_error rfl _
  | closingAfterKey between =>
    obtain ⟨outer, entries, ran, _⟩ := Reader.run_between between _ rfl
    rw [Reader.run_append ran, Reader.run_cons_ok rfl]
    exact Reader.run_cons_error rfl _

theorem FirstFault.readLexed {lexed : Lexed} {fault : Fault} (first : FirstFault lexed fault) :
    readLexed lexed = .error fault := by
  cases first with
  | among inner => exact readLexed_of_run_error inner.run
  | endAfterKey between =>
    obtain ⟨outer, entries, ran, _⟩ := Reader.run_between between _ rfl
    rw [readLexed_of_run (Reader.run_append ran _)]
    rfl
  | endInBlock between inside =>
    obtain ⟨outer, entries, ran, depth⟩ := Reader.run_between between _ rfl
    rw [readLexed_of_run ran, ← depth]
    rw [← depth] at inside
    simp [Reader.finish, List.length_pos_iff.mp inside]
  | unterminatedKey between =>
    obtain ⟨outer, entries, ran, _⟩ := Reader.run_between between _ rfl
    rw [readLexed_of_run ran]
    rfl
  | unterminatedValue between =>
    obtain ⟨outer, entries, ran, _⟩ := Reader.run_between between _ rfl
    rw [readLexed_of_run (Reader.run_append ran _)]
    rfl

theorem doc_of_readLexed {lexed : Lexed} {entries : Entries} (accepted : readLexed lexed = .ok entries) :
    lexed.ending = .complete ∧ Doc lexed.tokens := by
  rcases readLexed_cases lexed with ⟨stopped, _, stops⟩ | ⟨⟨outer, stored, pending⟩, reached, ends⟩
  · rw [stops] at accepted
    cases accepted
  rw [ends] at accepted
  cases ending : lexed.ending with
  | unterminated line =>
    rw [ending] at accepted
    cases accepted
  | complete =>
    rw [ending] at accepted
    cases pending with
    | some pair => cases accepted
    | none =>
      obtain ⟨between, depth⟩ := reached
      simp only [Reader.finish] at accepted
      split at accepted
      · next closed =>
        refine ⟨rfl, between.doc ?_⟩
        rw [← depth, closed, List.length_nil]
      · cases accepted

/-- Every accepted text is the writing of a tree that may repeat keys, and reading merges that tree. -/
theorem exists_written_of_readLexed {lexed : Lexed} {entries : Entries} (accepted : readLexed lexed = .ok entries) :
    ∃ written, lexed.ending = .complete ∧ lexed.tokens = tokensOf written ∧ entries = storeAll [] written := by
  obtain ⟨complete, doc⟩ := doc_of_readLexed accepted
  obtain ⟨written, same⟩ := doc.exists_entries
  refine ⟨written, complete, same.symm, ?_⟩
  rw [readLexed_tokensOf complete same.symm, Except.ok.injEq] at accepted
  exact accepted.symm

/-- Tokens are accepted if they are those of a document and no quoted text is left open. -/
theorem readLexed_ok_iff (lexed : Lexed) :
    (∃ entries, readLexed lexed = .ok entries) ↔ lexed.ending = .complete ∧ Doc lexed.tokens := by
  constructor
  · rintro ⟨entries, accepted⟩
    exact doc_of_readLexed accepted
  · rintro ⟨complete, doc⟩
    obtain ⟨written, same⟩ := doc.exists_entries
    exact ⟨storeAll [] written, readLexed_tokensOf complete same.symm⟩

theorem readLexed_error_iff (lexed : Lexed) (fault : Fault) : readLexed lexed = .error fault ↔ FirstFault lexed fault :=
  ⟨firstFault_of_readLexed, FirstFault.readLexed⟩

end Compendium.KeyValues
