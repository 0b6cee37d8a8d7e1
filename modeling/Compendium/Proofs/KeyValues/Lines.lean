import Compendium.Proofs.KeyValues.Reading

/-! Lines only matter to what a fault says. Readings of the same tokens on other lines come to the same entries, or to
faults of the same kind. -/

set_option autoImplicit false
namespace Compendium.KeyValues

/-- What a fault is, on whatever line. -/
inductive FaultKind where
  | unterminatedText
  | unexpectedClosing
  | unexpectedOpening
  | missingValue (key : String)
  | unclosedBlocks (depth : Nat)
  deriving DecidableEq, Repr

def Fault.kind : Fault → FaultKind
  | .unterminatedText _ => .unterminatedText
  | .unexpectedClosing _ => .unexpectedClosing
  | .unexpectedOpening _ => .unexpectedOpening
  | .missingValue key _ => .missingValue key
  | .unclosedBlocks depth => .unclosedBlocks depth

/-- Both fail in the same way, or have results that are alike. -/
inductive Agree {α : Type} (Alike : α → α → Prop) : Except Fault α → Except Fault α → Prop where
  | ok {first second : α} : Alike first second → Agree Alike (.ok first) (.ok second)
  | error {first second : Fault} : first.kind = second.kind → Agree Alike (.error first) (.error second)

theorem Agree.bind {α β : Type} {Alike : α → α → Prop} {Result : β → β → Prop} {first second : Except Fault α}
    {next other : α → Except Fault β} (agree : Agree Alike first second)
    (later : ∀ a b, Alike a b → Agree Result (next a) (other b)) :
    Agree Result (first >>= next) (second >>= other) := by
  cases agree with
  | ok alike => exact later _ _ alike
  | error kind => exact .error kind

namespace Reader

/-- The same but for the line of the key that waits for its value. -/
structure Alike (first second : Reader) : Prop where
  outer : first.outer = second.outer
  entries : first.entries = second.entries
  pending : first.pending.map Prod.fst = second.pending.map Prod.fst

theorem Alike.step {first second : Reader} (alike : Alike first second) (token : Token) (line other : Nat) :
    Agree Alike (first.step ⟨token, line⟩) (second.step ⟨token, other⟩) := by
  obtain ⟨outer, entries, pending⟩ := first
  obtain ⟨_, _, waiting⟩ := second
  obtain ⟨rfl, rfl, same⟩ := alike
  -- whether a key is waiting says what the token is to either reader
  cases pending with
  | none =>
    obtain rfl : waiting = none := by simpa using same.symm
    cases token with
    | text key => exact .ok ⟨rfl, rfl, rfl⟩
    | opening => exact .error rfl
    | closing =>
      cases outer with
      | nil => exact .error rfl
      | cons frame outer => exact .ok ⟨rfl, rfl, rfl⟩
  | some pair =>
    obtain ⟨key, keyLine⟩ := pair
    obtain ⟨_, otherLine, rfl⟩ : ∃ name line, waiting = some (name, line) := by
      cases waiting with
      | none => cases same
      | some pair => exact ⟨pair.1, pair.2, rfl⟩
    obtain rfl := Option.some.inj same
    cases token with
    | text value => exact .ok ⟨rfl, rfl, rfl⟩
    | opening => exact .ok ⟨rfl, rfl, rfl⟩
    | closing => exact .error rfl

theorem Alike.run {first second : Reader} (alike : Alike first second) {lexemes others : List Lexeme}
    (same : lexemes.map Lexeme.token = others.map Lexeme.token) :
    Agree Alike (lexemes.foldlM Reader.step first) (others.foldlM Reader.step second) := by
  induction lexemes generalizing first second others with
  | nil =>
    obtain rfl := List.map_eq_nil_iff.mp same.symm
    exact .ok alike
  | cons lexeme rest ih =>
    obtain ⟨token, line⟩ := lexeme
    cases others with
    | nil => cases same
    | cons other more =>
      obtain ⟨_, otherLine⟩ := other
      obtain ⟨rfl, tail⟩ := List.cons.inj same
      rw [List.foldlM_cons, List.foldlM_cons]
      exact (alike.step token line otherLine).bind fun _ _ next => ih next tail

theorem Alike.finish {first second : Reader} (alike : Alike first second) :
    Agree Eq (first.finish .complete) (second.finish .complete) := by
  obtain ⟨outer, entries, pending⟩ := first
  obtain ⟨_, _, waiting⟩ := second
  obtain ⟨rfl, rfl, same⟩ := alike
  cases pending with
  | none =>
    obtain rfl : waiting = none := by simpa using same.symm
    simp only [Reader.finish]
    split
    · exact .ok rfl
    · exact .error rfl
  | some pair =>
    cases waiting with
    | none => cases same
    | some other =>
      refine .error ?_
      rw [Fault.kind, Fault.kind, Option.some.inj same]

end Reader

theorem readLexed_agree {first second : Lexed} (same : first.tokens = second.tokens)
    (complete : first.ending = .complete) (otherComplete : second.ending = .complete) :
    Agree Eq (readLexed first) (readLexed second) := by
  have start : Reader.Alike Reader.start Reader.start := ⟨rfl, rfl, rfl⟩
  rw [readLexed, readLexed, complete, otherComplete]
  exact (start.run same).bind fun _ _ alike => alike.finish

end Compendium.KeyValues
