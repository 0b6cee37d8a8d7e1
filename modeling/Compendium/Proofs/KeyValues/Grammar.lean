import Compendium.KeyValues.Block

/-! Which sequences of tokens are block texts. All that the grammar derives is written out by trees that may repeat a key,
and a count of the open blocks says what may come next. -/

set_option autoImplicit false
namespace Compendium.KeyValues

def Lexed.tokens (lexed : Lexed) : List Token :=
  lexed.lexemes.map Lexeme.token

/-- Entries one after the other: a key with its value, or a key with a block of entries in braces. -/
inductive Doc : List Token → Prop where
  | empty : Doc []
  | value {rest : List Token} (key value : String) : Doc rest → Doc (.text key :: .text value :: rest)
  | block {inner rest : List Token} (key : String) : Doc inner → Doc rest →
      Doc (.text key :: .opening :: (inner ++ .closing :: rest))

mutual

/-- What follows the key of an entry. -/
def Node.tokens : Node → List Token
  | .text value => [.text value]
  | .block entries => .opening :: (tokensOf entries ++ [.closing])

/-- The tokens of entries among which a key may occur more than once. -/
def tokensOf : List (String × Node) → List Token
  | [] => []
  | (key, node) :: rest => .text key :: (node.tokens ++ tokensOf rest)

end

theorem Doc.exists_entries {tokens : List Token} (doc : Doc tokens) : ∃ entries, tokensOf entries = tokens := by
  induction doc with
  | empty => exact ⟨[], rfl⟩
  | value key value _ ih =>
    obtain ⟨rest, rfl⟩ := ih
    exact ⟨(key, .text value) :: rest, rfl⟩
  | block key _ _ ihInner ihRest =>
    obtain ⟨inner, rfl⟩ := ihInner
    obtain ⟨rest, rfl⟩ := ihRest
    exact ⟨(key, .block inner) :: rest, by simp [tokensOf, Node.tokens]⟩

theorem Doc.append {first second : List Token} (left : Doc first) (right : Doc second) : Doc (first ++ second) := by
  induction left with
  | empty => exact right
  | value key value _ ih => exact .value key value ih
  | block key inner _ _ ih =>
    have joined := Doc.block key inner ih
    simpa using joined

/-- How many more blocks the tokens open than they close. -/
def openBlocks (tokens : List Token) : Nat :=
  tokens.count .opening - tokens.count .closing

/-- Tokens without a fault that end between two entries. -/
inductive Between : List Token → Prop where
  | start : Between []
  | value {before : List Token} (key value : String) : Between before →
      Between (before ++ [.text key, .text value])
  | opening {before : List Token} (key : String) : Between before → Between (before ++ [.text key, .opening])
  | closing {before : List Token} : Between before → 0 < openBlocks before → Between (before ++ [.closing])

theorem openBlocks_value (before : List Token) (key value : String) :
    openBlocks (before ++ [.text key, .text value]) = openBlocks before := by
  simp [openBlocks]

theorem openBlocks_closing (before : List Token) : openBlocks (before ++ [.closing]) = openBlocks before - 1 := by
  simp only [openBlocks, List.count_append]
  have none : List.count Token.opening [Token.closing] = 0 := by decide
  have one : List.count Token.closing [Token.closing] = 1 := by decide
  omega

theorem Between.closed_le {tokens : List Token} (between : Between tokens) :
    tokens.count .closing ≤ tokens.count .opening := by
  induction between with
  | start => simp
  | value key value _ ih => simpa using ih
  | opening key _ ih =>
    simp
    omega
  | closing _ inside ih =>
    simp only [openBlocks] at inside
    simp
    omega

theorem Between.openBlocks_opening {before : List Token} (between : Between before) (key : String) :
    openBlocks (before ++ [.text key, .opening]) = openBlocks before + 1 := by
  have bound := between.closed_le
  simp [openBlocks]
  omega

/-- Complete entries behind a number of blocks that are still open. -/
inductive Nested : Nat → List Token → Prop where
  | doc {tokens : List Token} : Doc tokens → Nested 0 tokens
  | inside {depth : Nat} {before inner : List Token} (key : String) : Nested depth before → Doc inner →
      Nested (depth + 1) (before ++ .text key :: .opening :: inner)

theorem Nested.append {depth : Nat} {before more : List Token} (nested : Nested depth before) (doc : Doc more) :
    Nested depth (before ++ more) := by
  cases nested with
  | doc whole => exact .doc (whole.append doc)
  | inside key outer inner =>
    -- more entries belong to the innermost open block
    have longer := Nested.inside key outer (inner.append doc)
    simpa using longer

theorem Between.nested {tokens : List Token} (between : Between tokens) : Nested (openBlocks tokens) tokens := by
  induction between with
  | start => exact .doc .empty
  | value key value _ ih =>
    rw [openBlocks_value]
    exact ih.append (.value key value .empty)
  | opening key before ih =>
    rw [before.openBlocks_opening]
    exact .inside key ih .empty
  | @closing before _ inside ih =>
    rw [openBlocks_closing]
    generalize openBlocks before = depth at inside ih
    cases ih with
    | doc => omega
    | inside key outer inner =>
      -- the innermost open block becomes an entry of the one around it
      have closed := outer.append (.block key inner .empty)
      simpa using closed

theorem Between.doc {tokens : List Token} (between : Between tokens) (closed : openBlocks tokens = 0) :
    Doc tokens := by
  have nested := between.nested
  rw [closed] at nested
  cases nested with
  | doc whole => exact whole

end Compendium.KeyValues
