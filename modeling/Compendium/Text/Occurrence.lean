/-! Occurrences of one text in another: replacing, splitting, joining and cutting off. Occurrences are
taken from the left and do not overlap. A pattern is given by its first character and the rest of it, so it is
never empty. -/

set_option autoImplicit false
namespace Compendium.Text

theorem length_of_isPrefixOf? {pattern text rest : List Char}
    (h : pattern.isPrefixOf? text = some rest) : rest.length ≤ text.length := by
  induction pattern generalizing text with
  | nil =>
    cases h
    exact Nat.le_refl _
  | cons p pattern ih =>
    cases text with
    | nil => cases h
    | cons c text =>
      change (if p == c then pattern.isPrefixOf? text else none) = some rest at h
      split at h
      · exact Nat.le_trans (ih h) (Nat.le_succ _)
      · cases h

/-- What follows the pattern `first :: others` at the start of the text. -/
def after? (first : Char) (others : List Char) : List Char → Option (List Char)
  | [] => none
  | c :: text => if c = first then others.isPrefixOf? text else none

theorem length_after? {first : Char} {others text rest : List Char}
    (h : after? first others text = some rest) : rest.length < text.length := by
  cases text with
  | nil => cases h
  | cons c text =>
    simp only [after?] at h
    split at h
    · exact Nat.lt_succ_of_le (length_of_isPrefixOf? h)
    · cases h

def replaceAllChars (first : Char) (others new text : List Char) : List Char :=
  match _found : after? first others text with
  | some rest => new ++ replaceAllChars first others new rest
  | none =>
    match text with
    | [] => []
    | c :: text => c :: replaceAllChars first others new text
termination_by text.length
decreasing_by
  · exact length_after? _found
  · simp

def replaceFirstChars (first : Char) (others new : List Char) : List Char → List Char
  | [] => []
  | c :: text =>
    match after? first others (c :: text) with
    | some rest => new ++ rest
    | none => c :: replaceFirstChars first others new text

/-- The pieces between the occurrences; there is always at least one. -/
def splitChars (first : Char) (others text : List Char) : List (List Char) :=
  match _found : after? first others text with
  | some rest => [] :: splitChars first others rest
  | none =>
    match text with
    | [] => [[]]
    | c :: text =>
      match splitChars first others text with
      | [] => [[c]]
      | piece :: pieces => (c :: piece) :: pieces
termination_by text.length
decreasing_by
  · exact length_after? _found
  · simp

def occursChars (first : Char) (others : List Char) : List Char → Bool
  | [] => false
  | c :: text => (after? first others (c :: text)).isSome || occursChars first others text

/-- Replaces every occurrence; the empty pattern replaces nothing. -/
def replaceAll (text pattern new : String) : String :=
  match pattern.toList with
  | [] => text
  | first :: others => String.ofList (replaceAllChars first others new.toList text.toList)

def replaceFirst (text pattern new : String) : String :=
  match pattern.toList with
  | [] => text
  | first :: others => String.ofList (replaceFirstChars first others new.toList text.toList)

/-- Splits at every occurrence; the empty separator splits nowhere. -/
def splitOn (text separator : String) : List String :=
  match separator.toList with
  | [] => [text]
  | first :: others => (splitChars first others text.toList).map String.ofList

def occursIn (pattern text : String) : Bool :=
  match pattern.toList with
  | [] => true
  | first :: others => occursChars first others text.toList

/-- The text without the given start, if it has it. -/
def dropStart? (start text : String) : Option String :=
  (start.toList.isPrefixOf? text.toList).map String.ofList

/-- The text without the given end, if it has it. -/
def dropEnd? (ending text : String) : Option String :=
  (ending.toList.reverse.isPrefixOf? text.toList.reverse).map fun rest => String.ofList rest.reverse

def join (separator : String) (pieces : List String) : String :=
  separator.intercalate pieces

end Compendium.Text
