import Compendium.Text.Blank
import Compendium.Text.Occurrence

/-! Markup of localized texts. A tag runs from a less-than sign to the next greater-than sign; a line break is the
tag `br` in any letter case, with at most one space and one slash; a backslash before `n` stands for a new line. -/

set_option autoImplicit false
namespace Compendium.Markup

/-- What follows the first greater-than sign. -/
def afterClose? : List Char → Option (List Char)
  | [] => none
  | c :: rest => if c = '>' then some rest else afterClose? rest

theorem length_afterClose? {text rest : List Char} (h : afterClose? text = some rest) :
    rest.length < text.length := by
  induction text with
  | nil => cases h
  | cons c text ih =>
    simp only [afterClose?] at h
    split at h
    · cases h
      exact Nat.lt_succ_self _
    · exact Nat.lt_succ_of_lt (ih h)

def stripTagChars : List Char → List Char
  | [] => []
  | c :: rest =>
    if c = '<' then
      match _found : afterClose? rest with
      | some after => stripTagChars after
      | none => c :: stripTagChars rest
    else c :: stripTagChars rest
termination_by text => text.length
decreasing_by
  · exact Nat.lt_succ_of_lt (length_afterClose? _found)
  · exact Nat.lt_succ_self _
  · exact Nat.lt_succ_self _

/-- The text without its tags. -/
def stripTags (text : String) : String :=
  String.ofList (stripTagChars text.toList)

/-- The text without the character, if it starts with it. -/
def dropOptional (optional : Char) : List Char → List Char
  | [] => []
  | c :: rest => if c = optional then rest else c :: rest

theorem length_dropOptional_le (optional : Char) (text : List Char) :
    (dropOptional optional text).length ≤ text.length := by
  cases text with
  | nil => exact Nat.le_refl _
  | cons c rest =>
    rw [dropOptional]
    split
    · exact Nat.le_succ _
    · exact Nat.le_refl _

/-- What follows the rest of a line break tag, after its name. -/
def afterBreakName? (text : List Char) : Option (List Char) :=
  match dropOptional '/' (dropOptional ' ' text) with
  | '>' :: after => some after
  | _ => none

theorem length_afterBreakName? {text rest : List Char} (h : afterBreakName? text = some rest) :
    rest.length < text.length := by
  unfold afterBreakName? at h
  split at h
  · next after shape =>
    cases h
    have first := length_dropOptional_le ' ' text
    have second := length_dropOptional_le '/' (dropOptional ' ' text)
    rw [shape, List.length_cons] at second
    omega
  · cases h

/-- What follows a line break tag at the start. -/
def afterLineBreak? : List Char → Option (List Char)
  | '<' :: b :: r :: rest => if b.toLower = 'b' ∧ r.toLower = 'r' then afterBreakName? rest else none
  | _ => none

theorem length_afterLineBreak? {text rest : List Char} (h : afterLineBreak? text = some rest) :
    rest.length < text.length := by
  unfold afterLineBreak? at h
  split at h
  · split at h
    · have := length_afterBreakName? h
      simp only [List.length_cons]
      omega
    · cases h
  · cases h

def breakLineChars (text : List Char) : List Char :=
  match _found : afterLineBreak? text with
  | some after => '\n' :: breakLineChars after
  | none =>
    match text with
    | [] => []
    | c :: rest => c :: breakLineChars rest
termination_by text.length
decreasing_by
  · exact length_afterLineBreak? _found
  · exact Nat.lt_succ_self _

/-- Line break tags as new lines. -/
def breakLines (text : String) : String :=
  String.ofList (breakLineChars text.toList)

/-- The two characters that stand for a new line. -/
def escapedNewline : String := "\\n"

def unescapeNewlines (text : String) : String :=
  Text.replaceAll text escapedNewline "\n"

end Compendium.Markup
