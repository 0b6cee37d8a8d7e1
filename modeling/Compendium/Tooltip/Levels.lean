import Compendium.Text.Digit
import Compendium.Tooltip.Attribute

/-! Values that differ from level to level, as shown to a reader. Equal levels are shown once, and fractions of
zeros are dropped. -/

set_option autoImplicit false
namespace Compendium

inductive Levels where
  | single (text : String)
  | many (texts : List String)
  deriving DecidableEq, Repr

namespace Levels

def join (separator : String) : Levels → String
  | .single text => text
  | .many texts => Text.join separator texts

def count : Levels → Nat
  | .single _ => 1
  | .many texts => texts.length

def toDocument : Levels → Document
  | .single text => .text text
  | .many texts => Document.texts texts

/-- Drops each point and the zeros after it if no digit follows the zeros. The character that follows is passed
over: a point there starts no fraction. -/
def dropZeroFractions (text : List Char) : List Char :=
  match text with
  | [] => []
  | c :: rest =>
    if c = '.' ∧ rest.head? = some '0' then
      match _tail : rest.dropWhile (· == '0') with
      | [] => []
      | d :: after =>
        if Text.isDigitOfAnyScript d then c :: dropZeroFractions rest else d :: dropZeroFractions after
    else c :: dropZeroFractions rest
termination_by text.length
decreasing_by
  · exact Nat.lt_succ_self _
  · have := (List.dropWhile_suffix (l := rest) (· == '0')).length_le
    rw [_tail] at this
    simp only [List.length_cons] at this ⊢
    omega
  · exact Nat.lt_succ_self _

def clean (text : String) : String :=
  String.ofList (dropZeroFractions text.toList)

/-- The display of each item of a list; the display of anything else, split at single spaces. -/
def tokens : Document → List String
  | .list items => items.map Document.display
  | value => Text.splitOn value.display " "

/-- A single token stands for tokens that are all equal. -/
def mergeEqual (tokens : List String) : List String :=
  match tokens with
  | [] => []
  | first :: rest => if rest.all (· == first) then [first] else tokens

def ofTokens : List String → Levels
  | [text] => .single text
  | texts => .many texts

/-- Formats a value. Tokens are joined with the separator before zero fractions are dropped, and split again. -/
def format (value : Document) (percent : Bool) (separator : String) : Levels :=
  let merged := mergeEqual (tokens value)
  let marked := if percent then merged.map (· ++ "%") else merged
  if separator = "" then ofTokens (marked.map clean)
  else
    let joined := clean (Text.join separator marked)
    if 1 < marked.length then .many (Text.splitOn joined separator) else .single joined

/-- How levels are separated where nothing else is asked for. -/
def defaultSeparator : String := " / "

def formatText (text : String) (percent : Bool) : Levels :=
  format (.text text) percent defaultSeparator

end Levels
end Compendium
