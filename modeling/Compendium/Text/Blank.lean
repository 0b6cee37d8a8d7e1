import Compendium.Text.Ranges

/-! White space as running text uses it, and the operations that drop or fold it. -/

set_option autoImplicit false
namespace Compendium.Text

/-- The twenty-five white space characters. -/
def blankRanges : Ranges :=
  [(0x9, 0xD), (0x20, 0x20), (0x85, 0x85), (0xA0, 0xA0), (0x1680, 0x1680), (0x2000, 0x200A),
   (0x2028, 0x2029), (0x202F, 0x202F), (0x205F, 0x205F), (0x3000, 0x3000)]

def isBlank (c : Char) : Bool :=
  blankRanges.contains c

def trimStart (text : List Char) : List Char :=
  text.dropWhile isBlank

def trimEnd (text : List Char) : List Char :=
  (text.reverse.dropWhile isBlank).reverse

def trim (text : List Char) : List Char :=
  trimEnd (trimStart text)

/-- Every run of white space becomes one space. -/
def foldBlanks : List Char → List Char
  | [] => []
  | c :: rest =>
    if isBlank c then
      match rest with
      | [] => [' ']
      | d :: _ => if isBlank d then foldBlanks rest else ' ' :: foldBlanks rest
    else c :: foldBlanks rest

/-- Runs of white space become one space, and both ends are trimmed. -/
def collapse (text : String) : String :=
  String.ofList (trim (foldBlanks text.toList))

theorem isBlank_newline : isBlank '\n' = true := by decide

end Compendium.Text
