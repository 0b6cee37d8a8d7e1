/-! Templates: running text with names between percent signs. Which characters a name may have is up to a grammar;
a percent sign that opens no token by it is a character like any other. -/

set_option autoImplicit false
namespace Compendium

/-- A part of a template. -/
inductive Piece where
  | char (c : Char)
  | token (name : String)
  deriving DecidableEq, Repr

structure TokenGrammar where
  inName : Char → Bool
  mayBeEmpty : Bool

namespace TokenGrammar

/-- The name and what follows the closing percent sign, at the place after an opening one. -/
def token? (grammar : TokenGrammar) (text : List Char) : Option (List Char × List Char) :=
  let name := text.takeWhile grammar.inName
  match text.dropWhile grammar.inName with
  | '%' :: after => if name = [] ∧ grammar.mayBeEmpty = false then none else some (name, after)
  | _ => none

theorem length_token? {grammar : TokenGrammar} {text name after : List Char}
    (h : grammar.token? text = some (name, after)) : after.length < text.length := by
  unfold token? at h
  have bound := (List.dropWhile_suffix (l := text) grammar.inName).length_le
  simp only at h
  split at h
  · next rest shape =>
    rw [shape, List.length_cons] at bound
    split at h
    · cases h
    · cases h
      omega
  · cases h

/-- Cuts a text into its tokens and the characters outside of them, from the left. -/
def cut (grammar : TokenGrammar) (text : List Char) : List Piece :=
  match text with
  | [] => []
  | c :: rest =>
    if c = '%' then
      match _found : grammar.token? rest with
      | some (name, after) => .token (String.ofList name) :: grammar.cut after
      | none => .char c :: grammar.cut rest
    else .char c :: grammar.cut rest
termination_by text.length
decreasing_by
  · exact Nat.lt_succ_of_lt (length_token? _found)
  · exact Nat.lt_succ_self _
  · exact Nat.lt_succ_self _

def pieces (grammar : TokenGrammar) (text : String) : List Piece :=
  grammar.cut text.toList

/-- The names of the tokens, in order. -/
def names (grammar : TokenGrammar) (text : String) : List String :=
  (grammar.pieces text).filterMap fun
    | .char _ => none
    | .token name => some name

/-- Replaces each token by what its name stands for. -/
def fill (grammar : TokenGrammar) (value : String → String) (text : String) : String :=
  String.ofList ((grammar.pieces text).flatMap fun
    | .char c => [c]
    | .token name => (value name).toList)

/-- Names without percent signs and spaces, which may be empty. -/
def anyName : TokenGrammar :=
  ⟨fun c => c ≠ '%' && c ≠ ' ', true⟩

/-- Names of small ASCII letters and underscores. -/
def smallName : TokenGrammar :=
  ⟨fun c => c.isLower || c == '_', false⟩

end TokenGrammar
end Compendium
