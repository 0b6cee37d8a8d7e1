import Compendium.Proofs.Text.Occurrence
import Compendium.Tooltip.Template
import Mathlib.Data.List.TakeWhile

/-! Templates taken apart: literal texts with tokens between them, read from the left, so that nowhere in a literal text
a token starts. A template has one such reading, and to fill it is to replace the tokens of this reading. -/

set_option autoImplicit false
namespace Compendium.TokenGrammar

/-- The tokens of a template, each with the literal text before it, and the literal text behind the last one. -/
structure Parts where
  tokens : List (List Char × String)
  last : List Char

/-- A token as it stands in a template. -/
def written (name : String) : List Char :=
  '%' :: (name.toList ++ ['%'])

namespace Parts

def names (parts : Parts) : List String :=
  parts.tokens.map Prod.snd

/-- The literal texts as they are, with something else for the tokens. -/
def filled (shown : String → String) (parts : Parts) : List Char :=
  parts.tokens.flatMap (fun entry => entry.1 ++ (shown entry.2).toList) ++ parts.last

def pieces (parts : Parts) : List Piece :=
  parts.tokens.flatMap (fun entry => entry.1.map Piece.char ++ [.token entry.2]) ++ parts.last.map Piece.char

def cons (c : Char) (parts : Parts) : Parts :=
  match parts.tokens with
  | [] => ⟨[], c :: parts.last⟩
  | (literal, name) :: rest => ⟨(c :: literal, name) :: rest, parts.last⟩

/-- Puts the characters between tokens together. -/
def ofPieces : List Piece → Parts
  | [] => ⟨[], []⟩
  | .char c :: rest => (ofPieces rest).cons c
  | .token name :: rest => ⟨([], name) :: (ofPieces rest).tokens, (ofPieces rest).last⟩

end Parts

def parts (grammar : TokenGrammar) (template : String) : Parts :=
  Parts.ofPieces (grammar.pieces template)

section
variable (grammar : TokenGrammar)

def IsName (name : List Char) : Prop :=
  (∀ c ∈ name, grammar.inName c = true) ∧ (name = [] → grammar.mayBeEmpty = true)

def StartsToken (text : List Char) : Prop :=
  ∃ name rest, grammar.IsName name.toList ∧ text = written name ++ rest

/-- Each token is the first one that starts in what is left of the text. -/
inductive Splits : List Char → Parts → Prop where
  | last {text : List Char} : (∀ rest, rest <:+ text → ¬ grammar.StartsToken rest) → Splits text ⟨[], text⟩
  | token {literal rest : List Char} {name : String} {parts : Parts} : grammar.IsName name.toList →
      (∀ tail, tail <:+ literal → tail ≠ [] → ¬ grammar.StartsToken (tail ++ (written name ++ rest))) →
      Splits rest parts →
      Splits (literal ++ (written name ++ rest)) ⟨(literal, name) :: parts.tokens, parts.last⟩

end

variable {grammar : TokenGrammar}

theorem token?_append {name : List Char} (unmarked : grammar.inName '%' = false) (isName : grammar.IsName name)
    (rest : List Char) : grammar.token? (name ++ '%' :: rest) = some (name, rest) := by
  have taken : (name ++ '%' :: rest).takeWhile grammar.inName = name := by
    rw [List.takeWhile_append_of_pos isName.1, List.takeWhile_cons, unmarked]
    simp
  have dropped : (name ++ '%' :: rest).dropWhile grammar.inName = '%' :: rest := by
    rw [List.dropWhile_append_of_pos isName.1, List.dropWhile_cons, unmarked]
    simp
  have allowed : ¬ (name = [] ∧ grammar.mayBeEmpty = false) := by
    rintro ⟨empty, forbidden⟩
    rw [isName.2 empty] at forbidden
    cases forbidden
  simp [token?, taken, dropped, allowed]

theorem isName_of_token? {text name rest : List Char} (found : grammar.token? text = some (name, rest)) :
    grammar.IsName name ∧ text = name ++ '%' :: rest := by
  unfold token? at found
  simp only at found
  split at found
  · next after dropped =>
    split at found
    · cases found
    · next allowed =>
      obtain ⟨rfl, rfl⟩ := Prod.mk.inj (Option.some.inj found)
      refine ⟨⟨?_, ?_⟩, ?_⟩
      · exact fun c member => List.mem_takeWhile_imp member
      · intro empty
        simpa [empty] using allowed
      · rw [← dropped, List.takeWhile_append_dropWhile]
  · cases found

theorem startsToken_cons {c : Char} {rest : List Char} (starts : grammar.StartsToken (c :: rest)) :
    c = '%' ∧ ∃ name after, grammar.IsName name ∧ rest = name ++ '%' :: after := by
  obtain ⟨name, after, isName, same⟩ := starts
  rw [written, List.cons_append, List.append_assoc, List.cons.injEq] at same
  exact ⟨same.1, name.toList, after, isName, same.2⟩

theorem startsToken_of_token? {rest name after : List Char} (found : grammar.token? rest = some (name, after)) :
    grammar.StartsToken ('%' :: rest) := by
  obtain ⟨isName, rfl⟩ := isName_of_token? found
  refine ⟨String.ofList name, after, ?_, ?_⟩
  · rwa [String.toList_ofList]
  · simp [written]

theorem cut_written {name : String} (unmarked : grammar.inName '%' = false) (isName : grammar.IsName name.toList)
    (rest : List Char) : grammar.cut (written name ++ rest) = .token name :: grammar.cut rest := by
  have found := token?_append unmarked isName rest
  rw [written, List.cons_append, List.append_assoc, List.singleton_append, cut, if_pos rfl]
  split
  · next first after again =>
    obtain ⟨rfl, rfl⟩ := Prod.mk.inj (Option.some.inj (found.symm.trans again))
    rw [String.ofList_toList]
  · next none =>
    rw [found] at none
    cases none

theorem cut_cons {c : Char} {rest : List Char} (literal : ¬ grammar.StartsToken (c :: rest)) :
    grammar.cut (c :: rest) = .char c :: grammar.cut rest := by
  rw [cut]
  split
  · next percent =>
    subst percent
    split
    · next name after found => exact absurd (startsToken_of_token? found) literal
    · rfl
  · rfl

theorem cut_literal {literal rest : List Char}
    (free : ∀ tail, tail <:+ literal → tail ≠ [] → ¬ grammar.StartsToken (tail ++ rest)) :
    grammar.cut (literal ++ rest) = literal.map Piece.char ++ grammar.cut rest := by
  induction literal with
  | nil => rfl
  | cons c literal ih =>
    have here := free (c :: literal) (List.suffix_refl _) (List.cons_ne_nil _ _)
    have later := ih fun tail suffix => free tail (suffix.trans (List.suffix_cons _ _))
    rw [List.cons_append] at here ⊢
    rw [cut_cons here, later]
    rfl

theorem cut_of_free {text : List Char} (free : ∀ rest, rest <:+ text → ¬ grammar.StartsToken rest) :
    grammar.cut text = text.map Piece.char := by
  have whole : grammar.cut (text ++ []) = text.map Piece.char ++ grammar.cut [] :=
    cut_literal fun tail suffix _ => by simpa using free tail suffix
  have none : grammar.cut [] = [] := by rw [cut]
  rwa [List.append_nil, none, List.append_nil] at whole

theorem cut_of_not_mem {text : List Char} (absent : '%' ∉ text) : grammar.cut text = text.map Piece.char := by
  apply cut_of_free
  rintro rest suffix ⟨name, after, -, rfl⟩
  exact absent (suffix.subset List.mem_cons_self)

theorem not_startsToken_append_cons {c : Char} (apart : c ≠ '%' ∧ grammar.inName c = false) {text after : List Char}
    (literal : ¬ grammar.StartsToken text) : ¬ grammar.StartsToken (text ++ c :: after) := by
  rintro ⟨name, rest, isName, same⟩
  have outside : c ∉ written name := by
    intro member
    rcases List.mem_cons.mp member with percent | member
    · exact apart.1 percent
    · rcases List.mem_append.mp member with inside | last
      · exact absurd (isName.1 c inside) (by simp [apart.2])
      · exact apart.1 (List.mem_singleton.mp last)
  obtain ⟨more, same⟩ := Text.prefix_of_prefix_append_cons outside ⟨rest, same.symm⟩
  exact literal ⟨name, more, isName, same.symm⟩

/-- A character that no token has is between two texts that are cut separately. -/
theorem cut_append_cons (unmarked : grammar.inName '%' = false) {c : Char} (apart : c ≠ '%' ∧ grammar.inName c = false)
    (before after : List Char) : grammar.cut (before ++ c :: after) = grammar.cut before ++ .char c :: grammar.cut after := by
  have here : ¬ grammar.StartsToken (c :: after) := fun starts => apart.1 (startsToken_cons starts).1
  fun_induction cut grammar before with
  | case1 => exact cut_cons here
  | case2 rest name later found ih =>
    obtain ⟨isName, rfl⟩ := isName_of_token? found
    have isName' : grammar.IsName (String.ofList name).toList := by rwa [String.toList_ofList]
    have token := cut_written unmarked isName' (later ++ c :: after)
    rw [ih] at token
    simpa [written] using token
  | case3 rest none ih =>
    have literal : ¬ grammar.StartsToken ('%' :: rest) := by
      intro starts
      obtain ⟨-, name, later, isName, rfl⟩ := startsToken_cons starts
      rw [token?_append unmarked isName] at none
      cases none
    have passed : ¬ grammar.StartsToken ('%' :: (rest ++ c :: after)) := not_startsToken_append_cons apart literal
    rw [List.cons_append]
    rw [cut_cons passed, ih, List.cons_append]
  | case4 d rest other ih =>
    have literal : ¬ grammar.StartsToken (d :: (rest ++ c :: after)) := fun starts => other (startsToken_cons starts).1
    rw [List.cons_append, cut_cons literal, ih, List.cons_append]

theorem Splits.cut_eq (unmarked : grammar.inName '%' = false) {text : List Char} {parts : Parts}
    (splits : grammar.Splits text parts) : grammar.cut text = parts.pieces := by
  induction splits with
  | last free => exact cut_of_free free
  | @token literal rest name parts isName free _ ih =>
    rw [cut_literal free, cut_written unmarked isName, ih]
    simp [Parts.pieces]

theorem Splits.cons {c : Char} {rest : List Char} {parts : Parts} (splits : grammar.Splits rest parts)
    (literal : ¬ grammar.StartsToken (c :: rest)) : grammar.Splits (c :: rest) (parts.cons c) := by
  cases splits with
  | last free =>
    apply Splits.last
    intro tail suffix
    rcases List.suffix_cons_iff.mp suffix with rfl | inside
    · exact literal
    · exact free tail inside
  | @token before rest name parts isName free later =>
    have longer : ∀ tail, tail <:+ c :: before → tail ≠ [] → ¬ grammar.StartsToken (tail ++ (written name ++ rest)) := by
      intro tail suffix nonempty
      rcases List.suffix_cons_iff.mp suffix with rfl | inside
      · exact literal
      · exact free tail inside nonempty
    exact Splits.token isName longer later

theorem Splits.written {name : String} {rest : List Char} {parts : Parts} (isName : grammar.IsName name.toList)
    (splits : grammar.Splits rest parts) :
    grammar.Splits (written name ++ rest) ⟨([], name) :: parts.tokens, parts.last⟩ := by
  have free : ∀ tail, tail <:+ [] → tail ≠ [] → ¬ grammar.StartsToken (tail ++ (TokenGrammar.written name ++ rest)) :=
    fun tail suffix nonempty => absurd (List.suffix_nil.mp suffix) nonempty
  exact Splits.token isName free splits

theorem splits_cut (unmarked : grammar.inName '%' = false) (text : List Char) :
    grammar.Splits text (Parts.ofPieces (grammar.cut text)) := by
  fun_induction cut grammar text with
  | case1 =>
    apply Splits.last
    rintro rest suffix ⟨name, after, -, same⟩
    rw [List.suffix_nil.mp suffix] at same
    cases same
  | case2 rest name after found ih =>
    obtain ⟨isName, rfl⟩ := isName_of_token? found
    rw [← String.toList_ofList (l := name)] at isName
    have splits := ih.written isName
    simpa [TokenGrammar.written, Parts.ofPieces] using splits
  | case3 rest none ih =>
    -- this percent sign opens no token, so that it is a literal character
    apply ih.cons
    intro starts
    obtain ⟨-, name, after, isName, rfl⟩ := startsToken_cons starts
    rw [token?_append unmarked isName] at none
    cases none
  | case4 c rest other ih => exact ih.cons fun starts => other (startsToken_cons starts).1

theorem Parts.ofPieces_map_char (literal : List Char) (rest : List Piece) :
    ofPieces (literal.map Piece.char ++ rest) = literal.foldr Parts.cons (ofPieces rest) := by
  induction literal with
  | nil => rfl
  | cons c literal ih =>
    rw [List.map_cons, List.cons_append, ofPieces, ih]
    rfl

theorem Parts.foldr_cons_last (literal last : List Char) :
    literal.foldr cons ⟨[], last⟩ = ⟨[], literal ++ last⟩ := by
  induction literal with
  | nil => rfl
  | cons c literal ih =>
    rw [List.foldr_cons, ih]
    rfl

theorem Parts.foldr_cons_token (literal first last : List Char) (name : String) (rest : List (List Char × String)) :
    literal.foldr cons ⟨(first, name) :: rest, last⟩ = ⟨(literal ++ first, name) :: rest, last⟩ := by
  induction literal with
  | nil => rfl
  | cons c literal ih =>
    rw [List.foldr_cons, ih]
    rfl

theorem Parts.ofPieces_pieces (parts : Parts) : ofPieces parts.pieces = parts := by
  obtain ⟨tokens, last⟩ := parts
  induction tokens with
  | nil =>
    have pieces := ofPieces_map_char last []
    rw [List.append_nil, ofPieces, foldr_cons_last, List.append_nil] at pieces
    exact pieces
  | cons entry rest ih =>
    obtain ⟨literal, name⟩ := entry
    have pieces : Parts.pieces ⟨(literal, name) :: rest, last⟩ =
        literal.map Piece.char ++ .token name :: Parts.pieces ⟨rest, last⟩ := by
      simp [Parts.pieces]
    rw [pieces, ofPieces_map_char, ofPieces, ih, foldr_cons_token, List.append_nil]

theorem Parts.flatMap_pieces {α : Type} (f : Piece → List α) (parts : Parts) :
    parts.pieces.flatMap f =
      parts.tokens.flatMap (fun entry => entry.1.flatMap (fun c => f (.char c)) ++ f (.token entry.2)) ++
        parts.last.flatMap fun c => f (.char c) := by
  simp [pieces, List.flatMap_assoc, List.flatMap_map]

theorem Parts.flatMap_pieces_of_silent {α : Type} {f : Piece → List α} (silent : ∀ c, f (.char c) = [])
    (parts : Parts) : parts.pieces.flatMap f = parts.names.flatMap fun name => f (.token name) := by
  have nothing (literal : List Char) : literal.flatMap (fun _ => ([] : List α)) = [] := by simp
  simp [flatMap_pieces, silent, nothing, names, List.flatMap_map]

/-- A template is taken apart in one way only. -/
theorem splits_iff (unmarked : grammar.inName '%' = false) (template : String) (parts : Parts) :
    grammar.Splits template.toList parts ↔ parts = grammar.parts template := by
  constructor
  · intro splits
    rw [TokenGrammar.parts, pieces, splits.cut_eq unmarked, Parts.ofPieces_pieces]
  · rintro rfl
    exact splits_cut unmarked template.toList

theorem pieces_eq (unmarked : grammar.inName '%' = false) (template : String) :
    grammar.pieces template = (grammar.parts template).pieces :=
  (splits_cut unmarked template.toList).cut_eq unmarked

theorem names_eq (unmarked : grammar.inName '%' = false) (template : String) :
    grammar.names template = (grammar.parts template).names := by
  have nothing (literal : List Char) : literal.filterMap (fun _ => (none : Option String)) = [] := by simp
  rw [names, pieces_eq unmarked, Parts.names, List.map_eq_flatMap]
  simp [Parts.pieces, List.filterMap_flatMap, nothing]

theorem fill_eq (unmarked : grammar.inName '%' = false) (value : String → String) (template : String) :
    grammar.fill value template = String.ofList ((grammar.parts template).filled value) := by
  rw [fill, pieces_eq unmarked, Parts.flatMap_pieces]
  simp [Parts.filled]

end Compendium.TokenGrammar
