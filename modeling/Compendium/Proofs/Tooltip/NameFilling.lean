import Compendium.Proofs.Document.Members
import Compendium.Proofs.Text.Occurrence
import Compendium.Tooltip.NameTokens
import Mathlib.Data.List.Basic

/-! Tokens filled one name after the other. If neither names nor values have braces, no value disturbs a token that is still
to be filled, and all tokens might as well be filled at once. -/

set_option autoImplicit false
namespace Compendium.NameTokens

def BraceFree (text : String) : Prop :=
  '{' ∉ text.toList ∧ '}' ∉ text.toList

instance decidableBraceFree (text : String) : Decidable (BraceFree text) :=
  inferInstanceAs (Decidable (_ ∧ _))

/-- A template is made of texts and tokens, neither of which have other braces than those of the tokens. -/
inductive Piece where
  | text (content : String) (free : BraceFree content)
  | token (name : String) (free : BraceFree name)

def Piece.written : Piece → String
  | .text content _ => content
  | .token name _ => NameTokens.token name

def written (pieces : List Piece) : String :=
  String.join (pieces.map Piece.written)

/-- A piece with its value for the token, if the token has one. -/
def fill (values : String → Option String) : Piece → String
  | .text content _ => content
  | .token name _ => (values name).getD (token name)

/-- One value put in for the tokens of its name. -/
def put (name value : String) (free : BraceFree value) : Piece → Piece
  | .text content inside => .text content inside
  | .token other inside => if other = name then .text value free else .token other inside

def tokenTail (name : String) : List Char :=
  's' :: ':' :: (name.toList ++ ['}'])

theorem toList_token (name : String) : (token name).toList = '{' :: tokenTail name := by
  simp [token, tokenTail]

theorem written_cons (piece : Piece) (pieces : List Piece) :
    (written (piece :: pieces)).toList = piece.written.toList ++ (written pieces).toList := by
  simp [written]

theorem replaceAll_token (text name value : String) : Text.replaceAll text (token name) value =
    String.ofList (Text.replaceAllChars '{' (tokenTail name) value.toList text.toList) := by
  rw [Text.replaceAll, toList_token]

theorem opening_not_mem_tokenTail {name : String} (free : BraceFree name) : '{' ∉ tokenTail name := by
  simp [tokenTail, free.1]

/-- The token of one name does not begin that of another: the closing brace tells where a name ends. -/
theorem eq_of_prefix_token {name other : String} (free : BraceFree name) (inside : BraceFree other) {rest : List Char}
    (start : '{' :: tokenTail name <+: '{' :: (tokenTail other ++ rest)) : name = other := by
  simp only [tokenTail, List.cons_append, List.append_assoc, List.cons_prefix_cons, true_and] at start
  have whole : other.toList ++ ['}'] <+: other.toList ++ (['}'] ++ rest) := ⟨rest, by simp⟩
  rcases Text.prefix_concat_cases start whole with ⟨same, -⟩ | longer | longer
  · exact String.toList_injective same
  · exact absurd (longer.subset (by simp)) inside.2
  · exact absurd (longer.subset (by simp)) free.2

theorem replaceAll_written {name value : String} (named : BraceFree name) (free : BraceFree value) (pieces : List Piece) :
    Text.replaceAll (written pieces) (token name) value = written (pieces.map (put name value free)) := by
  rw [replaceAll_token]
  apply String.toList_injective
  rw [String.toList_ofList]
  induction pieces with
  | nil => simp [written, Text.replaceAllChars, Text.after?]
  | cons piece pieces ih =>
    rw [List.map_cons, written_cons, written_cons, ← ih]
    cases piece with
    | text content inside => exact Text.replaceAllChars_append_of_not_mem inside.1 _
    | token other inside =>
      simp only [Piece.written, put, toList_token, List.cons_append]
      by_cases same : other = name
      · subst same
        have found := (Text.after?_eq_some_iff '{' (tokenTail other) _ _).mpr
          (rfl : '{' :: (tokenTail other ++ (written pieces).toList) = _)
        rw [Text.replaceAllChars_of_after? found, if_pos rfl]
      · -- the token of another name is passed over, and with it the only brace at which a pattern could start
        have none : ¬ ('{' :: tokenTail name) <+: '{' :: (tokenTail other ++ (written pieces).toList) :=
          fun start => same (eq_of_prefix_token named inside start).symm
        rw [Text.replaceAllChars_cons none, Text.replaceAllChars_append_of_not_mem (opening_not_mem_tokenTail inside),
          if_neg same]
        simp only [toList_token, List.cons_append]

theorem fill_put {name value : String} (free : BraceFree value) (values : Members String) (piece : Piece) :
    fill (Members.at? values) (put name value free piece) = fill (Members.at? ((name, value) :: values)) piece := by
  cases piece with
  | text content inside => rfl
  | token other inside =>
    by_cases same : other = name
    · subst same
      simp [put, fill, Members.at?]
    · simp [put, fill, Members.at?, same, Ne.symm same]

/-- Names filled in turn, each with its first value: the later ones find none of their tokens left. -/
theorem foldl_replaceAll_written {values : Members String}
    (free : ∀ entry ∈ values, BraceFree entry.1 ∧ BraceFree entry.2) (pieces : List Piece) :
    values.foldl (fun text entry => Text.replaceAll text (token entry.1) entry.2) (written pieces) =
      String.join (pieces.map (fill (Members.at? values))) := by
  induction values generalizing pieces with
  | nil =>
    have unfilled : fill (Members.at? []) = Piece.written := by
      funext piece
      cases piece <;> rfl
    rw [List.foldl_nil, unfilled, written]
  | cons entry values ih =>
    obtain ⟨⟨named, valued⟩, later⟩ := List.forall_mem_cons.mp free
    rw [List.foldl_cons, replaceAll_written named valued, ih later, List.map_map]
    congr 2
    funext piece
    exact fill_put valued values piece

/-- Whether a piece is a token that stays. -/
def stays (values : String → Option String) : Piece → Bool
  | .text _ _ => false
  | .token name _ => (values name).isNone

theorem count_token {name : String} (free : BraceFree name) : (token name).toList.count '{' = 1 := by
  rw [toList_token, List.count_cons_self, List.count_eq_zero_of_not_mem (opening_not_mem_tokenTail free)]

/-- Of all braces that open, those of the tokens that stay are left. -/
theorem count_fill {values : String → Option String} (free : ∀ name value, values name = some value → BraceFree value)
    (pieces : List Piece) :
    (String.join (pieces.map (fill values))).toList.count '{' = pieces.countP (stays values) := by
  induction pieces with
  | nil => rfl
  | cons piece pieces ih =>
    rw [List.map_cons, String.join_cons, String.toList_append, List.count_append, ih, List.countP_cons, Nat.add_comm]
    congr 1
    cases piece with
    | text content inside => exact List.count_eq_zero_of_not_mem inside.1
    | token name inside =>
      cases found : values name with
      | none => simp [fill, stays, found, count_token inside]
      | some value => simp [fill, stays, found, List.count_eq_zero_of_not_mem (free name value found).1]

/-- One filling that takes all tokens of another and gives the same text takes no more than these. -/
theorem stays_of_fill_eq {fewer more : String → Option String} (free : ∀ name value, fewer name = some value → BraceFree value)
    (also : ∀ name value, more name = some value → BraceFree value) (within : ∀ name, more name = none → fewer name = none)
    {pieces : List Piece} (same : String.join (pieces.map (fill more)) = String.join (pieces.map (fill fewer))) {name : String}
    {inside : BraceFree name} (member : .token name inside ∈ pieces) (left : fewer name = none) : more name = none := by
  -- equal texts have equally many braces, so no token can stay in one of them only
  have counts : pieces.countP (stays more) = pieces.countP (stays fewer) := by
    rw [← count_fill also, ← count_fill free, same]
  have sublist : (pieces.filter (stays more)).Sublist (pieces.filter (stays fewer)) := by
    apply List.monotone_filter_right
    rintro (⟨content, inside⟩ | ⟨name, inside⟩) stay
    · exact stay
    · simpa [stays] using within name (by simpa [stays] using stay)
  rw [List.countP_eq_length_filter, List.countP_eq_length_filter] at counts
  have staying : .token name inside ∈ pieces.filter (stays more) := by
    rw [sublist.eq_of_length counts]
    exact List.mem_filter.mpr ⟨member, by simp [stays, left]⟩
  simpa [stays] using (List.mem_filter.mp staying).2

end Compendium.NameTokens
