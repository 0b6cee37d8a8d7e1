import Compendium.Proofs.Text.Occurrence
import Compendium.Tooltip.Markup

/-! Tags are all that is taken out of a text as markup: what is left has none, and a text without tags stays as it is. -/

set_option autoImplicit false
namespace Compendium.Markup

/-- Nothing that could open a tag is ever followed by something that could close it. -/
def TagFree (text : List Char) : Prop :=
  ¬ ['<', '>'].Sublist text

def isBracket (c : Char) : Bool :=
  c == '<' || c == '>'

theorem TagFree.of_sublist {part text : List Char} (free : TagFree text) (sublist : part.Sublist text) : TagFree part :=
  fun tag => free (tag.trans sublist)

/-- Only the brackets of a text can make it hold a tag. -/
theorem TagFree.of_brackets {first second : List Char} (free : TagFree second)
    (sublist : (first.filter isBracket).Sublist (second.filter isBracket)) : TagFree first := by
  intro tag
  have brackets : ['<', '>'].filter isBracket = ['<', '>'] := by decide
  have inside := (tag.filter isBracket).trans sublist
  rw [brackets] at inside
  exact free (inside.trans List.filter_sublist)

theorem afterClose?_eq_none_iff (text : List Char) : afterClose? text = none ↔ '>' ∉ text := by
  induction text with
  | nil => simp [afterClose?]
  | cons c rest ih =>
    by_cases close : c = '>'
    · simp [afterClose?, close]
    · simp [afterClose?, close, ih, Ne.symm close]

theorem suffix_of_afterClose? {text rest : List Char} (found : afterClose? text = some rest) : rest <:+ text := by
  induction text with
  | nil => cases found
  | cons c text ih =>
    rw [afterClose?] at found
    split at found
    · obtain rfl := Option.some.inj found
      exact List.suffix_cons c text
    · exact (ih found).trans (List.suffix_cons c text)

theorem stripTagChars_sublist (text : List Char) : (stripTagChars text).Sublist text := by
  fun_induction stripTagChars text with
  | case1 => exact List.Sublist.refl _
  | case2 rest after found ih =>
    exact ih.trans ((suffix_of_afterClose? found).sublist.trans (List.sublist_cons_self _ _))
  | case3 rest none ih => exact ih.cons_cons _
  | case4 c rest other ih => exact ih.cons_cons _

theorem tagFree_stripTagChars (text : List Char) : TagFree (stripTagChars text) := by
  fun_induction stripTagChars text with
  | case1 => exact fun tag => nomatch tag
  | case2 rest after found ih => exact ih
  | case3 rest none ih =>
    -- nothing behind this bracket closes a tag, so nothing that is left of it does
    intro tag
    rcases List.sublist_cons_iff.mp tag with inside | ⟨closing, same, inside⟩
    · exact ih inside
    · obtain rfl := (List.cons.inj same).2
      have close : '>' ∈ stripTagChars rest := List.singleton_sublist.mp inside
      exact (afterClose?_eq_none_iff rest).mp none ((stripTagChars_sublist rest).subset close)
  | case4 c rest other ih =>
    intro tag
    rcases List.sublist_cons_iff.mp tag with inside | ⟨closing, same, -⟩
    · exact ih inside
    · exact other (List.cons.inj same).1.symm

theorem TagFree.stripTagChars_eq {text : List Char} (free : TagFree text) : stripTagChars text = text := by
  fun_induction stripTagChars text with
  | case1 => rfl
  | case2 rest after found ih =>
    have close : '>' ∈ rest := by
      apply Classical.byContradiction
      intro absent
      rw [(afterClose?_eq_none_iff rest).mpr absent] at found
      cases found
    exact absurd ((List.singleton_sublist.mpr close).cons_cons '<') free
  | case3 rest none ih => rw [ih (free.of_sublist (List.sublist_cons_self _ _))]
  | case4 c rest other ih => rw [ih (free.of_sublist (List.sublist_cons_self _ _))]

theorem toList_unescapeNewlines (text : String) :
    (unescapeNewlines text).toList = Text.replaceAllChars '\\' ['n'] ['\n'] text.toList :=
  Text.toList_replaceAll rfl text "\n"

theorem toList_stripTags (text : String) : (stripTags text).toList = stripTagChars text.toList := by
  rw [stripTags]
  exact String.toList_ofList

theorem tagFree_stripTags (text : String) : TagFree (stripTags text).toList := by
  rw [toList_stripTags]
  exact tagFree_stripTagChars text.toList

end Compendium.Markup
