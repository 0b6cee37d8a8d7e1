import Compendium.Proofs.Text.Joining
import Compendium.Tooltip.Levels

/-! Levels, token by token. Zero fractions are dropped from all tokens at once, joined as they are, and yet each token
comes out as it would on its own: the characters that join them are neither digits nor points, so no fraction reaches
past the end of its token. -/

set_option autoImplicit false
namespace Compendium.Levels

/-- A character that can neither belong to a fraction nor keep the zeros before it. -/
def EndsFraction (c : Char) : Prop :=
  Text.isDigitOfAnyScript c = false ∧ c ≠ '.'

theorem EndsFraction.ne_zero {c : Char} (ends : EndsFraction c) : c ≠ '0' := by
  rintro rfl
  exact absurd ends.1 (by decide)

theorem dropZeroFractions_cons {c : Char} (noPoint : c ≠ '.') (text : List Char) :
    dropZeroFractions (c :: text) = c :: dropZeroFractions text := by
  rw [dropZeroFractions, if_neg fun point => noPoint point.1]

theorem dropZeroFractions_append {before : List Char} (pointless : '.' ∉ before) (text : List Char) :
    dropZeroFractions (before ++ text) = before ++ dropZeroFractions text := by
  induction before with
  | nil => rfl
  | cons c before ih =>
    rw [List.mem_cons, not_or] at pointless
    rw [List.cons_append, dropZeroFractions_cons (Ne.symm pointless.1), ih pointless.2, List.cons_append]

theorem dropZeroFractions_point {text : List Char} (zero : text.head? = some '0') :
    dropZeroFractions ('.' :: text) = match text.dropWhile (· == '0') with
      | [] => []
      | d :: after =>
        if Text.isDigitOfAnyScript d then '.' :: dropZeroFractions text else d :: dropZeroFractions after := by
  rw [dropZeroFractions, if_pos ⟨rfl, zero⟩]
  split
  · next zeros => rw [zeros]
  · next d after zeros => rw [zeros]

theorem head?_append_cons_eq_zero_iff {c : Char} (ends : EndsFraction c) (text after : List Char) :
    (text ++ c :: after).head? = some '0' ↔ text.head? = some '0' := by
  cases text with
  | nil => simp [ends.ne_zero]
  | cons d text => rfl

/-- A text is cleaned separately before and after a character that ends fractions. -/
theorem dropZeroFractions_append_cons {c : Char} (ends : EndsFraction c) (before after : List Char) :
    dropZeroFractions (before ++ c :: after) = dropZeroFractions before ++ c :: dropZeroFractions after := by
  fun_induction dropZeroFractions before with
  | case1 => exact dropZeroFractions_cons ends.2 after
  | case2 d rest fraction zeros =>
    obtain ⟨rfl, zero⟩ := fraction
    rw [List.cons_append, dropZeroFractions_point ((head?_append_cons_eq_zero_iff ends _ _).mpr zero),
      List.dropWhile_append, zeros]
    simp [ends.1, ends.ne_zero]
  | case3 d rest fraction e tail zeros digit ih =>
    obtain ⟨rfl, zero⟩ := fraction
    rw [List.cons_append, dropZeroFractions_point ((head?_append_cons_eq_zero_iff ends _ _).mpr zero),
      List.dropWhile_append, zeros]
    simp [digit, ih]
  | case4 d rest fraction e tail zeros noDigit ih =>
    obtain ⟨rfl, zero⟩ := fraction
    rw [List.cons_append, dropZeroFractions_point ((head?_append_cons_eq_zero_iff ends _ _).mpr zero),
      List.dropWhile_append, zeros]
    simp [noDigit, ih]
  | case5 d rest noFraction ih =>
    rw [List.cons_append, dropZeroFractions, if_neg, ih, List.cons_append]
    rwa [head?_append_cons_eq_zero_iff ends]

/-- A separator with whose characters fractions end stays as it is, and so do the limits of what it separates. -/
theorem dropZeroFractions_separated {separator : List Char} (ends : ∀ c ∈ separator, EndsFraction c)
    (nonempty : separator ≠ []) (before after : List Char) :
    dropZeroFractions (before ++ (separator ++ after)) =
      dropZeroFractions before ++ (separator ++ dropZeroFractions after) := by
  cases separator with
  | nil => exact absurd rfl nonempty
  | cons c separator =>
    rw [List.forall_mem_cons] at ends
    have pointless : '.' ∉ separator := fun point => (ends.2 '.' point).2 rfl
    rw [List.cons_append, dropZeroFractions_append_cons ends.1, dropZeroFractions_append pointless, List.cons_append]

/-- Cleaning joined tokens is cleaning each of them. -/
theorem clean_join {separator : String} (ends : ∀ c ∈ separator.toList, EndsFraction c) (nonempty : separator ≠ "")
    (tokens : List String) : clean (Text.join separator tokens) = Text.join separator (tokens.map clean) := by
  have spelled : separator.toList ≠ [] := by simpa using nonempty
  induction tokens with
  | nil => simp [Text.join, clean, dropZeroFractions]
  | cons token rest ih =>
    cases rest with
    | nil => simp [Text.join]
    | cons next rest =>
      apply String.toList_injective
      have rests := congrArg String.toList ih
      simp only [Text.join, clean, String.toList_ofList, List.map_cons] at rests ⊢
      rw [String.intercalate_cons_cons, String.intercalate_cons_cons, String.toList_append, String.toList_append,
        List.append_assoc, dropZeroFractions_separated ends spelled, rests]
      simp

/-- A token with the percent sign that is asked for. -/
def mark (percent : Bool) (token : String) : String :=
  if percent then token ++ "%" else token

theorem dropZeroFractions_sublist (text : List Char) : (dropZeroFractions text).Sublist text := by
  fun_induction dropZeroFractions text with
  | case1 => exact List.Sublist.refl _
  | case2 => exact List.nil_sublist _
  | case3 c rest fraction d after zeros digit ih => exact ih.cons_cons c
  | case4 c rest fraction d after zeros noDigit ih =>
    have tail : (d :: after).Sublist rest := zeros ▸ (List.dropWhile_suffix _).sublist
    exact ((ih.cons_cons d).trans tail).cons c
  | case5 c rest noFraction ih => exact ih.cons_cons c

theorem not_mem_clean_mark {c : Char} (noPercent : c ≠ '%') (percent : Bool) {token : String} (absent : c ∉ token.toList) :
    c ∉ (clean (mark percent token)).toList := by
  intro inside
  rw [clean, String.toList_ofList] at inside
  have before := (dropZeroFractions_sublist _).subset inside
  cases percent <;> simp_all [mark]

theorem mergeEqual_of_all_equal {tokens : List String} {token : String} (member : token ∈ tokens)
    (equal : ∀ other ∈ tokens, other = token) : mergeEqual tokens = [token] := by
  cases tokens with
  | nil => cases member
  | cons first rest =>
    obtain rfl := equal first List.mem_cons_self
    rw [mergeEqual, if_pos]
    simpa using fun other inside => equal other (List.mem_cons_of_mem _ inside)

theorem mergeEqual_of_different {tokens : List String} {token other : String} (member : token ∈ tokens)
    (another : other ∈ tokens) (different : token ≠ other) : mergeEqual tokens = tokens := by
  cases tokens with
  | nil => cases member
  | cons first rest =>
    rw [mergeEqual, if_neg]
    intro equal
    have all : ∀ text ∈ first :: rest, text = first := by
      simpa using equal
    exact different ((all token member).trans (all other another).symm)

theorem one_lt_length_of_different {tokens : List String} {token other : String} (member : token ∈ tokens)
    (another : other ∈ tokens) (different : token ≠ other) : 1 < tokens.length := by
  match tokens with
  | [] => cases member
  | [one] =>
    rw [List.mem_singleton] at member another
    exact absurd (member.trans another.symm) different
  | _ :: _ :: _ => exact Nat.succ_lt_succ (Nat.succ_pos _)

theorem format_eq {separator : String} (nonempty : separator ≠ "") (value : Document) (percent : Bool) :
    format value percent separator =
      let marked := (mergeEqual (tokens value)).map (mark percent)
      if 1 < marked.length then .many (Text.splitOn (clean (Text.join separator marked)) separator)
      else .single (clean (Text.join separator marked)) := by
  have unmarked : mark false = id := rfl
  have marked : mark true = fun token => token ++ "%" := rfl
  cases percent <;> simp [format, nonempty, unmarked, marked]

theorem format_of_equal {separator : String} (nonempty : separator ≠ "") {value : Document} (percent : Bool) {token : String}
    (member : token ∈ tokens value) (equal : ∀ other ∈ tokens value, other = token) :
    format value percent separator = .single (clean (mark percent token)) := by
  rw [format_eq nonempty, mergeEqual_of_all_equal member equal]
  simp [Text.join]

/-- Tokens that are joined, cleaned and split again have each been cleaned on its own. -/
theorem splitOn_clean_join {texts : List String} (percent : Bool) (nonempty : texts ≠ [])
    (slashFree : ∀ text ∈ texts, '/' ∉ text.toList) :
    Text.splitOn (clean (Text.join defaultSeparator (texts.map (mark percent)))) defaultSeparator =
      texts.map fun text => clean (mark percent text) := by
  have ends : ∀ c ∈ defaultSeparator.toList, EndsFraction c := by
    simp [defaultSeparator, EndsFraction]
    decide
  have parted : defaultSeparator.toList = [' '] ++ '/' :: [' '] := rfl
  rw [clean_join ends (by decide), List.map_map, Text.splitOn_join parted (by decide)]
  · rfl
  · simpa using nonempty
  · simp only [List.forall_mem_map]
    exact fun text inside => not_mem_clean_mark (by decide) percent (slashFree text inside)

theorem formatText_of_different {text token other : String} (member : token ∈ tokens (.text text))
    (another : other ∈ tokens (.text text)) (different : token ≠ other)
    (slashFree : ∀ token ∈ tokens (.text text), '/' ∉ token.toList) :
    formatText text false = .many ((tokens (.text text)).map clean) := by
  have several := one_lt_length_of_different member another different
  rw [formatText, format_eq (by decide), mergeEqual_of_different member another different]
  simp only [List.length_map, if_pos several]
  rw [splitOn_clean_join false (List.ne_nil_of_mem member) slashFree]
  rfl

/-- Texts without a space are the tokens of the text that joins them with spaces. -/
theorem tokens_join {texts : List String} (nonempty : texts ≠ []) (unspaced : ∀ text ∈ texts, ' ' ∉ text.toList) :
    tokens (.text (Text.join " " texts)) = texts :=
  have parted : " ".toList = [] ++ ' ' :: [] := rfl
  Text.splitOn_join parted List.not_mem_nil nonempty unspaced

/-- Levels are the tokens, each with its percent sign and cleaned on its own. Where all tokens are equal there is one of
them, and an empty list shows nothing. -/
theorem format_by_token (value : Document) (percent : Bool) {separator : String}
    (known : separator = defaultSeparator ∨ separator = "/") (slashFree : ∀ token ∈ tokens value, '/' ∉ token.toList) :
    (∀ token ∈ tokens value, ∀ other ∈ tokens value, token ≠ other →
      format value percent separator = .many ((tokens value).map fun text => clean (mark percent text))) ∧
    (∀ token ∈ tokens value, (∀ other ∈ tokens value, other = token) →
      format value percent separator = .single (clean (mark percent token))) ∧
    (value = .list [] → format value percent separator = .single "") := by
  have nonempty : separator ≠ "" := by
    rcases known with rfl | rfl <;> decide
  have ends : ∀ c ∈ separator.toList, EndsFraction c := by
    rcases known with rfl | rfl <;> simp [defaultSeparator, EndsFraction] <;> decide
  obtain ⟨before, after, parted, early⟩ : ∃ before after, separator.toList = before ++ '/' :: after ∧ '/' ∉ before := by
    rcases known with rfl | rfl
    · exact ⟨[' '], [' '], rfl, by decide⟩
    · exact ⟨[], [], rfl, by decide⟩
  refine ⟨?_, ?_, ?_⟩
  · intro token member other another different
    have several := one_lt_length_of_different member another different
    rw [format_eq nonempty, mergeEqual_of_different member another different]
    simp only [List.length_map, if_pos several, clean_join ends nonempty]
    rw [Text.splitOn_join parted early, List.map_map]
    · rfl
    · simpa using List.ne_nil_of_mem member
    · simp only [List.forall_mem_map]
      exact fun text inside => not_mem_clean_mark (by decide) percent (slashFree text inside)
  · intro token member equal
    rw [format_eq nonempty, mergeEqual_of_all_equal member equal]
    simp [Text.join]
  · rintro rfl
    rw [format_eq nonempty]
    simp [tokens, mergeEqual, Text.join, clean, dropZeroFractions]

theorem format_by_token_percents :
    tokens (.text "1.0 2.50  7.00x") = ["1.0", "2.50", "", "7.00x"] ∧
    format (.text "1.0 2.50  7.00x") true defaultSeparator = .many ["1%", "2.50%", "%", "7x%"] := by
  have cut : tokens (.text "1.0 2.50  7.00x") = ["1.0", "2.50", "", "7.00x"] := by
    decide +kernel
  have slashFree : ∀ token ∈ tokens (.text "1.0 2.50  7.00x"), '/' ∉ token.toList := by
    rw [cut]
    decide
  obtain ⟨levels, -, -⟩ := format_by_token (.text "1.0 2.50  7.00x") true (.inl rfl) slashFree
  refine ⟨cut, ?_⟩
  rw [levels "1.0" (by simp [cut]) "2.50" (by simp [cut]) (by decide), cut]
  apply congrArg
  decide +kernel

theorem tokens_eq_nil_iff (value : Document) : tokens value = [] ↔ value = .list [] := by
  cases value <;> simp [tokens, Text.splitOn_ne_nil]

theorem mergeEqual_eq_nil_iff (tokens : List String) : mergeEqual tokens = [] ↔ tokens = [] := by
  cases tokens with
  | nil => simp [mergeEqual]
  | cons first rest =>
    rw [mergeEqual]
    split <;> simp

theorem mem_of_mem_mergeEqual {tokens : List String} {token : String} (member : token ∈ mergeEqual tokens) :
    token ∈ tokens := by
  cases tokens with
  | nil => exact member
  | cons first rest =>
    rw [mergeEqual] at member
    split at member
    · exact List.mem_singleton.mp member ▸ List.mem_cons_self
    · exact member

/-- Without a separator nothing is joined: each token is cleaned on its own to begin with. -/
theorem format_unseparated (value : Document) (percent : Bool) :
    format value percent "" = ofTokens ((mergeEqual (tokens value)).map fun text => clean (mark percent text)) := by
  have unmarked : mark false = id := rfl
  have marked : mark true = fun token => token ++ "%" := rfl
  cases percent <;> simp [format, unmarked, marked, Function.comp_def]

/-- Levels are the same with and without a separator, unless there is no token at all. An empty list is not one text, so
that without a separator it shows no levels; nor is it several, so that with one it shows a single empty text. -/
theorem format_unseparated_eq_iff {value : Document} (percent : Bool)
    (slashFree : ∀ token ∈ tokens value, '/' ∉ token.toList) :
    format value percent "" = format value percent defaultSeparator ↔ value ≠ .list [] := by
  have merged : ∀ text ∈ mergeEqual (tokens value), '/' ∉ text.toList :=
    fun text member => slashFree text (mem_of_mem_mergeEqual member)
  rw [format_unseparated, format_eq (by decide), ne_eq, ← tokens_eq_nil_iff, ← mergeEqual_eq_nil_iff]
  -- One text is joined with nothing, and several are taken apart again where they were joined.
  match same : mergeEqual (tokens value) with
  | [] => simp [ofTokens]
  | [token] => simp [ofTokens, Text.join]
  | first :: second :: rest =>
    rw [same] at merged
    have split := splitOn_clean_join percent (List.cons_ne_nil _ _) merged
    simp only [split, List.length_map]
    simp [ofTokens]

theorem format_unseparated_percents :
    tokens (.text "1.0 2.50  7.00x") = ["1.0", "2.50", "", "7.00x"] ∧
    format (.text "1.0 2.50  7.00x") true "" = format (.text "1.0 2.50  7.00x") true defaultSeparator := by
  have cut : tokens (.text "1.0 2.50  7.00x") = ["1.0", "2.50", "", "7.00x"] := by
    decide +kernel
  have slashFree : ∀ token ∈ tokens (.text "1.0 2.50  7.00x"), '/' ∉ token.toList := by
    rw [cut]
    decide
  exact ⟨cut, (format_unseparated_eq_iff true slashFree).mpr (by simp)⟩

theorem format_unseparated_empty :
    (∀ token ∈ tokens (.list []), '/' ∉ token.toList) ∧
    format (.list []) false "" = .many [] ∧
    format (.list []) false defaultSeparator = .single "" := by
  decide +kernel

end Compendium.Levels
