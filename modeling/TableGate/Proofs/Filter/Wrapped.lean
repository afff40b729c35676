import TableGate.Proofs.Filter.Lists

/-!
# Lists of filters in parentheses

A group may be written with parentheses around it, as in a query string, or
without, as in a document. Parentheses are recognized by the first and the
last character. The first character of a list of filters comes from a column
and is no parenthesis, but the last one is if the last filter has a list after
`in`. So such a list without parentheses around it is taken for one whose first
parenthesis is missing.

## Main results

* `unwrap_parenthesized`, `unwrap_bare`: what becomes of a text with and
  without parentheses around it.
* `ends_listText`: the first and the last character of a list of filters.
* `wrapped_lists_agree`: with parentheses around it a list is always read;
  without them it is read alike, unless its last filter has a list.
-/

namespace TableGate

open Text (isBlank trimChars)

/-! ## The ends of a list -/

namespace Text

theorem head?_joinWith {sep piece : List Char} (h : piece ≠ [])
    (others : List (List Char)) :
    (joinWith sep (piece :: others)).head? = piece.head? := by
  obtain ⟨c, rest, rfl⟩ := List.exists_cons_of_ne_nil h
  cases others with
  | nil => rfl
  | cons next others => rfl

theorem getLast?_joinWith {sep piece : List Char} (h : piece ≠ [])
    (front : List (List Char)) :
    (joinWith sep (front ++ [piece])).getLast? = piece.getLast? := by
  obtain ⟨c, hLast⟩ := Option.isSome_iff_exists.1 (List.getLast?_isSome.2 h)
  induction front with
  | nil => rfl
  | cons first front ih =>
      obtain ⟨next, others, hRest⟩ :=
        List.exists_cons_of_ne_nil (List.concat_ne_nil piece front)
      rw [List.cons_append, hRest, joinWith, ← hRest, List.getLast?_append, ih,
        hLast]
      · rfl
      · exact List.cons_ne_nil next others

end Text

namespace Group

/-- Parentheses around a text are dropped, whatever the text is. -/
theorem unwrap_parenthesized (connective : Connective) (s : String) :
    unwrap connective ("(" ++ s ++ ")") = .ok s := by
  have hChars : ("(" ++ s ++ ")").toList = '(' :: s.toList ++ [')'] := by
    rw [String.toList_append, String.toList_append]
    rfl
  rw [unwrap, hChars, Text.trimChars_parenthesized]
  simp [List.getLast?_cons]

/-- A trimmed text without a parenthesis at its start is kept, unless it ends
with one. -/
theorem unwrap_bare {s : String} (hTrim : trimChars s.toList = s.toList)
    (hHead : s.toList.head? ≠ some '(') (connective : Connective) :
    unwrap connective s =
      if s.toList.getLast? = some ')' then refuse (.groupFormat connective s)
      else .ok s := by
  rw [unwrap, hTrim]
  simp [hHead]

end Group

namespace Filter

/-- The last character after a dot, if there is one. -/
theorem eq_dot_or_last {cs : List Char} {c : Char}
    (h : c ∈ ('.' :: cs).getLast?) : c = '.' ∨ c ∈ cs.getLast? := by
  rw [List.getLast?_cons, Option.mem_some_iff] at h
  cases hLast : cs.getLast? with
  | none =>
      rw [hLast] at h
      exact Or.inl h.symm
  | some d =>
      rw [hLast] at h
      exact Or.inr (congrArg some h)

theorem text_ne_nil {f : Filter} {operator : Operator}
    (h : f.operator = some operator) : f.text.toList ≠ [] := by
  rw [toList_text h]
  exact List.append_ne_nil_of_right_ne_nil _ (List.cons_ne_nil _ _)

/-- The text of a filter starts with its column, or with the dot after it. -/
theorem head?_text {f : Filter} {operator : Operator}
    (h : f.operator = some operator) (hColumn : IsColumnText f.column) :
    ∀ c ∈ f.text.toList.head?, c ≠ '(' ∧ isBlank c = false := by
  have hTrim : ∀ c ∈ (trimChars f.column.toList).head?, isBlank c = false :=
    Text.head?_stripChars
  rw [trimChars_of_trim hColumn.trimmed] at hTrim
  rw [toList_text h]
  intro c hc
  cases hChars : f.column.toList with
  | nil =>
      rw [hChars] at hc
      obtain rfl : '.' = c := by simpa using hc
      decide
  | cons d rest =>
      rw [hChars] at hc hTrim
      obtain rfl : d = c := by simpa using hc
      have hPlain := hColumn.plain d (by rw [hChars]; exact List.mem_cons_self)
      exact ⟨hPlain.2.2.1, hTrim d rfl⟩

/-- It ends with its value, or with the dot before it. -/
theorem getLast?_text {f : Filter} {operator : Operator}
    (h : f.operator = some operator) :
    f.text.toList.getLast? = ('.' :: (valueText f.value).toList).getLast? := by
  rw [toList_text h, getLast?_dot_append, ← List.cons_append,
    getLast?_dot_append]

/-- Of a list of filters the first column decides on the first character, and
the last value on the last. -/
theorem ends_listText {filters : List Filter} (hSome : filters ≠ [])
    (h : ∀ f ∈ filters, f.IsPiece) :
    (∀ c ∈ (listText filters).toList.head?, c ≠ '(' ∧ isBlank c = false) ∧
      (listText filters).toList.getLast? =
        ('.' :: (valueText (filters.getLast hSome).value).toList).getLast? := by
  have hOperator : ∀ f ∈ filters, ∃ operator, f.operator = some operator :=
    fun f hf => Option.isSome_iff_exists.1 (h f hf).known
  rw [toList_listText]
  refine ⟨?_, ?_⟩
  · obtain ⟨f, others, rfl⟩ := List.exists_cons_of_ne_nil hSome
    obtain ⟨operator, hf⟩ := hOperator f List.mem_cons_self
    rw [List.map_cons, Text.head?_joinWith (text_ne_nil hf)]
    exact head?_text hf (h f List.mem_cons_self).column
  · obtain ⟨operator, hf⟩ := hOperator _ (List.getLast_mem hSome)
    rw [← getLast?_text hf, ← Text.getLast?_joinWith (text_ne_nil hf)
      (filters.dropLast.map fun f => f.text.toList)]
    conv_lhs => rw [← List.dropLast_append_getLast hSome, List.map_append]
    rfl

/-! ## Values without parentheses -/

/-- A value after an operator that has no parentheses, but for those around a
list. -/
inductive PlainAfter : Operator → FilterValue → Prop
  | text {operator : Operator} {s : String} (h : IsPlainText s) :
      PlainAfter operator (.text s)
  | items {items : List String} (hSome : items ≠ [])
      (h : ∀ item ∈ items, item ≠ "" ∧ IsItemText item) :
      PlainAfter .in (.sequence (items.map .text))

/-- A filter with a plain value after a known operator. -/
structure IsPlain (f : Filter) : Prop where
  column : IsColumnText f.column
  plain : ∃ operator, f.operator = some operator ∧ PlainAfter operator f.value

theorem IsPlainText.last {s : String} (h : IsPlainText s) :
    ∀ c ∈ s.toList.getLast?, c ≠ ')' ∧ isBlank c = false := by
  have hTrim : ∀ c ∈ (trimChars s.toList).getLast?, isBlank c = false :=
    Text.getLast?_stripChars
  rw [trimChars_of_trim h.trimmed] at hTrim
  intro c hc
  exact ⟨(h.plain c (List.mem_of_getLast? hc)).2.2, hTrim c hc⟩

theorem PlainAfter.isValueText {operator : Operator} {value : FilterValue}
    (h : PlainAfter operator value) : IsValueText (valueText value) := by
  cases h with
  | text h =>
      refine ⟨Group.isSegment_of_plain (fun hc => ?_) (fun hc => ?_)
        (fun hc => ?_), fun c hc => (h.last c hc).2⟩
      · exact (h.plain _ hc).2.1 rfl
      · exact (h.plain _ hc).2.2 rfl
      · exact (h.plain _ hc).1 rfl
  | items hSome h =>
      exact isValueText_sequence fun item hItem =>
        ⟨fun hc => ((h item hItem).2.plain _ hc).2.1 rfl,
          fun hc => ((h item hItem).2.plain _ hc).2.2 rfl⟩

theorem IsPlain.isPiece {f : Filter} (h : f.IsPlain) : f.IsPiece := by
  obtain ⟨operator, hOperator, hPlain⟩ := h.plain
  exact ⟨h.column, by rw [hOperator]; rfl, hPlain.isValueText⟩

/-- Only a list closes a parenthesis at the end. -/
theorem PlainAfter.getLast?_eq_iff {operator : Operator} {value : FilterValue}
    (h : PlainAfter operator value) :
    ('.' :: (valueText value).toList).getLast? = some ')' ↔
      value.kind = "sequence" := by
  cases h with
  | @text _ s h =>
      have hShown : valueText (.text s) = s := rfl
      have hOpen : ('.' :: s.toList).getLast? ≠ some ')' := by
        intro hLast
        rcases eq_dot_or_last hLast with hDot | hText
        · exact absurd hDot (by decide)
        · exact (h.last ')' hText).1 rfl
      rw [hShown]
      exact iff_of_false hOpen (by simp [FilterValue.kind])
  | items hSome h =>
      rw [sequence_text_eq, toList_valueText_sequence, ← List.cons_append,
        List.getLast?_concat]
      exact iff_of_true rfl rfl

end Filter

open TableGate.Filter in
/-- A list of plain filters is read from its text with parentheses around it.
Without them it is read alike if the last filter has a single value; if it has
a list, the text is refused for want of a parenthesis. -/
theorem wrapped_lists_agree {filters : List Filter} (hSome : filters ≠ [])
    (h : ∀ f ∈ filters, f.IsPlain) (connective : Connective) (next : Int) :
    Group.unwrap connective ("(" ++ listText filters ++ ")") =
        .ok (listText filters) ∧
      Group.unwrap connective (listText filters) =
        (if (filters.getLast hSome).value.kind = "sequence" then
          refuse (.groupFormat connective (listText filters))
        else .ok (listText filters)) ∧
      (Group.read connective (listText filters)).run.run next =
        (.ok (filters.map (reread (connective.opened none next).1)),
          (connective.opened none next).2) := by
  have hPieces : ∀ f ∈ filters, f.IsPiece := fun f hf => (h f hf).isPiece
  obtain ⟨hHead, hLast⟩ := ends_listText hSome hPieces
  have hFinal := h _ (List.getLast_mem hSome)
  obtain ⟨operator, -, hPlain⟩ := hFinal.plain
  have hTrim : trimChars (listText filters).toList =
      (listText filters).toList := by
    refine Text.trimChars_eq_self (fun c hc => (hHead c hc).2) ?_
    intro c hc
    rw [hLast] at hc
    rcases eq_dot_or_last hc with rfl | hValue
    · decide
    · exact hPlain.isValueText.last c hValue
  have hOpen : (listText filters).toList.head? ≠ some '(' :=
    fun hParen => (hHead '(' hParen).1 rfl
  refine ⟨Group.unwrap_parenthesized connective _, ?_,
    run_read_listText hSome hPieces connective next⟩
  rw [Group.unwrap_bare hTrim hOpen, hLast]
  exact if_congr hPlain.getLast?_eq_iff rfl rfl

namespace Filter

/-- Filters with a single value and with a list. -/
def twoPlain : List Filter := [
  { column := "a", operator := some .in,
    value := .sequence [.text "1", .text "2"] },
  { column := "b", operator := some .eq, value := .text "x" }]

theorem isPlain_twoPlain : ∀ f ∈ twoPlain, f.IsPlain := by
  have hItems : PlainAfter .in (.sequence (["1", "2"].map .text)) :=
    .items (by decide) (by decide +kernel)
  have hText : PlainAfter .eq (.text "x") := .text (by decide +kernel)
  have hColumns : ∀ f ∈ twoPlain, IsColumnText f.column := by decide +kernel
  simp only [twoPlain, List.forall_mem_cons] at hColumns ⊢
  obtain ⟨hFirst, hSecond, -⟩ := hColumns
  exact ⟨⟨hFirst, _, rfl, hItems⟩, ⟨hSecond, _, rfl, hText⟩,
    List.forall_mem_nil _⟩

end Filter

theorem wrapped_lists_agree_two :
    Filter.twoPlain ≠ [] ∧ (∀ f ∈ Filter.twoPlain, f.IsPlain) ∧
      Group.unwrap .or "(a.in.(1,2),b.eq.x)" = .ok "a.in.(1,2),b.eq.x" ∧
      Group.unwrap .or "a.in.(1,2),b.eq.x" = .ok "a.in.(1,2),b.eq.x" ∧
      (Group.read .or "a.in.(1,2),b.eq.x").run.run 3 =
        (.ok (Filter.twoPlain.map fun f =>
          { f with isOr := true, group := 3 }), 4) := by
  have hText : Filter.listText Filter.twoPlain = "a.in.(1,2),b.eq.x" := by
    decide +kernel
  have hParens : "(" ++ "a.in.(1,2),b.eq.x" ++ ")" = "(a.in.(1,2),b.eq.x)" := by
    decide +kernel
  have hRead := wrapped_lists_agree (by decide) Filter.isPlain_twoPlain .or 3
  rw [hText, hParens] at hRead
  exact ⟨by decide, Filter.isPlain_twoPlain, hRead⟩

/-- Turned around, the list comes last and the text without parentheses is
refused. -/
theorem bare_list_refused :
    (∀ f ∈ Filter.twoPlain.reverse, f.IsPlain) ∧
      Filter.listText Filter.twoPlain.reverse = "b.eq.x,a.in.(1,2)" ∧
      Group.unwrap .or "b.eq.x,a.in.(1,2)" =
        refuse (.groupFormat .or "b.eq.x,a.in.(1,2)") ∧
      Group.unwrap .or "(b.eq.x,a.in.(1,2))" = .ok "b.eq.x,a.in.(1,2)" := by
  have hBare := Group.unwrap_bare (s := "b.eq.x,a.in.(1,2)")
    (by decide +kernel) (by decide +kernel) .or
  have hWrapped := Group.unwrap_parenthesized .or "b.eq.x,a.in.(1,2)"
  have hParens : "(" ++ "b.eq.x,a.in.(1,2)" ++ ")" = "(b.eq.x,a.in.(1,2))" := by
    decide +kernel
  rw [if_pos (by decide +kernel)] at hBare
  rw [hParens] at hWrapped
  exact ⟨fun f hf => Filter.isPlain_twoPlain f (List.mem_reverse.1 hf),
    by decide +kernel, hBare, hWrapped⟩

end TableGate
