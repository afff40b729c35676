import TableGate.Proofs.Filter.Spelling

/-!
# Lists of filters and their texts

The texts of filters with commas between them are the text of a group. A
filter is a piece of such a list when its text keeps apart from its neighbours:
the column has no dot, comma or parenthesis, and the value closes the
parentheses it opens, has no comma outside of them and ends visibly. The group
then holds one triple for each filter, and reading it reads every filter on
its own, as `Filter.reread` says.

What is reread is the filter itself if its value has one spelling only
(`Filter.SpelledInList`): no text that stands for a word after `is`, no list
with an item that trimming or unquoting would change.

## Main results

* `run_read_listText`: the text of a list of filters is read filter by filter.
* `lists_read_back`: values with one spelling are read back, in a conjunction
  as they were and in a disjunction under one new number.
-/

namespace TableGate

open Text (isBlank trimChars)

namespace Filter

/-- The texts of filters with commas between them. -/
def listText (filters : List Filter) : String :=
  ",".intercalate (filters.map text)

theorem toList_listText (filters : List Filter) :
    (listText filters).toList =
      Text.joinWith [','] (filters.map fun f => f.text.toList) := by
  rw [listText, toList_intercalate_comma, List.map_map]
  rfl

/-! ## Pieces of a list -/

/-- A column that reaches to the first dot of a filter text: no dot, comma or
parenthesis, and no blanks around it. -/
structure IsColumnText (s : String) : Prop where
  plain : ∀ c ∈ s.toList, c ≠ '.' ∧ c ≠ ',' ∧ c ≠ '(' ∧ c ≠ ')'
  trimmed : Text.trim s = s

instance (s : String) : Decidable (IsColumnText s) :=
  haveI : Decidable (∀ c ∈ s.toList,
      c ≠ '.' ∧ c ≠ ',' ∧ c ≠ '(' ∧ c ≠ ')') := List.decidableBAll _ _
  decidable_of_iff (_ ∧ _)
    ⟨fun h => ⟨h.1, h.2⟩, fun h => ⟨h.plain, h.trimmed⟩⟩

/-- A value that reaches to the next comma of a list: balanced parentheses, no
comma outside of them, and no blank at the end. -/
structure IsValueText (s : String) : Prop where
  segment : Group.IsSegment s.toList
  last : ∀ c ∈ s.toList.getLast?, isBlank c = false

instance (s : String) : Decidable (IsValueText s) :=
  haveI : Decidable (∀ c ∈ s.toList.getLast?, isBlank c = false) :=
    Option.decidableForallMem _
  decidable_of_iff (_ ∧ _)
    ⟨fun h => ⟨h.1, h.2⟩, fun h => ⟨h.segment, h.last⟩⟩

/-- A filter whose text is one piece of a list. -/
structure IsPiece (f : Filter) : Prop where
  column : IsColumnText f.column
  known : f.operator.isSome = true
  value : IsValueText (valueText f.value)

/-- What the text of a filter is read as, alone or as a member of a numbered
group. -/
def reread (number : Option Int) (f : Filter) : Filter where
  column := f.column
  operator := f.operator
  value := FilterValue.ofText f.operator (valueText f.value)
  isOr := number.isSome
  group := number.getD 0

theorem trimChars_of_trim {s : String} (h : Text.trim s = s) :
    trimChars s.toList = s.toList := by
  rw [Text.trim] at h
  rw [← String.toList_ofList (l := trimChars s.toList), h]

/-- The text of a piece is a triple, which stands for what is reread. -/
theorem IsPiece.exists_triple {f : Filter} (h : f.IsPiece) :
    ∃ t : Triple, t.text = f.text.toList ∧
      ∀ number, t.filter number = f.reread number := by
  obtain ⟨operator, hOperator⟩ := Option.isSome_iff_exists.1 h.known
  have hToken : IsColumnText operator.token := by
    cases operator <;> decide +kernel
  let t : Triple := {
    column := f.column.toList
    token := operator.token.toList
    value := (valueText f.value).toList
    column_plain := h.column.plain
    column_trimmed := trimChars_of_trim h.column.trimmed
    token_plain := hToken.plain
    value_segment := h.value.segment
    value_end := h.value.last }
  refine ⟨t, (toList_text hOperator).symm, fun number => ?_⟩
  have hName : Text.trim (.ofList t.column) = f.column := by
    rw [String.ofList_toList, h.column.trimmed]
  have hRead : Operator.ofToken? (.ofList t.token) = f.operator := by
    rw [String.ofList_toList, Operator.ofToken?_token, hOperator]
  have hValue : String.ofList t.value = valueText f.value :=
    String.ofList_toList
  rw [Triple.filter, hName, hRead, hValue, reread]

/-- The pieces of a list are the members of a group, from any number on and in
any group. -/
theorem exists_members {filters : List Filter} (hSome : filters ≠ [])
    (h : ∀ f ∈ filters, f.IsPiece) :
    ∃ members : Members,
      members.texts = filters.map (fun f => f.text.toList) ∧
      (∀ insideOr, members.Flattens insideOr) ∧
      ∀ number next,
        members.numbered number next = (filters.map (reread number), next) := by
  induction filters with
  | nil => exact absurd rfl hSome
  | cons f others ih =>
      obtain ⟨t, hText, hFilter⟩ := (h f List.mem_cons_self).exists_triple
      have hMember : (Expression.triple {} t {}).text = f.text.toList := by
        rw [Expression.text, hText, List.nil_append, List.append_nil]
      cases others with
      | nil =>
          refine ⟨.one (.triple {} t {}), ?_, fun _ => trivial,
            fun number next => ?_⟩
          · rw [Members.texts, hMember]
            rfl
          · rw [Members.numbered, Expression.numbered, hFilter]
            rfl
      | cons g others =>
          obtain ⟨members, hTexts, hFlat, hNumbered⟩ :=
            ih (List.cons_ne_nil g others) fun other hOther =>
              h other (List.mem_cons_of_mem f hOther)
          refine ⟨.cons (.triple {} t {}) members, ?_,
            fun insideOr => ⟨trivial, hFlat insideOr⟩, fun number next => ?_⟩
          · rw [Members.texts, hMember, hTexts]
            rfl
          · rw [Members.numbered, Expression.numbered, hFilter, hNumbered]
            rfl

/-- The text of a list of filters is read filter by filter, all of them under
the number their group opens. -/
theorem run_read_listText {filters : List Filter} (hSome : filters ≠ [])
    (h : ∀ f ∈ filters, f.IsPiece) (connective : Connective) (next : Int) :
    (Group.read connective (listText filters)).run.run next =
      (.ok (filters.map (reread (connective.opened none next).1)),
        (connective.opened none next).2) := by
  obtain ⟨members, hTexts, hFlat, hNumbered⟩ := exists_members hSome h
  have hText : String.ofList members.text = listText filters := by
    rw [Members.text, hTexts, ← toList_listText, String.ofList_toList]
  have hRead := members.run_read (hFlat (connective == .or)) next
  rwa [hText, hNumbered] at hRead

/-! ## Values with one spelling -/

/-- A text without commas and parentheses, and without blanks around it. -/
structure IsPlainText (s : String) : Prop where
  plain : ∀ c ∈ s.toList, c ≠ ',' ∧ c ≠ '(' ∧ c ≠ ')'
  trimmed : Text.trim s = s

instance (s : String) : Decidable (IsPlainText s) :=
  haveI : Decidable (∀ c ∈ s.toList, c ≠ ',' ∧ c ≠ '(' ∧ c ≠ ')') :=
    List.decidableBAll _ _
  decidable_of_iff (_ ∧ _)
    ⟨fun h => ⟨h.1, h.2⟩, fun h => ⟨h.plain, h.trimmed⟩⟩

/-- An item of a list after `in` that is read as it is written: plain, and
without double quotes around it. -/
structure IsItemText (s : String) : Prop extends IsPlainText s where
  first : ∀ c ∈ s.toList.head?, c ≠ '\x22'
  last : ∀ c ∈ s.toList.getLast?, c ≠ '\x22'

instance (s : String) : Decidable (IsItemText s) :=
  haveI (o : Option Char) : Decidable (∀ c ∈ o, c ≠ '\x22') :=
    Option.decidableForallMem o
  decidable_of_iff (IsPlainText s ∧ _ ∧ _)
    ⟨fun h => ⟨h.1, h.2.1, h.2.2⟩, fun h => ⟨h.toIsPlainText, h.first, h.last⟩⟩

/-- A value after an operator that is read from nothing but the text it is
written as. -/
inductive SpelledInList : Operator → FilterValue → Prop
  | null : SpelledInList .is .null
  | bool (b : Bool) : SpelledInList .is (.bool b)
  | noWord {s : String} (hText : IsValueText s)
      (hWord : Text.lower (Text.trim s) ∉ isWords) :
      SpelledInList .is (.text s)
  | items {items : List String} (hOne : items ≠ [""])
      (hItems : ∀ item ∈ items, IsItemText item) :
      SpelledInList .in (.sequence (items.map .text))
  | text {operator : Operator} {s : String} (hIs : operator ≠ .is)
      (hIn : operator ≠ .in) (hText : IsValueText s) :
      SpelledInList operator (.text s)

theorem IsItemText.unquote {item : String} (h : IsItemText item) :
    Text.stripChars (· == '\x22') item.toList = item.toList :=
  Text.stripChars_eq_self
    (fun c hc => beq_false_of_ne (h.first c hc))
    fun c hc => beq_false_of_ne (h.last c hc)

theorem sequence_text_eq (items : List String) :
    FilterValue.sequence (items.map .text) =
      sequenceOf (items.map String.toList) := by
  rw [sequenceOf, List.map_map]
  refine congrArg FilterValue.sequence (List.map_congr_left fun item _ => ?_)
  exact congrArg Scalar.text String.ofList_toList.symm

/-- Items without parentheses may stand in a list. -/
theorem isValueText_sequence {items : List String}
    (h : ∀ item ∈ items, '(' ∉ item.toList ∧ ')' ∉ item.toList) :
    IsValueText (valueText (.sequence (items.map .text))) := by
  rw [sequence_text_eq]
  refine ⟨?_, fun c hc => ?_⟩
  · rw [toList_valueText_sequence]
    refine Group.Balanced.parenthesized (Group.balanced_joinWith ?_)
    intro piece hPiece
    obtain ⟨item, hItem, rfl⟩ := List.mem_map.1 hPiece
    exact Group.balanced_of_plain (h item hItem).1 (h item hItem).2
  · rw [toList_valueText_sequence, List.getLast?_concat] at hc
    obtain rfl : ')' = c := by simpa using hc
    decide

theorem isValueText_word : ∀ word ∈ isWords, IsValueText word := by
  decide +kernel

theorem SpelledInList.isValueText {operator : Operator} {value : FilterValue}
    (h : SpelledInList operator value) : IsValueText (valueText value) := by
  cases h with
  | null => exact isValueText_word _ (by decide)
  | bool b => exact isValueText_word _ (by cases b <;> decide)
  | noWord hText hWord => exact hText
  | items hOne hItems =>
      exact isValueText_sequence fun item hItem =>
        ⟨fun hc => ((hItems item hItem).plain _ hc).2.1 rfl,
          fun hc => ((hItems item hItem).plain _ hc).2.2 rfl⟩
  | text hIs hIn hText => exact hText

theorem SpelledInList.ofText_valueText {operator : Operator}
    {value : FilterValue} (h : SpelledInList operator value) :
    FilterValue.ofText (some operator) (valueText value) = value := by
  cases h with
  | null => decide +kernel
  | bool b => cases b <;> decide +kernel
  | @noWord s hText hWord =>
      simp only [isWords, List.mem_cons, List.not_mem_nil, or_false,
        not_or] at hWord
      have hShown : valueText (.text s) = s := rfl
      rw [hShown, ofText_is, if_neg hWord.1, if_neg hWord.2.1,
        if_neg hWord.2.2]
  | @items items hOne hItems =>
      have hOther : items.map String.toList ≠ [[]] := by
        intro hEmpty
        refine hOne (List.map_injective_iff.2
          (fun _ _ => String.toList_injective) ?_)
        rw [hEmpty]
        rfl
      have hBack : itemsBetween
          (Text.joinWith [','] (items.map String.toList)) =
            items.map String.toList := by
        refine (itemsBetween_joinWith_iff fun piece hPiece => ?_).2
          ⟨hOther, fun piece hPiece => ?_⟩
        · obtain ⟨item, hItem, rfl⟩ := List.mem_map.1 hPiece
          exact ⟨fun hc => ((hItems item hItem).plain _ hc).1 rfl,
            (hItems item hItem).unquote⟩
        · obtain ⟨item, hItem, rfl⟩ := List.mem_map.1 hPiece
          exact trimChars_of_trim (hItems item hItem).trimmed
      have hShown : valueText (.sequence (items.map .text)) =
          .ofList ('(' ::
            Text.joinWith [','] (items.map String.toList) ++ [')']) := by
        rw [sequence_text_eq, ← toList_valueText_sequence,
          String.ofList_toList]
      rw [hShown, ofText_in, listed_parenthesized, hBack, sequence_text_eq]
  | text hIs hIn hText =>
      cases operator with
      | is => exact absurd rfl hIs
      | «in» => exact absurd rfl hIn
      | _ => rfl

/-- A filter outside of groups that its text spells out between others. -/
structure IsListed (f : Filter) : Prop where
  isOr_eq : f.isOr = false
  group_eq : f.group = 0
  column : IsColumnText f.column
  spelled : ∃ operator, f.operator = some operator ∧
    SpelledInList operator f.value

theorem IsListed.isPiece {f : Filter} (h : f.IsListed) : f.IsPiece := by
  obtain ⟨operator, hOperator, hSpelled⟩ := h.spelled
  exact ⟨h.column, by rw [hOperator]; rfl, hSpelled.isValueText⟩

theorem IsListed.reread {f : Filter} (h : f.IsListed) (number : Option Int) :
    f.reread number =
      { f with isOr := number.isSome, group := number.getD 0 } := by
  obtain ⟨operator, hOperator, hSpelled⟩ := h.spelled
  rw [Filter.reread, hOperator, hSpelled.ofText_valueText]

end Filter

open TableGate.Filter in
/-- Filters whose values have one spelling are read back from their texts with
commas between them: as they were from a conjunction, and from a disjunction
as the members of one group with the next number. -/
theorem lists_read_back {filters : List Filter} (hSome : filters ≠ [])
    (h : ∀ f ∈ filters, f.IsListed) (next : Int) :
    (Group.read .and (listText filters)).run.run next = (.ok filters, next) ∧
      (Group.read .or (listText filters)).run.run next =
        (.ok (filters.map fun f => { f with isOr := true, group := next }),
          next + 1) := by
  have hPieces : ∀ f ∈ filters, f.IsPiece := fun f hf => (h f hf).isPiece
  have hRead := run_read_listText hSome hPieces
  have hSame : filters.map (reread none) = filters := by
    conv_rhs => rw [← List.map_id filters]
    refine List.map_congr_left fun f hf => ?_
    rw [(h f hf).reread none, id]
    show { f with isOr := false, group := 0 } = f
    rw [← (h f hf).isOr_eq, ← (h f hf).group_eq]
  have hMarked : filters.map (reread (some next)) =
      filters.map fun f => { f with isOr := true, group := next } :=
    List.map_congr_left fun f hf => (h f hf).reread (some next)
  refine ⟨?_, ?_⟩
  · rw [hRead .and next]
    show (Except.ok (filters.map (reread none)), next) = _
    rw [hSame]
  · rw [hRead .or next]
    show (Except.ok (filters.map (reread (some next))), next + 1) = _
    rw [hMarked]

namespace Filter

/-- Filters with a comma between parentheses, with blanks and dots in a value,
with a word after `is`, and with lists. -/
def fewListed : List Filter := [
  { column := "a", operator := some .eq, value := .text " f(x,y).z" },
  { column := "", operator := some .is, value := .null },
  { column := "b c", operator := some .is, value := .text "not_null" },
  { column := "d", operator := some .in,
    value := .sequence [.text "p q", .text ""] },
  { column := "e", operator := some .in, value := .sequence [] }]

theorem isListed_fewListed : ∀ f ∈ fewListed, f.IsListed := by
  have hCall : SpelledInList .eq (.text " f(x,y).z") :=
    .text (by decide) (by decide) (by decide +kernel)
  have hWord : SpelledInList .is (.text "not_null") :=
    .noWord (by decide +kernel) (by decide +kernel)
  have hPair : SpelledInList .in (.sequence (["p q", ""].map .text)) :=
    .items (by decide) (by decide +kernel)
  have hNone : SpelledInList .in (.sequence (List.map .text [])) :=
    .items (by decide) nofun
  have hColumns : ∀ f ∈ fewListed, IsColumnText f.column := by decide +kernel
  simp only [fewListed, List.forall_mem_cons] at hColumns ⊢
  obtain ⟨hFirst, hSecond, hThird, hFourth, hFifth, -⟩ := hColumns
  exact ⟨⟨rfl, rfl, hFirst, _, rfl, hCall⟩, ⟨rfl, rfl, hSecond, _, rfl, .null⟩,
    ⟨rfl, rfl, hThird, _, rfl, hWord⟩, ⟨rfl, rfl, hFourth, _, rfl, hPair⟩,
    ⟨rfl, rfl, hFifth, _, rfl, hNone⟩, List.forall_mem_nil _⟩

end Filter

theorem lists_read_back_few :
    Filter.fewListed ≠ [] ∧ (∀ f ∈ Filter.fewListed, f.IsListed) ∧
      Filter.listText Filter.fewListed =
        "a.eq. f(x,y).z,.is.null,b c.is.not_null,d.in.(p q,),e.in.()" ∧
      (Group.read .and (Filter.listText Filter.fewListed)).run.run 3 =
        (.ok Filter.fewListed, 3) ∧
      (Group.read .or (Filter.listText Filter.fewListed)).run.run 3 =
        (.ok (Filter.fewListed.map fun f =>
          { f with isOr := true, group := 3 }), 4) :=
  ⟨by decide, Filter.isListed_fewListed, by decide +kernel,
    lists_read_back (by decide) Filter.isListed_fewListed 3⟩

end TableGate
