import TableGate.Proofs.Filter.Leaves

/-!
# Filters and the texts they are written as

`Filter.text` writes a filter that was read, and reading what it writes should
give the filter back. Reading drops blanks, parentheses and quotes and gives
words a meaning; writing puts parentheses around a list and nothing else. What
is dropped for good is dropped without loss except in a list after `in`: a
list whose only item is empty is written like a list without items, an item
that was kept from trimming by its quotes is written without them, and behind
a column that starts like a nested group the parenthesis around the list makes
the text one.

`Filter.IsSpelled` says that none of these three happens. It is computed from
the filter, and it is exactly the condition under which the text is read back.

## Main results

* `reads_back_iff`: the text of a filter that was read is read as this filter
  alone if and only if the filter is spelled by its text.
-/

namespace TableGate

open Text (isBlank trimChars)

/-- A text between parentheses has no blanks around it. -/
theorem Text.trimChars_parenthesized (inner : List Char) :
    trimChars ('(' :: inner ++ [')']) = '(' :: inner ++ [')'] := by
  refine trimChars_eq_self (fun c hc => ?_) fun c hc => ?_
  · obtain rfl : '(' = c := by simpa using hc
    decide
  · rw [List.getLast?_concat] at hc
    obtain rfl : ')' = c := by simpa using hc
    decide

/-- What names an operator is its token, case and outer blanks aside. -/
theorem Operator.lower_of_ofToken? {token : String} {operator : Operator}
    (h : ofToken? token = some operator) :
    Text.lower (Text.trim token) = operator.token := by
  unfold ofToken? at h
  have hFound := List.find?_some h
  exact (eq_of_beq hFound).symm

namespace Filter

/-! ## Lists after an operator -/

/-- The items between the commas of a text without parentheses. -/
def itemsBetween : List Char → List (List Char)
  | [] => []
  | inner => (Text.splitOn ',' inner).map fun item =>
      Text.stripChars (· == '\x22') (trimChars item)

/-- The items of a list after `in`, as they are read from its text. -/
def listed (value : List Char) : List (List Char) :=
  itemsBetween (withoutParens (trimChars value))

/-- A sequence of texts. -/
def sequenceOf (items : List (List Char)) : FilterValue :=
  .sequence (items.map fun item => .text (.ofList item))

theorem sequenceOf_injective {a b : List (List Char)}
    (h : sequenceOf a = sequenceOf b) : a = b := by
  rw [sequenceOf, sequenceOf, FilterValue.sequence.injEq] at h
  refine List.map_injective_iff.2 (fun x y hxy => ?_) h
  exact String.ofList_injective (Scalar.text.inj hxy)

theorem ofText_in (value : List Char) :
    FilterValue.ofText (some .in) (.ofList value) =
      sequenceOf (listed value) := by
  have hList : coerceIn (.ofList value) =
      .list (((listed value).map fun item =>
        Scalar.text (.ofList item)).map .scalar) := by
    rw [coerceIn, String.toList_ofList, listed]
    cases hInner : withoutParens (trimChars value) with
    | nil => rfl
    | cons c rest =>
        rw [itemsBetween, List.map_map, List.map_map]
        · rfl
        · simp
  rw [FilterValue.ofText]
  show (FilterValue.ofValue (coerceIn (.ofList value))).toOption.getD .null = _
  rw [hList, FilterValue.ofValue, FilterValue.ofItems, FilterValue.scalars?_map]
  rfl

theorem toList_intercalate_comma (items : List String) :
    (",".intercalate items).toList =
      Text.joinWith [','] (items.map String.toList) := by
  induction items with
  | nil => rfl
  | cons item others ih =>
      cases others with
      | nil => rw [String.intercalate_singleton]; rfl
      | cons next others =>
          rw [String.intercalate_cons_cons, String.toList_append,
            String.toList_append, ih]
          rfl

/-- A list is written between parentheses, with commas between its items. -/
theorem toList_valueText_sequence (items : List (List Char)) :
    (valueText (sequenceOf items)).toList =
      '(' :: Text.joinWith [','] items ++ [')'] := by
  have hItems : ((items.map fun item => Scalar.text (.ofList item)).map
      Scalar.display).map String.toList = items := by
    rw [List.map_map, List.map_map]
    conv_rhs => rw [← List.map_id items]
    refine List.map_congr_left fun item _ => ?_
    exact String.toList_ofList
  rw [sequenceOf, valueText, String.toList_append, String.toList_append,
    toList_intercalate_comma, hItems]
  rfl

/-- No item has a comma, and none has quotes around it. -/
theorem item_of_mem_itemsBetween {inner item : List Char}
    (h : item ∈ itemsBetween inner) :
    ',' ∉ item ∧ Text.stripChars (· == '\x22') item = item := by
  unfold itemsBetween at h
  split at h
  · exact absurd h List.not_mem_nil
  · obtain ⟨piece, hPiece, rfl⟩ := List.mem_map.1 h
    refine ⟨fun hComma => Text.notMem_of_mem_splitOn hPiece ?_,
      Text.stripChars_eq_self Text.head?_stripChars Text.getLast?_stripChars⟩
    exact Text.mem_of_mem_trimChars (Text.mem_of_mem_stripChars hComma)

/-- The parentheses around a written list are dropped again. -/
theorem listed_parenthesized (inner : List Char) :
    listed ('(' :: inner ++ [')']) = itemsBetween inner := by
  have hParens : withoutParens ('(' :: inner ++ [')']) = inner := by
    rw [withoutParens, if_pos ⟨rfl, List.getLast?_concat⟩]
    simp
  rw [listed, Text.trimChars_parenthesized, hParens]

/-- An item without quotes around it stays as it is when it is trimmed. -/
theorem coerced_eq_self_iff {item : List Char}
    (h : Text.stripChars (· == '\x22') item = item) :
    Text.stripChars (· == '\x22') (trimChars item) = item ↔
      trimChars item = item := by
  constructor
  · intro hItem
    refine Text.stripChars_eq_self_of_length ?_
    have hLength := Text.length_stripChars_le (· == '\x22') (trimChars item)
    rw [hItem] at hLength
    exact hLength
  · intro hTrim
    rw [hTrim, h]

/-- A written list is read back if it has not one empty item alone and its
items are trimmed. -/
theorem itemsBetween_joinWith_iff {items : List (List Char)}
    (h : ∀ item ∈ items, ',' ∉ item ∧
      Text.stripChars (· == '\x22') item = item) :
    itemsBetween (Text.joinWith [','] items) = items ↔
      items ≠ [[]] ∧ ∀ item ∈ items, trimChars item = item := by
  by_cases hEmpty : items = [[]]
  · subst hEmpty
    simp [Text.joinWith, itemsBetween]
  · cases items with
    | nil => simp [Text.joinWith, itemsBetween]
    | cons first others =>
        have hJoin : Text.joinWith [','] (first :: others) ≠ [] := by
          cases others with
          | nil =>
              rintro rfl
              exact hEmpty rfl
          | cons next others => simp [Text.joinWith]
        have hSplit : itemsBetween (Text.joinWith [','] (first :: others)) =
            (first :: others).map fun item =>
              Text.stripChars (· == '\x22') (trimChars item) := by
          rw [itemsBetween, Text.splitOn_joinWith (List.cons_ne_nil _ _)
            fun item hItem => (h item hItem).1]
          exact hJoin
        have hSelf : ((first :: others).map fun item =>
              Text.stripChars (· == '\x22') (trimChars item)) =
            first :: others ↔ ∀ item ∈ first :: others,
              Text.stripChars (· == '\x22') (trimChars item) = item := by
          conv_lhs => rhs; rw [← List.map_id (first :: others)]
          exact List.map_inj_left
        rw [hSplit, hSelf, and_iff_right hEmpty]
        exact forall₂_congr fun item hItem => coerced_eq_self_iff (h item hItem).2

/-! ## Values after the other operators -/

/-- After `is` the words for null and the truth values have a meaning. -/
theorem ofText_is (value : String) :
    FilterValue.ofText (some .is) value =
      if Text.lower (Text.trim value) = "null" then .null
      else if Text.lower (Text.trim value) = "true" then .bool true
      else if Text.lower (Text.trim value) = "false" then .bool false
      else .text value := by
  rw [FilterValue.ofText]
  show (FilterValue.ofValue (coerceIs value)).toOption.getD .null = _
  unfold coerceIs
  dsimp only
  split_ifs
  all_goals rfl

/-- A text whose small form is a word without parentheses and commas has
none. -/
theorem isMark_eq_false_of_lower {cs : List Char} {word : String}
    (hLower : Text.lower (Text.trim (.ofList cs)) = word)
    (hWord : ∀ c ∈ word.toList, Group.isMark c = false) :
    ∀ c ∈ cs, Group.isMark c = false := by
  intro c hc
  rw [Bool.eq_false_iff]
  intro hMark
  have hKept : Text.isBlank c = false ∧ c.toNat < 128 ∧ c.toLower = c := by
    simp only [Group.isMark, Bool.or_eq_true, beq_iff_eq] at hMark
    rcases hMark with (rfl | rfl) | rfl
    · decide
    · decide
    · decide
  have hTrim : c ∈ trimChars cs := by
    obtain ⟨before, after, hText, hBefore, hAfter⟩ :=
      Text.exists_eq_trimChars cs
    rw [hText] at hc
    rcases List.mem_append.1 hc with hc | hc
    · rcases List.mem_append.1 hc with hc | hc
      · exact absurd (hBefore c hc) (by simp [hKept.1])
      · exact hc
    · exact absurd (hAfter c hc) (by simp [hKept.1])
  have hSmall := Text.toLower_mem_lowerChars hKept.2.1 hTrim
  rw [hKept.2.2] at hSmall
  rw [Text.lower, Text.trim, String.toList_ofList, String.toList_ofList] at hLower
  have hIn : c ∈ word.toList := by
    rw [← hLower, String.toList_ofList]
    exact hSmall
  rw [hWord c hIn] at hMark
  exact absurd hMark Bool.false_ne_true

/-- The words that are written for null and the truth values. -/
def isWords : List String := ["null", "true", "false"]

/-- After an operator other than `in` a value is written as it was read, but
for the words, which stand for texts without parentheses and commas. -/
theorem valueText_ofText {operator : Operator} (h : operator ≠ .in)
    (value : List Char) :
    (valueText (FilterValue.ofText (some operator) (.ofList value))).toList =
        value ∨
      valueText (FilterValue.ofText (some operator) (.ofList value)) ∈ isWords ∧
        ∀ c ∈ value, Group.isMark c = false := by
  by_cases hIs : operator = .is
  · subst hIs
    rw [ofText_is]
    split_ifs with hNull hTrue hFalse
    · exact Or.inr ⟨by decide, isMark_eq_false_of_lower hNull
        (Group.isMark_eq_false_of_any (by decide))⟩
    · exact Or.inr ⟨by decide, isMark_eq_false_of_lower hTrue
        (Group.isMark_eq_false_of_any (by decide))⟩
    · exact Or.inr ⟨by decide, isMark_eq_false_of_lower hFalse
        (Group.isMark_eq_false_of_any (by decide))⟩
    · exact Or.inl String.toList_ofList
  · left
    have hText : FilterValue.ofText (some operator) (.ofList value) =
        .text (.ofList value) := by
      cases operator with
      | is => exact absurd rfl hIs
      | «in» => exact absurd rfl h
      | _ => rfl
    rw [hText]
    exact String.toList_ofList

theorem ofText_valueText {operator : Operator} (h : operator ≠ .in)
    (value : String) :
    FilterValue.ofText (some operator)
        (valueText (FilterValue.ofText (some operator) value)) =
      FilterValue.ofText (some operator) value := by
  by_cases hIs : operator = .is
  · subst hIs
    rw [ofText_is value]
    split_ifs with hNull hTrue hFalse
    · decide +kernel
    · decide +kernel
    · decide +kernel
    · have hShown : valueText (.text value) = value := rfl
      rw [hShown, ofText_is, if_neg hNull, if_neg hTrue, if_neg hFalse]
  · cases operator with
    | is => exact absurd rfl hIs
    | «in» => exact absurd rfl h
    | _ => rfl

/-! ## The text of a filter is one segment -/

theorem sameDepth_stripChars {p : Char → Bool}
    (h : ∀ c, p c = true → Group.isMark c = false) (cs : List Char) :
    Group.SameDepth cs (Text.stripChars p cs) := by
  obtain ⟨before, after, hText, hBefore, hAfter⟩ :=
    Text.exists_eq_stripChars p cs
  have hLeft : Group.SameDepth before [] :=
    .of_plain fun c hc => h c (hBefore c hc)
  have hRight : Group.SameDepth after [] :=
    .of_plain fun c hc => h c (hAfter c hc)
  have hSame := (hLeft.append (.refl (Text.stripChars p cs))).append hRight
  rw [← hText, List.nil_append, List.append_nil] at hSame
  exact hSame

theorem sameDepth_trimChars (cs : List Char) :
    Group.SameDepth cs (trimChars cs) := by
  refine sameDepth_stripChars (fun c hc => ?_) cs
  rw [Bool.eq_false_iff]
  intro hMark
  simp only [Group.isMark, Bool.or_eq_true, beq_iff_eq] at hMark
  rcases hMark with (rfl | rfl) | rfl
  · exact absurd hc (by decide)
  · exact absurd hc (by decide)
  · exact absurd hc (by decide)

/-- Trimming the items of a list and dropping their quotes keeps all its
parentheses and commas. -/
theorem sameDepth_itemsBetween (inner : List Char) :
    Group.SameDepth inner (Text.joinWith [','] (itemsBetween inner)) := by
  unfold itemsBetween
  split
  · exact .refl []
  · have hItem : ∀ item ∈ Text.splitOn ',' inner, Group.SameDepth item
        (Text.stripChars (· == '\x22') (trimChars item)) := fun item _ =>
      (sameDepth_trimChars item).trans (sameDepth_stripChars (fun c hc => by
        rw [eq_of_beq hc]
        decide) (trimChars item))
    have hSame := Group.SameDepth.joinWith hItem
    rw [Text.joinWith_splitOn] at hSame
    exact hSame

/-- A list that closes what is open before it does so when it is written. -/
theorem depthAfter?_listed {depth after : Nat} {value : List Char}
    (h : Group.depthAfter? depth value = some after) :
    Group.depthAfter? depth
        ('(' :: Text.joinWith [','] (listed value) ++ [')']) = some after := by
  rw [sameDepth_trimChars value depth] at h
  unfold listed withoutParens
  split
  · next hParens =>
      obtain ⟨inner, hInner⟩ : ∃ inner,
          trimChars value = '(' :: inner ++ [')'] := by
        obtain ⟨rest, hRest⟩ := List.head?_eq_some_iff.1 hParens.1
        have hLast := hParens.2
        rw [hRest] at hLast ⊢
        rcases List.eq_nil_or_concat rest with rfl | ⟨front, last, rfl⟩
        · exact absurd hLast (by decide)
        · rw [List.concat_eq_append, ← List.cons_append,
            List.getLast?_concat] at hLast
          rw [List.concat_eq_append, Option.some.inj hLast]
          exact ⟨front, rfl⟩
      have hDrop : ((trimChars value).drop 1).dropLast = inner := by
        rw [hInner]
        simp
      have hSame : Group.SameDepth (trimChars value)
          ('(' :: Text.joinWith [','] (itemsBetween inner) ++ [')']) := by
        rw [hInner]
        exact (Group.SameDepth.append (.refl ['('])
          (sameDepth_itemsBetween inner)).append (.refl [')'])
      rw [hDrop, ← hSame depth]
      exact h
  · rw [sameDepth_itemsBetween (trimChars value) depth] at h
    exact Group.depthAfter?_parenthesized h

variable {connective : Connective} {group : Int} {segment : List Char}
  {f : Filter} {operator : Operator}

theorem toList_text (h : f.operator = some operator) :
    f.text.toList = f.column.toList ++
      '.' :: (operator.token.toList ++ '.' :: (valueText f.value).toList) := by
  rw [text, h]
  simp

/-- What a filter is written as ends like the segment it was read from, with
the parenthesis of a list, or with the letter of a word. -/
theorem getLast?_dot_append (before rest : List Char) :
    (before ++ '.' :: rest).getLast? = ('.' :: rest).getLast? := by
  rw [List.getLast?_append]
  cases hLast : ('.' :: rest).getLast? with
  | none => simp at hLast
  | some c => rfl

end Filter

namespace Group

open TableGate.Filter (valueText listed itemsBetween sequenceOf isWords)

variable {connective : Connective} {group : Int} {segment : List Char}
  {f : Filter} {operator : Operator}

/-- The value of a filter as it is written, after what the value was in the
segment. -/
theorem Parts.toList_valueText {text : List Char} (parts : Parts text f)
    (h : f.operator = some operator) :
    (operator = .in ∧ (valueText f.value).toList =
        '(' :: Text.joinWith [','] (listed parts.value) ++ [')']) ∨
      (valueText f.value).toList = parts.value ∨
        valueText f.value ∈ isWords ∧
          ∀ c ∈ parts.value, isMark c = false := by
  have hValue := parts.value_eq
  rw [h] at hValue
  by_cases hIn : operator = .in
  · subst hIn
    rw [hValue, Filter.ofText_in, Filter.toList_valueText_sequence]
    exact Or.inl ⟨rfl, rfl⟩
  · rw [hValue]
    exact Or.inr (Filter.valueText_ofText hIn parts.value)

theorem Parts.toList_column {text : List Char} (parts : Parts text f) :
    f.column.toList = trimChars parts.column := by
  rw [parts.column_eq, String.toList_ofList]

/-- A segment starts with the column of its filter: blanks before the column
are blanks before the segment. -/
theorem Parts.exists_column_eq (parts : Parts (trimChars segment) f) :
    ∃ blanks, parts.column = f.column.toList ++ blanks := by
  obtain ⟨before, after, hColumn, hBefore, -⟩ :=
    Text.exists_eq_trimChars parts.column
  have hHead : ∀ c ∈ (trimChars segment).head?, isBlank c = false :=
    Text.head?_stripChars
  cases before with
  | nil => exact ⟨after, by rw [parts.toList_column]; exact hColumn⟩
  | cons c before =>
      rw [parts.text_eq, hColumn] at hHead
      have hBlank := hBefore c (by simp)
      rw [hHead c rfl] at hBlank
      exact absurd hBlank Bool.false_ne_true

/-- The column of a filter has no dot. -/
theorem Parts.dot_notMem_column {text : List Char} (parts : Parts text f) :
    '.' ∉ f.column.toList := by
  rw [parts.toList_column]
  exact fun h => parts.column_plain (Text.mem_of_mem_trimChars h)

/-- The text of a filter is one segment, as the text it was read from. -/
theorem Leaf.closed_text (h : Leaf connective group segment f)
    (hKnown : f.operator = some operator) :
    depthAfter? 0 f.text.toList = some 0 := by
  obtain ⟨parts⟩ := h.exists_parts
  have hColumn : SameDepth parts.column f.column.toList := by
    rw [parts.column_eq, String.toList_ofList]
    exact Filter.sameDepth_trimChars parts.column
  have hToken : SameDepth parts.token operator.token.toList := by
    have hName := Operator.lower_of_ofToken?
      (parts.operator_eq.symm.trans hKnown)
    have hNone : operator.token.toList.any isMark = false := by
      cases operator <;> decide
    have hPlain := isMark_eq_false_of_any hNone
    exact (SameDepth.of_plain (Filter.isMark_eq_false_of_lower hName
      hPlain)).trans (SameDepth.of_plain hPlain).symm
  have hStart := hColumn.append ((SameDepth.refl ['.']).append
    (hToken.append (.refl ['.'])))
  have hClosed := h.closed
  rw [Filter.sameDepth_trimChars segment 0, parts.text_eq] at hClosed
  rw [Filter.toList_text hKnown]
  have hSplit : ∀ a b c : List Char, a ++ '.' :: (b ++ '.' :: c) =
      (a ++ (['.'] ++ (b ++ ['.']))) ++ c := by
    intro a b c
    simp
  rw [hSplit, depthAfter?_append] at hClosed ⊢
  rw [← hStart 0]
  obtain ⟨depth, hDepth, hValue⟩ := Option.bind_eq_some_iff.1 hClosed
  rw [hDepth, Option.bind_some]
  rcases parts.toList_valueText hKnown with ⟨-, hList⟩ | hSame | ⟨hWord, hPlain⟩
  · rw [hList]
    exact Filter.depthAfter?_listed hValue
  · rw [hSame]
    exact hValue
  · rw [SameDepth.of_plain hPlain] at hValue
    have hNone : (valueText f.value).toList.any isMark = false := by
      simp only [isWords, List.mem_cons, List.not_mem_nil, or_false] at hWord
      rcases hWord with hWord | hWord | hWord
      · rw [hWord]
        decide
      · rw [hWord]
        decide
      · rw [hWord]
        decide
    rw [SameDepth.of_plain (isMark_eq_false_of_any hNone)]
    exact hValue

/-- The text of a filter has no blanks around it. -/
theorem Leaf.trimChars_text (h : Leaf connective group segment f)
    (hKnown : f.operator = some operator) :
    trimChars f.text.toList = f.text.toList := by
  obtain ⟨parts⟩ := h.exists_parts
  rw [Filter.toList_text hKnown]
  refine Text.trimChars_eq_self (fun c hc => ?_) fun c hc => ?_
  · cases hColumn : f.column.toList with
    | nil =>
        rw [hColumn] at hc
        obtain rfl : '.' = c := by simpa using hc
        decide
    | cons d rest =>
        rw [hColumn] at hc
        obtain rfl : d = c := by simpa using hc
        have hHead : ∀ e ∈ (trimChars parts.column).head?, isBlank e = false :=
          Text.head?_stripChars
        rw [← parts.toList_column, hColumn] at hHead
        exact hHead d rfl
  · rw [← List.cons_append, ← List.append_assoc,
      Filter.getLast?_dot_append] at hc
    rcases parts.toList_valueText hKnown with ⟨-, hList⟩ | hSame | ⟨hWord, -⟩
    · rw [hList, ← List.cons_append, List.getLast?_concat] at hc
      obtain rfl : ')' = c := by simpa using hc
      decide
    · have hLast : ∀ e ∈ (trimChars segment).getLast?, isBlank e = false :=
        Text.getLast?_stripChars
      rw [parts.text_eq, ← List.cons_append, ← List.append_assoc,
        Filter.getLast?_dot_append, ← hSame] at hLast
      exact hLast c hc
    · simp only [isWords, List.mem_cons, List.not_mem_nil, or_false] at hWord
      rcases hWord with hWord | hWord | hWord
      · rw [hWord] at hc
        obtain rfl : 'l' = c := by simpa using hc
        decide
      · rw [hWord] at hc
        obtain rfl : 'e' = c := by simpa using hc
        decide
      · rw [hWord] at hc
        obtain rfl : 'e' = c := by simpa using hc
        decide

/-- The text of a filter is read as a nested group only behind a column that
opens one, with a list between parentheses. -/
theorem Leaf.nested?_text (h : Leaf connective group segment f)
    (hKnown : f.operator = some operator)
    (hColumn : operator = .in → opensGroup f.column.toList = false) :
    nested? f.text.toList = none := by
  obtain ⟨parts⟩ := h.exists_parts
  rw [nested?_eq_none_iff, h.trimChars_text hKnown, Filter.toList_text hKnown,
    opensGroup_dot, ← List.cons_append, ← List.append_assoc,
    Filter.getLast?_dot_append]
  intro hOpens
  rcases parts.toList_valueText hKnown with ⟨hIn, -⟩ | hSame | ⟨hWord, -⟩
  · rw [hColumn hIn] at hOpens
    exact absurd hOpens Bool.false_ne_true
  · -- the segment starts and ends the same way
    obtain ⟨blanks, hStart⟩ := parts.exists_column_eq
    have hPlain := nested?_eq_none_iff.1 h.plain
    rw [parts.text_eq, opensGroup_dot, ← List.cons_append, ← List.append_assoc,
      Filter.getLast?_dot_append, hStart] at hPlain
    rw [hSame]
    exact hPlain (opensGroup_append hOpens blanks)
  · simp only [isWords, List.mem_cons, List.not_mem_nil, or_false] at hWord
    rcases hWord with hWord | hWord | hWord
    · rw [hWord]; decide
    · rw [hWord]; decide
    · rw [hWord]; decide

/-- A text that is one segment is read as this segment. -/
theorem run_read_segment {text : String} {part : List Filter}
    {next after : Int} (hDot : '.' ∈ text.toList)
    (hClosed : depthAfter? 0 text.toList = some 0) :
    (read .and text).run.run next = (.ok part, after) ↔
      (readSegment (readWithin text.toList.length) .and 0
        text.toList).run.run next = (.ok part, after) := by
  have hSome : text.toList.all isBlank = false := by
    rw [Bool.eq_false_iff]
    intro hAll
    exact absurd (List.all_eq_true.1 hAll '.' hDot) (by decide)
  have hOpen : (openNumber .and none).run.run next = (.ok 0, next) := rfl
  rw [read, readWithin_succ _ _ _ hSome, splitTopLevel_eq_self hClosed,
    Numbering.run_bind_ok (Numbering.run_lift _ next),
    Numbering.run_bind_ok hOpen]
  constructor
  · intro h
    obtain ⟨parts, middle, hParts, hEnd⟩ := Numbering.run_bind_eq_ok.1 h
    rw [List.mapM_cons] at hParts
    obtain ⟨first, _, hFirst, hRest⟩ := Numbering.run_bind_eq_ok.1 hParts
    cases hRest
    cases hEnd
    rw [hFirst]
    simp
  · intro h
    have hParts : ([text.toList].mapM (readSegment
        (readWithin text.toList.length) .and 0)).run.run next =
          (.ok [part], after) :=
      Numbering.run_mapM_cons h (Numbering.run_pure [] after)
    rw [Numbering.run_bind_ok hParts, Numbering.run_pure]
    simp

/-- A text that is a leaf of its own is read as its parts say. -/
theorem run_read_alone {text : String} {column token value : List Char}
    (hText : text.toList = column ++ '.' :: (token ++ '.' :: value))
    (hColumn : '.' ∉ column) (hToken : '.' ∉ token)
    (hClosed : depthAfter? 0 text.toList = some 0)
    (hTrim : trimChars text.toList = text.toList)
    (hPlain : nested? text.toList = none) (next : Int) :
    (read .and text).run.run next = (.ok [{
      column := Text.trim (.ofList column)
      operator := Operator.ofToken? (.ofList token)
      value := FilterValue.ofText (Operator.ofToken? (.ofList token))
        (.ofList value) }], next) := by
  have hCut : Filter.cutTriple? text.toList = some (column, token, value) := by
    have hFirst : Text.cut? '.' text.toList =
        some (column, token ++ '.' :: value) :=
      Text.cut?_eq_some_iff.2 ⟨hText, hColumn⟩
    have hSecond : Text.cut? '.' (token ++ '.' :: value) =
        some (token, value) := Text.cut?_eq_some_iff.2 ⟨rfl, hToken⟩
    rw [Filter.cutTriple?, hTrim, hFirst]
    show (Text.cut? '.' (token ++ '.' :: value) >>= _) = _
    rw [hSecond]
    rfl
  have hFilter : readFilter .and 0 text.toList = .ok {
      column := Text.trim (.ofList column)
      operator := Operator.ofToken? (.ofList token)
      value := FilterValue.ofText (Operator.ofToken? (.ofList token))
        (.ofList value) } := by
    rw [readFilter, hCut]
    exact Filter.build_text _ _ _ _ _
  rw [run_read_segment (by simp [hText]) hClosed, readSegment, hPlain]
  simp only [hFilter]
  rfl

/-- Behind a column that opens a group, a list between parentheses is read as
the end of the group, and some filter of the group has a shorter column. -/
theorem Leaf.not_reads_back (h : Leaf connective group segment f)
    (hKnown : f.operator = some .in)
    (hOpens : opensGroup f.column.toList = true) {next after : Int}
    {g : Filter} (hRead : (read .and f.text).run.run next = (.ok [g], after)) :
    g.column ≠ f.column := by
  obtain ⟨parts⟩ := h.exists_parts
  have hTrim := h.trimChars_text hKnown
  have hText := Filter.toList_text hKnown
  have hNested : nested? f.text.toList ≠ none := by
    have hValue := parts.value_eq
    rw [hKnown, Filter.ofText_in] at hValue
    rw [Ne, nested?_eq_none_iff, hTrim, hText, opensGroup_dot,
      ← List.cons_append, ← List.append_assoc, Filter.getLast?_dot_append,
      hValue, Filter.toList_valueText_sequence, ← List.cons_append,
      List.getLast?_concat]
    exact fun hNot => hNot hOpens rfl
  rw [run_read_segment (by simp [hText]) (h.closed_text hKnown)] at hRead
  rcases readSegment_eq_ok hRead with ⟨_, hNone, -, -⟩ |
    ⟨inside, given, inner, hGroup, hInside⟩
  · exact absurd hNone hNested
  · obtain ⟨keyword, hAround⟩ := exists_around_of_nested? hGroup
    obtain ⟨before, rest, rfl, hDot, hShort, hFuel⟩ :=
      exists_dot_inside hAround hText parts.dot_notMem_column
    obtain ⟨f', hMem, hLength⟩ := exists_short_column hFuel hDot hInside
    rw [List.mem_singleton.1 hMem] at hLength
    rintro hSame
    rw [hSame, ← String.length_toList] at hLength
    omega

end Group

/-! ## Reading a filter back -/

namespace Filter

/-- A filter that its text spells out. Only a list after `in` can be lost: to
a column that opens a group, as one empty item, or with blanks that quotes
kept. -/
def IsSpelled (f : Filter) : Prop :=
  f.operator = some .in →
    Group.opensGroup f.column.toList = false ∧
    f.value ≠ .sequence [.text ""] ∧
    ∀ items, f.value = .sequence items →
      ∀ item ∈ items, Text.trim item.display = item.display

/-- A list that was read is spelled out by its column and its items. -/
theorem isSpelled_iff {f : Filter} {items : List (List Char)}
    (hKnown : f.operator = some .in) (hValue : f.value = sequenceOf items) :
    f.IsSpelled ↔ Group.opensGroup f.column.toList = false ∧
      items ≠ [[]] ∧ ∀ item ∈ items, trimChars item = item := by
  have hOne : f.value = .sequence [.text ""] ↔ items = [[]] := by
    have hEmpty : sequenceOf [[]] = .sequence [.text ""] := rfl
    rw [hValue, ← hEmpty]
    exact ⟨sequenceOf_injective, congrArg sequenceOf⟩
  have hTrim : ∀ item : List Char, Text.trim (.ofList item) = .ofList item ↔
      trimChars item = item := by
    intro item
    rw [Text.trim, String.toList_ofList]
    exact ⟨fun h => String.ofList_injective h, congrArg String.ofList⟩
  have hItems : (∀ scalars, f.value = .sequence scalars →
      ∀ item ∈ scalars, Text.trim item.display = item.display) ↔
        ∀ item ∈ items, trimChars item = item := by
    constructor
    · intro h item hItem
      exact (hTrim item).1 (h _ hValue (.text (.ofList item))
        (List.mem_map_of_mem hItem))
    · intro h scalars hScalars scalar hScalar
      rw [hValue, sequenceOf, FilterValue.sequence.injEq] at hScalars
      rw [← hScalars] at hScalar
      obtain ⟨item, hItem, rfl⟩ := List.mem_map.1 hScalar
      exact (hTrim item).2 (h item hItem)
  rw [IsSpelled, forall_prop_of_true hKnown, Ne, hOne, hItems]

end Filter

open TableGate.Filter TableGate.Group in
/-- The text of a filter that was read is read as this filter alone, with the
same column, operator and value, if and only if the filter is spelled out. -/
theorem reads_back_iff {connective : Connective} {s : String}
    {number : Option Int} {start last : Int} {filters : List Filter}
    (h : (Group.read connective s number).run.run start = (.ok filters, last))
    {f : Filter} (hf : f ∈ filters) (hKnown : f.operator.isSome = true)
    (next : Int) :
    (∃ g after, (Group.read .and f.text).run.run next = (.ok [g], after) ∧
      g.column = f.column ∧ g.operator = f.operator ∧ g.value = f.value) ↔
    f.IsSpelled := by
  obtain ⟨operator, hOperator⟩ := Option.isSome_iff_exists.1 hKnown
  obtain ⟨_, _, segment, hLeaf⟩ := Leaf.exists_of_mem h hf
  obtain ⟨parts⟩ := hLeaf.exists_parts
  have hValue := parts.value_eq
  rw [hOperator] at hValue
  have hName : Text.trim (.ofList f.column.toList) = f.column := by
    rw [Text.trim, String.toList_ofList, parts.toList_column,
      Text.trimChars_trimChars, ← parts.column_eq]
  have hToken : '.' ∉ operator.token.toList := by
    cases operator <;> decide
  have hRead : Group.nested? f.text.toList = none →
      (Group.read .and f.text).run.run next = (.ok [{
        column := f.column
        operator := some operator
        value := FilterValue.ofText (some operator) (valueText f.value) }],
        next) := by
    intro hPlain
    have hAlone := run_read_alone (toList_text hOperator)
      parts.dot_notMem_column hToken (hLeaf.closed_text hOperator)
      (hLeaf.trimChars_text hOperator) hPlain next
    rw [hName, String.ofList_toList, String.ofList_toList,
      Operator.ofToken?_token] at hAlone
    exact hAlone
  by_cases hIn : operator = .in
  · subst hIn
    rw [ofText_in] at hValue
    rw [isSpelled_iff hOperator hValue]
    cases hOpens : opensGroup f.column.toList with
    | true =>
        constructor
        · rintro ⟨g, after, hAgain, hColumn, -, -⟩
          exact absurd hColumn (hLeaf.not_reads_back hOperator hOpens hAgain)
        · exact fun hSpelled => absurd hSpelled.1 (by simp)
    | false =>
        have hItems : ∀ item ∈ listed parts.value, ',' ∉ item ∧
            Text.stripChars (· == '\x22') item = item :=
          fun item hItem => item_of_mem_itemsBetween hItem
        have hShown : valueText f.value = .ofList ('(' ::
            Text.joinWith [','] (listed parts.value) ++ [')']) := by
          rw [hValue, ← toList_valueText_sequence, String.ofList_toList]
        have hAgain : FilterValue.ofText (some .in) (valueText f.value) =
            sequenceOf (itemsBetween
              (Text.joinWith [','] (listed parts.value))) := by
          rw [hShown, ofText_in, listed_parenthesized]
        have hBack := hRead (hLeaf.nested?_text hOperator fun _ => hOpens)
        rw [hAgain] at hBack
        constructor
        · rintro ⟨g, after, hOther, -, -, hSame⟩
          rw [hBack] at hOther
          cases hOther
          refine ⟨rfl, (itemsBetween_joinWith_iff hItems).1 ?_⟩
          exact sequenceOf_injective (hSame.trans hValue)
        · rintro ⟨-, hSpelled⟩
          refine ⟨_, next, hBack, rfl, hOperator.symm, ?_⟩
          rw [hValue, (itemsBetween_joinWith_iff hItems).2 hSpelled]
  · have hPlain := hLeaf.nested?_text hOperator fun h => absurd h hIn
    have hSame := ofText_valueText hIn (.ofList parts.value)
    rw [← hValue] at hSame
    constructor
    · intro _ hIs
      rw [hOperator] at hIs
      exact absurd (Option.some.inj hIs) hIn
    · intro _
      exact ⟨_, next, hRead hPlain, rfl, hOperator.symm, hSame⟩

/-- A list whose blanks and quotes are dropped is read back from its text. -/
theorem reads_back_list :
    ∃ f : Filter, (Group.read .and "a.in.( x ,\"y\")").run.run 1 =
        (.ok [f], 1) ∧ f.operator.isSome = true ∧ f.text = "a.in.(x,y)" ∧
      f.IsSpelled ∧
      ∃ g after, (Group.read .and f.text).run.run 5 = (.ok [g], after) ∧
        g.column = f.column ∧ g.operator = f.operator ∧ g.value = f.value := by
  let f : Filter := {
    column := "a"
    operator := some .in
    value := .sequence [.text "x", .text "y"] }
  have hRead : (Group.read .and "a.in.( x ,\"y\")").run.run 1 = (.ok [f], 1) :=
    Prod.ext (Result.toOption_eq_some.1 (by decide +kernel))
      (by decide +kernel)
  have hSpelled : f.IsSpelled := by
    refine fun _ => ⟨by decide +kernel, by decide, fun items hItems => ?_⟩
    rw [← FilterValue.sequence.inj hItems]
    decide +kernel
  exact ⟨f, hRead, rfl, by decide +kernel, hSpelled,
    (reads_back_iff hRead (by simp) rfl 5).2 hSpelled⟩

namespace Filter

/-- A list of one empty item, of an item that quotes kept from trimming, and
of a column that looks like the start of a group. -/
def emptyItem : Filter where
  column := "a"
  operator := some .in
  value := .sequence [.text ""]
def paddedItem : Filter := { emptyItem with value := .sequence [.text " x"] }
def openingColumn : Filter where
  column := "or(x)"
  operator := some .in
  value := .sequence [.text "1"]

end Filter

/-- Each of the three is read from a text and written as one that it is not
read from: the item is gone, its blank is gone, and the column with its list
is a group. -/
theorem texts_not_read_back :
    (Group.read .and "a.in.(\"\")").run.run 1 =
        (.ok [Filter.emptyItem], 1) ∧
      (Group.read .and "a.in.(\" x\")").run.run 1 =
        (.ok [Filter.paddedItem], 1) ∧
      (Group.read .and "or(x).in.1").run.run 1 =
        (.ok [Filter.openingColumn], 1) ∧
      ∀ f ∈ [Filter.emptyItem, Filter.paddedItem, Filter.openingColumn],
        ¬∃ g after, (Group.read .and f.text).run.run 1 = (.ok [g], after) ∧
          g.column = f.column ∧ g.operator = f.operator ∧
          g.value = f.value := by
  have hOther : ∀ f ∈
      [Filter.emptyItem, Filter.paddedItem, Filter.openingColumn],
      ((Group.read .and f.text).run.run 1).1.toOption.map
        (List.map Filter.value) ≠ some [f.value] := by
    decide +kernel
  refine ⟨Prod.ext (Result.toOption_eq_some.1 (by decide +kernel))
      (by decide +kernel),
    Prod.ext (Result.toOption_eq_some.1 (by decide +kernel))
      (by decide +kernel),
    Prod.ext (Result.toOption_eq_some.1 (by decide +kernel))
      (by decide +kernel), ?_⟩
  rintro f hf ⟨g, after, hRead, -, -, hValue⟩
  refine hOther f hf ?_
  rw [hRead, ← hValue]
  rfl

end TableGate
