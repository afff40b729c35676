import Mathlib.Tactic.SplitIfs
import TableGate.Proofs.Expression.Basic
import TableGate.Proofs.Numbering
import TableGate.Proofs.Text

/-!
# Reading the text of an expression

The reader does not build the expression a group text stands for. It flattens
it into a list of filters in which only group numbers tell what belongs to one
disjunction. `numbered` says what that list is: a triple gets the number of
the group it stands in, an `or` group inside an `or` group keeps the number of
the group around it, any other `or` group gets a fresh one, and an `and` group
leaves nothing behind.

## Main results

* `run_read`: reading the text of a group gives the filters of its expression
  and the number that is next afterwards.
-/

namespace TableGate

open Text (isBlank trimChars)

/-! ## The texts of triples and keywords -/

namespace Triple

theorem head?_text (t : Triple) : ∀ c ∈ t.text.head?, isBlank c = false := by
  intro c hc
  cases hColumn : t.column with
  | nil =>
      rw [text, hColumn] at hc
      obtain rfl : '.' = c := by simpa using hc
      decide
  | cons d rest =>
      rw [text, hColumn] at hc
      obtain rfl : d = c := by simpa using hc
      have hTrimmed := t.column_trimmed
      rw [hColumn] at hTrimmed
      have hEnds : ∀ e ∈ (trimChars (d :: rest)).head?, isBlank e = false :=
        Text.head?_stripChars
      rw [hTrimmed] at hEnds
      exact hEnds d rfl

theorem getLast?_text (t : Triple) :
    ∀ c ∈ t.text.getLast?, isBlank c = false := by
  intro c hc
  cases hValue : t.value with
  | nil =>
      rw [text, hValue, ← List.cons_append, ← List.append_assoc,
        List.getLast?_concat] at hc
      obtain rfl : '.' = c := by simpa using hc
      decide
  | cons d rest =>
      refine t.value_end c ?_
      rw [hValue]
      rw [text, hValue] at hc
      simpa [List.getLast?_cons] using hc

theorem trimChars_text (before after : Blanks) (t : Triple) :
    trimChars (before.chars ++ t.text ++ after.chars) = t.text :=
  Text.trimChars_between before.blank after.blank t.head?_text
    t.getLast?_text

/-- The two cuts of a triple fall on the dots its writer put there. -/
theorem cutTriple?_text (before after : Blanks) (t : Triple) :
    Filter.cutTriple? (before.chars ++ t.text ++ after.chars) =
      some (t.column, t.token, t.value) := by
  have hColumn : Text.cut? '.' t.text =
      some (t.column, t.token ++ '.' :: t.value) :=
    Text.cut?_eq_some_iff.2 ⟨rfl, fun h => (t.column_plain '.' h).1 rfl⟩
  have hToken : Text.cut? '.' (t.token ++ '.' :: t.value) =
      some (t.token, t.value) :=
    Text.cut?_eq_some_iff.2 ⟨rfl, fun h => (t.token_plain '.' h).1 rfl⟩
  rw [Filter.cutTriple?, t.trimChars_text, hColumn]
  show (Text.cut? '.' (t.token ++ '.' :: t.value) >>= _) = _
  rw [hToken]
  rfl

/-- A triple has a dot before its first parenthesis, so it starts like no
nested group. -/
theorem inside?_text (before after : Blanks) (t : Triple)
    (connective : Connective) :
    Group.inside? connective (before.chars ++ t.text ++ after.chars) =
      none := by
  obtain ⟨small, next, hLower, hMem⟩ :=
    Text.lowerChars_append t.column ('.' :: (t.token ++ '.' :: t.value))
  have hDot : Text.lowerAfter next ('.' :: (t.token ++ '.' :: t.value)) =
      '.' :: Text.lowerAfter
        (if Text.isCaseIgnorable '.' then next else Text.isCased '.')
        (t.token ++ '.' :: t.value) :=
    Text.lowerAfter_cons_ascii (by decide) next _
  have hStart : Text.startsWith (Text.lowerChars t.text)
      connective.opening = false := by
    rw [Text.startsWith, Bool.eq_false_iff]
    intro hOpening
    have hPrefix := List.isPrefixOf_iff_prefix.1 hOpening
    have hText : Text.lowerChars t.text = small ++ '.' ::
        Text.lowerAfter
          (if Text.isCaseIgnorable '.' then next else Text.isCased '.')
          (t.token ++ '.' :: t.value) := hLower.trans (by rw [hDot])
    have hOther : small ++ ['.'] <+: Text.lowerChars t.text := by
      rw [hText]
      exact ⟨_, List.append_assoc _ _ _⟩
    rcases List.prefix_or_prefix_of_prefix hPrefix hOther with hLeft | hRight
    · have hParen : '(' ∈ small ++ ['.'] :=
        hLeft.subset (by cases connective <;> decide)
      rcases List.mem_append.1 hParen with hSmall | hLast
      · exact (t.column_plain '(' (hMem '(' hSmall (by decide)
          (by decide))).2.2.1 rfl
      · exact absurd hLast (by decide)
    · have hDotIn : '.' ∈ connective.opening := hRight.subset (by simp)
      revert hDotIn
      cases connective <;> decide
  rw [Group.inside?, t.trimChars_text]
  simp only [hStart, Bool.false_and, Bool.false_eq_true, if_false]

theorem nested?_text (before after : Blanks) (t : Triple) :
    Group.nested? (before.chars ++ t.text ++ after.chars) = none := by
  rw [Group.nested?, t.inside?_text before after .or,
    t.inside?_text before after .and]
  rfl

end Triple

namespace Keyword

variable {connective : Connective}

/-- A keyword is a word and the parenthesis it opens. -/
theorem letters_eq (keyword : Keyword connective) :
    ∃ word, keyword.letters = word ++ ['('] ∧
      ∀ c ∈ word, c ≠ ',' ∧ c ≠ '(' ∧ c ≠ ')' := by
  obtain ⟨small, hSmall, hPlain⟩ : ∃ small,
      connective.opening = small ++ ['('] ∧
        ∀ c ∈ small, c ≠ ',' ∧ c ≠ '(' ∧ c ≠ ')' := by
    cases connective with
    | or => exact ⟨['o', 'r'], rfl, by simp⟩
    | and => exact ⟨['a', 'n', 'd'], rfl, by simp⟩
  have hMap := keyword.small
  rw [hSmall] at hMap
  obtain ⟨word, paren, hLetters, hWord, hParen⟩ := List.map_eq_append_iff.1 hMap
  obtain ⟨p, hOne, hLower⟩ : ∃ p, paren = [p] ∧ p.toLower = '(' := by
    simpa [List.map_eq_singleton_iff] using hParen
  have hOpen : p = '(' := Text.eq_of_toLower_low (by decide) hLower
  refine ⟨word, by rw [hLetters, hOne, hOpen], fun c hc => ?_⟩
  have hIn : c.toLower ∈ small := by
    rw [← hWord]
    exact List.mem_map_of_mem hc
  have hNot := hPlain _ hIn
  refine ⟨?_, ?_, ?_⟩
  · rintro rfl
    exact hNot.1 rfl
  · rintro rfl
    exact hNot.2.1 rfl
  · rintro rfl
    exact hNot.2.2 rfl

theorem ascii (keyword : Keyword connective) :
    ∀ c ∈ keyword.letters, c.toNat < 128 := by
  intro c hc
  have hSmall : ∀ d ∈ connective.opening, d.toNat < 128 := by
    cases connective <;> simp [Connective.opening]
  refine Text.ascii_of_toLower (hSmall _ ?_)
  rw [← keyword.small]
  exact List.mem_map_of_mem hc

theorem length_letters (keyword : Keyword connective) :
    keyword.letters.length = connective.opening.length := by
  rw [← keyword.small, List.length_map]

/-- No keyword starts with a blank: a blank is its own small form. -/
theorem head?_letters (keyword : Keyword connective) :
    ∀ c ∈ keyword.letters.head?, isBlank c = false := by
  intro c hc
  have hLower : c.toLower ∈ connective.opening.head? := by
    rw [← keyword.small, List.head?_map]
    exact Option.mem_map_of_mem _ hc
  have hLetter : c.toLower = 'o' ∨ c.toLower = 'a' := by
    cases connective with
    | or => exact Or.inl (Option.some.inj hLower).symm
    | and => exact Or.inr (Option.some.inj hLower).symm
  unfold Char.toLower at hLetter
  split at hLetter
  · next hUpper =>
      have hFirst : 65 ≤ c.val.toNat := UInt32.le_iff_toNat_le.1 hUpper.1
      have hFinal : c.val.toNat ≤ 90 := UInt32.le_iff_toNat_le.1 hUpper.2
      exact Text.isBlank_of_visible (Nat.le_trans (by decide) hFirst)
        (Nat.le_trans hFinal (by decide))
  · rcases hLetter with rfl | rfl
    · decide
    · decide

end Keyword

/-! ## The texts of nested groups -/

namespace Keyword

variable {connective : Connective}

theorem trimChars_around (before after : Blanks)
    (keyword : Keyword connective) (inner : List Char) :
    trimChars (before.chars ++ keyword.around inner ++ after.chars) =
      keyword.around inner := by
  refine Text.trimChars_between before.blank after.blank (fun c hc => ?_)
    (fun c hc => ?_)
  · refine keyword.head?_letters c ?_
    obtain ⟨word, hLetters, -⟩ := keyword.letters_eq
    rw [around, hLetters] at hc
    rw [hLetters]
    cases word with
    | nil => exact hc
    | cons d rest => exact hc
  · rw [around, List.getLast?_concat] at hc
    obtain rfl : ')' = c := by simpa using hc
    decide

/-- A keyword is recognized in capital and in small letters. -/
theorem lowerChars_around (keyword : Keyword connective) (inner : List Char) :
    ∃ small, Text.lowerChars (keyword.around inner) =
      connective.opening ++ small := by
  obtain ⟨small, hSmall⟩ :=
    Text.lowerChars_append_ascii keyword.ascii (inner ++ [')'])
  refine ⟨small, ?_⟩
  rw [around, List.append_assoc, hSmall, keyword.small]

/-- What is taken from between keyword and last parenthesis is the inside. -/
theorem dropLast_drop_around (keyword : Keyword connective)
    (inner : List Char) :
    ((keyword.around inner).drop connective.opening.length).dropLast =
      inner := by
  rw [around, List.append_assoc, ← keyword.length_letters, List.drop_left,
    List.dropLast_concat]

theorem inside?_around (before after : Blanks)
    (keyword : Keyword connective) (inner : List Char) :
    Group.inside? connective
      (before.chars ++ keyword.around inner ++ after.chars) = some inner := by
  obtain ⟨small, hSmall⟩ := keyword.lowerChars_around inner
  have hStart : Text.startsWith (Text.lowerChars (keyword.around inner))
      connective.opening = true := by
    rw [Text.startsWith, hSmall]
    exact List.isPrefixOf_iff_prefix.2 (List.prefix_append _ _)
  have hLast : (keyword.around inner).getLast? = some ')' :=
    List.getLast?_concat
  rw [Group.inside?, keyword.trimChars_around]
  simp only [hStart, hLast, beq_self_eq_true, Bool.and_self, if_true,
    keyword.dropLast_drop_around]

theorem inside?_or_around (before after : Blanks)
    (keyword : Keyword .and) (inner : List Char) :
    Group.inside? .or
      (before.chars ++ keyword.around inner ++ after.chars) = none := by
  obtain ⟨small, hSmall⟩ := keyword.lowerChars_around inner
  have hStart : Text.startsWith (Text.lowerChars (keyword.around inner))
      Connective.or.opening = false := by
    rw [Text.startsWith, hSmall]
    rfl
  rw [Group.inside?, keyword.trimChars_around]
  simp only [hStart, Bool.false_and, Bool.false_eq_true, if_false]

theorem nested?_around (before after : Blanks)
    (keyword : Keyword connective) (inner : List Char) :
    Group.nested? (before.chars ++ keyword.around inner ++ after.chars) =
      some (connective, inner) := by
  cases connective with
  | or => rw [Group.nested?, keyword.inside?_around before after]
  | and =>
      rw [Group.nested?, keyword.inside?_or_around before after]
      simp only [keyword.inside?_around before after, Option.map_some]

end Keyword

/-! ## Members are segments -/

theorem Blanks.isSegment (blanks : Blanks) : Group.IsSegment blanks.chars := by
  refine Group.isSegment_of_plain ?_ ?_ ?_
  all_goals
    intro h
    exact absurd (blanks.blank _ h) (by decide)

theorem Triple.isSegment_text (t : Triple) : Group.IsSegment t.text := by
  have hColumn : Group.IsSegment t.column :=
    Group.isSegment_of_plain (fun h => (t.column_plain _ h).2.2.1 rfl)
      (fun h => (t.column_plain _ h).2.2.2 rfl)
      (fun h => (t.column_plain _ h).2.1 rfl)
  have hToken : Group.IsSegment t.token :=
    Group.isSegment_of_plain (fun h => (t.token_plain _ h).2.2.1 rfl)
      (fun h => (t.token_plain _ h).2.2.2 rfl)
      (fun h => (t.token_plain _ h).2.1 rfl)
  have hDot : Group.IsSegment ['.'] := by decide
  exact hColumn.append (hDot.append (hToken.append
    (hDot.append t.value_segment)))

theorem Keyword.isSegment_around {connective : Connective}
    (keyword : Keyword connective) {inner : List Char}
    (h : Group.Balanced inner) : Group.IsSegment (keyword.around inner) := by
  obtain ⟨word, hLetters, hPlain⟩ := keyword.letters_eq
  have hWord : Group.IsSegment word :=
    Group.isSegment_of_plain (fun hc => (hPlain _ hc).2.1 rfl)
      (fun hc => (hPlain _ hc).2.2 rfl) (fun hc => (hPlain _ hc).1 rfl)
  have hEq : keyword.around inner = word ++ ('(' :: inner ++ [')']) := by
    simp [Keyword.around, hLetters]
  rw [hEq]
  exact hWord.append h.parenthesized

mutual

theorem Expression.isSegment_text :
    ∀ e : Expression, Group.IsSegment e.text
  | .triple before t after =>
      (before.isSegment.append t.isSegment_text).append after.isSegment
  | .group before _ keyword members after => by
      have hInner : Group.Balanced (Text.joinWith [','] members.texts) :=
        Group.balanced_joinWith fun text hText =>
          (Members.isSegment_texts members text hText).1
      exact (before.isSegment.append
        (keyword.isSegment_around hInner)).append after.isSegment

theorem Members.isSegment_texts :
    ∀ (members : Members), ∀ text ∈ members.texts, Group.IsSegment text
  | .one member => by
      intro text hText
      rw [List.mem_singleton.1 hText]
      exact Expression.isSegment_text member
  | .cons member others => by
      intro text hText
      rcases List.mem_cons.1 hText with rfl | hOther
      · exact Expression.isSegment_text member
      · exact Members.isSegment_texts others text hOther

end

theorem Members.texts_ne_nil (members : Members) : members.texts ≠ [] := by
  cases members <;> simp [Members.texts]

theorem Members.splitTopLevel_text (members : Members) :
    Group.splitTopLevel members.text = .ok members.texts :=
  Group.splitTopLevel_joinWith members.texts_ne_nil members.isSegment_texts

/-! ## The filters of an expression -/

/-- The value of a text after an operator. No text is refused, so the default
is never taken. -/
def FilterValue.ofText (operator : Option Operator) (raw : String) :
    FilterValue :=
  (FilterValue.ofValue (Filter.coerce operator (.text raw))).toOption.getD .null

/-- The list after `in` holds texts only. -/
private theorem coerceIn_eq (raw : String) : ∃ items : List Scalar,
    Filter.coerceIn raw = .list (items.map .scalar) := by
  cases hInner : Filter.withoutParens (trimChars raw.toList) with
  | nil => exact ⟨[], by rw [Filter.coerceIn, hInner]; rfl⟩
  | cons c rest =>
      refine ⟨(Text.splitOn ',' (c :: rest)).map fun item =>
        .text (.ofList (Text.stripChars (· == '\x22') (trimChars item))), ?_⟩
      rw [Filter.coerceIn, hInner, List.map_map]
      rfl

theorem FilterValue.ofValue_coerce_text (operator : Option Operator)
    (raw : String) :
    FilterValue.ofValue (Filter.coerce operator (.text raw)) =
      .ok (FilterValue.ofText operator raw) := by
  obtain ⟨value, hValue⟩ : ∃ value,
      FilterValue.ofValue (Filter.coerce operator (.text raw)) = .ok value := by
    by_cases hIs : operator = some .is
    · subst hIs
      show ∃ value, FilterValue.ofValue (Filter.coerceIs raw) = .ok value
      unfold Filter.coerceIs
      dsimp only
      split_ifs
      all_goals exact ⟨_, rfl⟩
    · by_cases hIn : operator = some .in
      · subst hIn
        show ∃ value, FilterValue.ofValue (Filter.coerceIn raw) = .ok value
        obtain ⟨items, hItems⟩ := coerceIn_eq raw
        rw [hItems, FilterValue.ofValue, FilterValue.ofItems,
          FilterValue.scalars?_map]
        exact ⟨_, rfl⟩
      · have hRaw : Filter.coerce operator (.text raw) = .text raw := by
          unfold Filter.coerce
          split
          · exact absurd rfl hIs
          · exact absurd rfl hIn
          · rfl
        rw [hRaw]
        exact ⟨_, rfl⟩
  rw [FilterValue.ofText, hValue]
  rfl

/-- The filter of a triple, alone or as a member of a numbered group. -/
def Triple.filter (t : Triple) (number : Option Int) : Filter where
  column := Text.trim (.ofList t.column)
  operator := Operator.ofToken? (.ofList t.token)
  value := FilterValue.ofText (Operator.ofToken? (.ofList t.token))
    (.ofList t.value)
  isOr := number.isSome
  group := number.getD 0

theorem Triple.build_eq (t : Triple) (number : Option Int) :
    Filter.build (.ofList t.column) (.ofList t.token) (.text (.ofList t.value))
      number.isSome (number.getD 0) = .ok (t.filter number) := by
  rw [Filter.build]
  simp only [FilterValue.ofValue_coerce_text]
  rfl

mutual

/-- The filters of an expression inside the group of a number or inside none,
and the next number afterwards. -/
def Expression.numbered : Option Int → Int → Expression → List Filter × Int
  | number, next, .triple _ t _ => ([t.filter number], next)
  | some group, next, .group _ .or _ members _ =>
      members.numbered (some group) next
  | none, next, .group _ .or _ members _ =>
      members.numbered (some next) (next + 1)
  | _, next, .group _ .and _ members _ => members.numbered none next

/-- The filters of the members of a group. -/
def Members.numbered : Option Int → Int → Members → List Filter × Int
  | number, next, .one member => member.numbered number next
  | number, next, .cons member others =>
      let first := member.numbered number next
      let rest := others.numbered number first.2
      (first.1 ++ rest.1, rest.2)

end

/-! ## Reading the text of an expression -/

/-- The connective of the group a number stands for; without a number it is a
conjunction. -/
def Connective.ofNumber : Option Int → Connective
  | some _ => or
  | none => and

/-- The number the filters of a group get, and the next number: one given from
outside, a fresh one for an `or` group, none for an `and` group. -/
def Connective.opened : Connective → Option Int → Int → Option Int × Int
  | _, some group, next => (some group, next)
  | or, none, next => (some next, next + 1)
  | and, none, next => (none, next)

theorem Members.text_cons (member : Expression) (others : Members) :
    (Members.cons member others).text = member.text ++ ',' :: others.text := by
  cases others <;> simp [Members.text, Members.texts, Text.joinWith]

mutual

theorem Expression.dot_mem_text : ∀ e : Expression, '.' ∈ e.text
  | .triple _ t _ => by simp [Expression.text, Triple.text]
  | .group _ _ _ members _ => by
      have hInner := Members.dot_mem_text members
      rw [Members.text] at hInner
      simp [Expression.text, Keyword.around, hInner]

theorem Members.dot_mem_text : ∀ members : Members, '.' ∈ members.text
  | .one member => Expression.dot_mem_text member
  | .cons member others => by
      rw [Members.text_cons]
      exact List.mem_append_left _ (Expression.dot_mem_text member)

end

/-- The text of a group is not passed over as blank. -/
theorem Members.all_isBlank_text (members : Members) :
    members.text.all isBlank = false := by
  rw [Bool.eq_false_iff]
  intro h
  exact absurd (List.all_eq_true.1 h '.' members.dot_mem_text) (by decide)

/-- Reading a group is reading its segments under the number it opens. -/
theorem Members.run_readWithin {members : Members} {fuel : Nat}
    {connective : Connective} {given : Option Int} {next after : Int}
    {filters : List Filter}
    (h : ∃ parts, (members.texts.mapM (Group.readSegment
        (Group.readWithin fuel) connective
          ((connective.opened given next).1.getD 0))).run.run
            (connective.opened given next).2 = (.ok parts, after) ∧
      parts.flatten = filters) :
    (Group.readWithin (fuel + 1) connective given members.text).run.run next =
      (.ok filters, after) := by
  obtain ⟨parts, hParts, rfl⟩ := h
  have hSplit : (Numbering.lift
      (Group.splitTopLevel members.text)).run.run next =
        (.ok members.texts, next) := by
    rw [Numbering.run_lift, members.splitTopLevel_text]
  rw [Group.readWithin, if_neg (by simp [members.all_isBlank_text]),
    Numbering.run_bind_ok hSplit]
  cases given with
  | some group =>
      exact (Numbering.run_bind_ok (Numbering.run_pure group next)).trans
        ((Numbering.run_bind_ok hParts).trans (Numbering.run_pure _ _))
  | none =>
      cases connective with
      | or =>
          exact (Numbering.run_bind_ok (Numbering.run_allocate next)).trans
            ((Numbering.run_bind_ok hParts).trans (Numbering.run_pure _ _))
      | and =>
          exact (Numbering.run_bind_ok (Numbering.run_pure 0 next)).trans
            ((Numbering.run_bind_ok hParts).trans (Numbering.run_pure _ _))

theorem Triple.readFilter_text (before after : Blanks) (t : Triple)
    (number : Option Int) :
    Group.readFilter (.ofNumber number) (number.getD 0)
      (before.chars ++ t.text ++ after.chars) = .ok (t.filter number) := by
  have hOr : (Connective.ofNumber number == .or) = number.isSome := by
    cases number <;> rfl
  rw [Group.readFilter, t.cutTriple?_text]
  simp only [hOr, t.build_eq]

/-- The inside of a nested group is shorter than the group. -/
theorem Keyword.length_lt_around {connective : Connective}
    (keyword : Keyword connective) (inner : List Char) :
    inner.length < (keyword.around inner).length := by
  simp only [around, List.length_append, List.length_singleton]
  omega

mutual

/-- The reader of a segment gives the filters of the expression, from any
number on and inside any group. -/
theorem Expression.run_readSegment : ∀ (e : Expression) (number : Option Int)
    (fuel : Nat) (next : Int), e.Flattens number.isSome →
    e.text.length ≤ fuel →
    (Group.readSegment (Group.readWithin fuel) (.ofNumber number)
      (number.getD 0) e.text).run.run next =
        (.ok (e.numbered number next).1, (e.numbered number next).2)
  | .triple before t after, number, fuel, next, _, _ => by
      rw [Expression.text, Group.readSegment, t.nested?_text]
      simp only [t.readFilter_text before after number]
      rfl
  | .group before connective keyword members after, number, fuel, next,
      hFlat, hFuel => by
      have hShort : members.text.length < fuel := by
        have hAround := keyword.length_lt_around members.text
        rw [Expression.text, List.length_append, List.length_append] at hFuel
        rw [Members.text] at hAround ⊢
        omega
      obtain ⟨less, rfl⟩ : ∃ less, fuel = less + 1 :=
        ⟨fuel - 1, by omega⟩
      have hInner : members.text.length ≤ less := by omega
      rw [Expression.text, Group.readSegment,
        keyword.nested?_around before after]
      cases connective with
      | or =>
          cases number with
          | none =>
              exact Members.run_readWithin (Members.run_mapM members
                (some next) less (next + 1) hFlat hInner)
          | some group =>
              exact Members.run_readWithin (Members.run_mapM members
                (some group) less next hFlat hInner)
      | and =>
          cases number with
          | none =>
              exact Members.run_readWithin (Members.run_mapM members none less
                next hFlat.2 hInner)
          | some group => exact absurd hFlat.1 (by simp)

theorem Members.run_mapM : ∀ (members : Members) (number : Option Int)
    (fuel : Nat) (next : Int), members.Flattens number.isSome →
    members.text.length ≤ fuel →
    ∃ parts, (members.texts.mapM (Group.readSegment (Group.readWithin fuel)
        (.ofNumber number) (number.getD 0))).run.run next =
          (.ok parts, (members.numbered number next).2) ∧
      parts.flatten = (members.numbered number next).1
  | .one member, number, fuel, next, hFlat, hFuel => by
      have hRead := Expression.run_readSegment member number fuel next hFlat
        hFuel
      refine ⟨_, Numbering.run_mapM_cons hRead (Numbering.run_pure [] _), ?_⟩
      simp [Members.numbered]
  | .cons member others, number, fuel, next, hFlat, hFuel => by
      rw [Members.text_cons, List.length_append, List.length_cons] at hFuel
      have hRead := Expression.run_readSegment member number fuel next hFlat.1
        (by omega)
      obtain ⟨parts, hParts, hFlatten⟩ := Members.run_mapM others number fuel
        (member.numbered number next).2 hFlat.2 (by omega)
      refine ⟨_, Numbering.run_mapM_cons hRead hParts, ?_⟩
      rw [List.flatten_cons, hFlatten]
      rfl

end

theorem Members.run_read {members : Members} {connective : Connective}
    (hFlat : members.Flattens (connective == .or)) (next : Int) :
    (Group.read connective (.ofList members.text)).run.run next =
      (.ok (members.numbered (connective.opened none next).1
          (connective.opened none next).2).1,
        (members.numbered (connective.opened none next).1
          (connective.opened none next).2).2) := by
  have hList : (String.ofList members.text).toList = members.text :=
    String.toList_ofList
  rw [Group.read, hList]
  cases connective with
  | or =>
      exact Members.run_readWithin (members.run_mapM (some next)
        members.text.length (next + 1) hFlat (Nat.le_refl _))
  | and =>
      exact Members.run_readWithin (members.run_mapM none members.text.length
        next hFlat (Nat.le_refl _))

end TableGate
