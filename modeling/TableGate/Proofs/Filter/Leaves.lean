import TableGate.Proofs.Expression.Reading
import TableGate.Proofs.Result

/-!
# The segments that filters are read from

However deep the groups of a text are nested, each filter read from it was read
from one segment of the text that is no nested group: a *leaf*. A leaf closes
all the parentheses it opens and has no comma outside of them, so it would be
one segment on its own as well; and it has two dots, which cut it into column,
operator and value.

A text that looks like a nested group is one: it starts with the word of a
connective and a parenthesis, in capital or small letters, and ends with the
parenthesis that closes it. Nothing else has such a small form.

## Main results

* `Leaf.exists_of_mem`: every filter that is read comes from a leaf.
* `Leaf.exists_parts`: what a leaf says about its filter.
* `exists_short_column`: a text with a dot has a filter whose column is no
  longer than what stands before the dot.
-/

namespace TableGate

open Text (isBlank trimChars)

/-- The filter of a text: nothing after a second dot is refused. -/
theorem Filter.build_text (column token value : String) (isOr : Bool)
    (group : Int) :
    Filter.build column token (.text value) isOr group = .ok {
      column := Text.trim column
      operator := Operator.ofToken? token
      value := FilterValue.ofText (Operator.ofToken? token) value
      isOr, group } := by
  rw [Filter.build]
  simp only [FilterValue.ofValue_coerce_text]
  rfl

/-! ## Keywords -/

/-- A text starts with a keyword when its small form does. -/
theorem Keyword.startsWith_iff {connective : Connective} {cs : List Char} :
    Text.startsWith (Text.lowerChars cs) connective.opening = true ↔
      ∃ (keyword : Keyword connective) (rest : List Char),
        cs = keyword.letters ++ rest := by
  constructor
  · intro h
    rw [Text.startsWith, List.isPrefixOf_iff_prefix,
      Text.lowerChars_eq_lowerAfter] at h
    have hLetters : (connective.opening.all fun x =>
        decide (0 < x.toNat ∧ x.toNat < 128 ∧ x ≠ 'i' ∧ x ≠ 'k')) = true := by
      cases connective <;> decide
    obtain ⟨start, rest, hText, hStart⟩ :=
      Text.exists_start_of_lowerAfter (fun x hx =>
        of_decide_eq_true (List.all_eq_true.1 hLetters x hx)) h
    exact ⟨⟨start, hStart⟩, rest, hText⟩
  · rintro ⟨keyword, rest, rfl⟩
    obtain ⟨small, hSmall⟩ := Text.lowerChars_append_ascii keyword.ascii rest
    rw [Text.startsWith, List.isPrefixOf_iff_prefix, hSmall, keyword.small]
    exact List.prefix_append _ _

/-- Keywords have no dot. -/
theorem Keyword.dot_notMem {connective : Connective}
    (keyword : Keyword connective) : '.' ∉ keyword.letters := by
  intro h
  have hSmall : Char.toLower '.' ∈ connective.opening := by
    rw [← keyword.small]
    exact List.mem_map_of_mem h
  cases connective with
  | or => exact absurd hSmall (by decide)
  | and => exact absurd hSmall (by decide)

/-- Which keyword a text starts with is seen before its first dot. -/
theorem Keyword.startsWith_append {connective : Connective}
    (before rest : List Char) :
    Text.startsWith (Text.lowerChars (before ++ '.' :: rest))
        connective.opening = true ↔
      Text.startsWith (Text.lowerChars before) connective.opening = true := by
  rw [Keyword.startsWith_iff, Keyword.startsWith_iff]
  constructor
  · rintro ⟨keyword, later, hText⟩
    rcases List.append_eq_append_iff.1 hText with ⟨more, hLetters, hRest⟩ |
      ⟨more, hBefore, -⟩
    · cases more with
      | nil => exact ⟨keyword, [], by rw [hLetters]; simp⟩
      | cons c more =>
          have hDot : '.' = c := (List.cons.inj hRest).1
          exact absurd (by rw [hLetters, hDot]; simp) keyword.dot_notMem
    · exact ⟨keyword, more, hBefore⟩
  · rintro ⟨keyword, later, rfl⟩
    exact ⟨keyword, later ++ '.' :: rest, by rw [List.append_assoc]⟩

namespace Group

/-- What looks like a nested group is a keyword around the inside. -/
theorem exists_around_of_inside? {connective : Connective}
    {segment inner : List Char} (h : inside? connective segment = some inner) :
    ∃ keyword : Keyword connective, trimChars segment = keyword.around inner := by
  unfold inside? at h
  simp only at h
  split at h
  · next hGroup =>
      rw [Bool.and_eq_true, beq_iff_eq] at hGroup
      obtain ⟨keyword, rest, hText⟩ := Keyword.startsWith_iff.1 hGroup.1
      have hLast := hGroup.2
      rw [hText] at hLast
      obtain ⟨word, hLetters, -⟩ := keyword.letters_eq
      rcases List.eq_nil_or_concat rest with rfl | ⟨front, last, rfl⟩
      · rw [List.append_nil, hLetters, List.getLast?_concat] at hLast
        exact absurd hLast (by decide)
      · rw [List.concat_eq_append] at hText hLast
        rw [← List.append_assoc, List.getLast?_concat] at hLast
        obtain rfl : last = ')' := Option.some.inj hLast
        refine ⟨keyword, ?_⟩
        rw [hText, ← List.append_assoc] at h ⊢
        rw [← Option.some.inj h]
        exact congrArg keyword.around
          (keyword.dropLast_drop_around front).symm
  · cases h

theorem exists_around_of_nested? {connective : Connective}
    {segment inner : List Char}
    (h : nested? segment = some (connective, inner)) :
    ∃ keyword : Keyword connective, trimChars segment = keyword.around inner := by
  unfold nested? at h
  split at h
  · next inner' hOr =>
      cases h
      exact exists_around_of_inside? hOr
  · obtain ⟨inner', hAnd, hEq⟩ := Option.map_eq_some_iff.1 h
    cases hEq
    exact exists_around_of_inside? hAnd

/-- Whether a text starts with a keyword. -/
def opensGroup (cs : List Char) : Bool :=
  [Connective.or, .and].any fun connective =>
    Text.startsWith (Text.lowerChars cs) connective.opening

theorem opensGroup_iff {cs : List Char} :
    opensGroup cs = true ↔ ∃ connective : Connective,
      Text.startsWith (Text.lowerChars cs) connective.opening = true := by
  rw [opensGroup, List.any_eq_true]
  constructor
  · rintro ⟨connective, -, h⟩
    exact ⟨connective, h⟩
  · rintro ⟨connective, h⟩
    exact ⟨connective, by cases connective <;> simp, h⟩

theorem opensGroup_dot (before rest : List Char) :
    opensGroup (before ++ '.' :: rest) = opensGroup before := by
  rw [Bool.eq_iff_iff, opensGroup_iff, opensGroup_iff]
  simp only [Keyword.startsWith_append]

/-- A text that starts with a keyword does so whatever follows it. -/
theorem opensGroup_append {cs : List Char} (h : opensGroup cs = true)
    (rest : List Char) : opensGroup (cs ++ rest) = true := by
  obtain ⟨connective, hStart⟩ := opensGroup_iff.1 h
  obtain ⟨keyword, later, rfl⟩ := Keyword.startsWith_iff.1 hStart
  refine opensGroup_iff.2 ⟨connective, Keyword.startsWith_iff.2
    ⟨keyword, later ++ rest, List.append_assoc _ _ _⟩⟩

/-- A segment is a nested group when it starts with a keyword and ends with a
parenthesis. -/
theorem nested?_eq_none_iff {segment : List Char} :
    nested? segment = none ↔ (opensGroup (trimChars segment) = true →
      (trimChars segment).getLast? ≠ some ')') := by
  have hInside : ∀ connective, inside? connective segment = none ↔
      (Text.startsWith (Text.lowerChars (trimChars segment))
        connective.opening = true →
          (trimChars segment).getLast? ≠ some ')') := by
    intro connective
    unfold inside?
    simp [imp_not_comm]
  constructor
  · intro h hOpens hLast
    obtain ⟨connective, hStart⟩ := opensGroup_iff.1 hOpens
    unfold nested? at h
    split at h
    · cases h
    · next hOr =>
        cases connective with
        | or => exact (hInside .or).1 hOr hStart hLast
        | and =>
            exact (hInside .and).1 (Option.map_eq_none_iff.1 h) hStart hLast
  · intro h
    rw [nested?, (hInside .or).2 fun hStart =>
        h (opensGroup_iff.2 ⟨.or, hStart⟩),
      (hInside .and).2 fun hStart => h (opensGroup_iff.2 ⟨.and, hStart⟩)]
    rfl

/-! ## Leaves -/

/-- A segment that is read as one filter. -/
structure Leaf (connective : Connective) (group : Int) (segment : List Char)
    (f : Filter) : Prop where
  closed : depthAfter? 0 segment = some 0
  plain : nested? segment = none
  reads : readFilter connective group segment = .ok f

/-- What the reader of a group goes through: its segments, each read at some
number. -/
theorem parts_of_readWithin {fuel : Nat} {connective : Connective}
    {number : Option Int} {cs : List Char} {next after : Int}
    {filters : List Filter} (hSome : cs.all isBlank = false)
    (h : (readWithin (fuel + 1) connective number cs).run.run next =
      (.ok filters, after)) :
    ∃ segments group parts, splitTopLevel cs = .ok segments ∧
      parts.flatten = filters ∧
      List.Forall₂ (fun segment part => ∃ first last,
        (readSegment (readWithin fuel) connective group segment).run.run first =
          (.ok part, last)) segments parts := by
  obtain ⟨segments, group, middle, parts, hSplit, -, hParts, hFilters⟩ :=
    steps_of_run hSome h
  exact ⟨segments, group, parts, hSplit, hFilters,
    Numbering.forall₂_of_run_mapM hParts⟩

/-- A segment is read as one filter, or as the inside of a nested group. -/
theorem readSegment_eq_ok
    {readInside : Connective → Option Int → List Char →
      Numbering (List Filter)}
    {connective : Connective} {group : Int} {segment : List Char}
    {next after : Int} {part : List Filter}
    (h : (readSegment readInside connective group segment).run.run next =
      (.ok part, after)) :
    (∃ f, nested? segment = none ∧
      readFilter connective group segment = .ok f ∧ part = [f]) ∨
    ∃ inside number inner, nested? segment = some (inside, inner) ∧
      (readInside inside number inner).run.run next = (.ok part, after) := by
  unfold readSegment at h
  split at h
  · next hPlain =>
      obtain ⟨f, _, hOne, hEnd⟩ := Numbering.run_bind_eq_ok.1 h
      rw [Numbering.run_lift] at hOne
      cases hEnd
      exact Or.inl ⟨f, hPlain, congrArg Prod.fst hOne, rfl⟩
  · next inner hNested =>
      cases connective with
      | or => cases h
      | and => exact Or.inr ⟨.and, none, inner, hNested, h⟩
  · next inner hNested =>
      cases connective with
      | or => exact Or.inr ⟨.or, some group, inner, hNested, h⟩
      | and => exact Or.inr ⟨.or, none, inner, hNested, h⟩

/-- Every filter comes from a leaf: by induction on the depth of the groups,
which the fuel bounds. -/
theorem Leaf.exists_of_mem {fuel : Nat} {connective : Connective}
    {number : Option Int} {cs : List Char} {next after : Int}
    {filters : List Filter}
    (h : (readWithin fuel connective number cs).run.run next =
      (.ok filters, after)) {f : Filter} (hf : f ∈ filters) :
    ∃ connective group segment, Leaf connective group segment f := by
  induction fuel generalizing connective number cs next after filters with
  | zero =>
      cases h
      exact absurd hf List.not_mem_nil
  | succ fuel ih =>
      cases hBlank : cs.all isBlank with
      | true =>
          rw [readWithin, if_pos hBlank] at h
          cases h
          exact absurd hf List.not_mem_nil
      | false =>
          obtain ⟨segments, group, parts, hSplit, rfl, hParts⟩ :=
            parts_of_readWithin hBlank h
          obtain ⟨part, hPart, hf⟩ := List.mem_flatten.1 hf
          obtain ⟨segment, hSegment, first, last, hRead⟩ :=
            Result.exists_of_mem_forall₂ hParts hPart
          rcases readSegment_eq_ok hRead with ⟨g, hPlain, hReads, rfl⟩ |
            ⟨inside, given, inner, -, hInside⟩
          · obtain rfl := List.mem_singleton.1 hf
            exact ⟨connective, group, segment,
              depthAfter?_of_splitTopLevel hSplit segment hSegment, hPlain,
              hReads⟩
          · exact ih hInside hf

/-- A text cut at its first two dots into the parts of a filter. -/
structure Parts (text : List Char) (f : Filter) where
  column : List Char
  token : List Char
  value : List Char
  text_eq : text = column ++ '.' :: (token ++ '.' :: value)
  column_plain : '.' ∉ column
  token_plain : '.' ∉ token
  column_eq : f.column = .ofList (trimChars column)
  operator_eq : f.operator = Operator.ofToken? (.ofList token)
  value_eq : f.value = FilterValue.ofText f.operator (.ofList value)

/-- A leaf has two dots, and its filter is what they cut it into. -/
theorem Leaf.exists_parts {connective : Connective} {group : Int}
    {segment : List Char} {f : Filter} (h : Leaf connective group segment f) :
    Nonempty (Parts (trimChars segment) f) := by
  have hReads := h.reads
  unfold readFilter at hReads
  split at hReads
  · next column token value hCut =>
      unfold Filter.cutTriple? at hCut
      obtain ⟨⟨c, rest⟩, hFirst, hCut⟩ := Option.bind_eq_some_iff.1 hCut
      obtain ⟨⟨t, v⟩, hSecond, hCut⟩ := Option.bind_eq_some_iff.1 hCut
      cases hCut
      obtain ⟨hText, hColumn⟩ := Text.cut?_eq_some_iff.1 hFirst
      obtain ⟨hRest, hToken⟩ := Text.cut?_eq_some_iff.1 hSecond
      rw [Filter.build_text, Except.ok.injEq] at hReads
      have hName : f.column = .ofList (trimChars column) := by
        rw [← hReads]
        simp only [Text.trim, String.toList_ofList]
      refine ⟨column, token, value, by rw [hText, hRest], hColumn, hToken,
        hName, ?_, ?_⟩
      all_goals
        rw [← hReads]
  · cases hReads

/-! ## The first dot of a text -/

/-- A piece of a comma list has the first dot of the list, with no more before
it than the list has. -/
theorem exists_piece_with_dot {pieces : List (List Char)}
    {before rest : List Char}
    (h : Text.joinWith [','] pieces = before ++ '.' :: rest)
    (hDot : '.' ∉ before) :
    ∃ piece ∈ pieces, ∃ front back, piece = front ++ '.' :: back ∧
      '.' ∉ front ∧ front.length ≤ before.length := by
  induction pieces generalizing before with
  | nil => simp [Text.joinWith] at h
  | cons piece others ih =>
      cases others with
      | nil => exact ⟨piece, by simp, before, rest, h, hDot, Nat.le_refl _⟩
      | cons next others =>
          have hText : piece ++ (',' :: Text.joinWith [','] (next :: others)) =
              before ++ '.' :: rest := by
            rw [← h]
            simp [Text.joinWith]
          rcases List.append_eq_append_iff.1 hText with ⟨more, hBefore, hRest⟩ |
            ⟨more, hPiece, hRest⟩
          · -- the piece ends before the dot
            cases more with
            | nil => exact absurd (List.cons.inj hRest).1 (by decide)
            | cons c more =>
                have hLater := (List.cons.inj hRest).2
                have hNone : '.' ∉ more := fun hMem =>
                  hDot (by rw [hBefore]; simp [hMem])
                obtain ⟨other, hOther, front, back, hEq, hFront, hLength⟩ :=
                  ih hLater hNone
                refine ⟨other, List.mem_cons_of_mem _ hOther, front, back, hEq,
                  hFront, Nat.le_trans hLength ?_⟩
                rw [hBefore, List.length_append, List.length_cons]
                omega
          · cases more with
            | nil => exact absurd (List.cons.inj hRest).1 (by decide)
            | cons c more =>
                have hc : '.' = c := (List.cons.inj hRest).1
                exact ⟨piece, by simp, before, more, by rw [hPiece, hc], hDot,
                  Nat.le_refl _⟩

/-- What stands before the first dot stays so behind a start without dots. -/
theorem eq_of_dot {start before rest before' rest' : List Char}
    (hStart : '.' ∉ start) (hDot : '.' ∉ before) (hDot' : '.' ∉ before')
    (h : before' ++ '.' :: rest' = start ++ before ++ '.' :: rest) :
    before' = start ++ before := by
  have hNone : '.' ∉ start ++ before := by simp [hStart, hDot]
  have hCut : Text.cut? '.' (start ++ before ++ '.' :: rest) =
      some (start ++ before, rest) := Text.cut?_eq_some_iff.2 ⟨rfl, hNone⟩
  rw [Text.cut?_eq_some_iff.2 ⟨h.symm, hDot'⟩] at hCut
  exact congrArg Prod.fst (Option.some.inj hCut)

/-- A piece is no longer than the list it is a piece of. -/
theorem length_le_joinWith {pieces : List (List Char)} {piece : List Char}
    (h : piece ∈ pieces) :
    piece.length ≤ (Text.joinWith [','] pieces).length := by
  induction pieces with
  | nil => exact absurd h List.not_mem_nil
  | cons first others ih =>
      cases others with
      | nil =>
          rw [List.mem_singleton.1 h]
          exact Nat.le_refl _
      | cons next others =>
          rw [Text.joinWith, List.length_append, List.length_append]
          · rcases List.mem_cons.1 h with rfl | hLater
            · omega
            · have hLength := ih hLater
              omega
          · simp

/-- The first dot of a group is the first dot of its inside, which has less
before it: neither a keyword nor a blank is a dot. -/
theorem exists_dot_inside {connective : Connective} {segment inner : List Char}
    {front back : List Char} {keyword : Keyword connective}
    (hAround : trimChars segment = keyword.around inner)
    (hDot : segment = front ++ '.' :: back) (hFront : '.' ∉ front) :
    ∃ before rest, inner = before ++ '.' :: rest ∧ '.' ∉ before ∧
      before.length < front.length ∧ inner.length < segment.length := by
  obtain ⟨left, right, hText, hLeft, hRight⟩ := Text.exists_eq_trimChars segment
  have hBlank : ∀ {blanks : List Char}, (∀ c ∈ blanks, isBlank c = true) →
      '.' ∉ blanks := fun hBlanks hMem =>
    absurd (hBlanks '.' hMem) (by decide)
  rw [hAround, Keyword.around] at hText
  have hLength : inner.length < segment.length := by
    have hSum := congrArg List.length hText
    simp only [List.length_append, List.length_singleton] at hSum
    omega
  have hMem : '.' ∈ inner := by
    have hSome : '.' ∈ segment := by
      rw [hDot]
      simp
    rw [hText] at hSome
    simpa [hBlank hLeft, hBlank hRight, keyword.dot_notMem] using hSome
  obtain ⟨before, rest, rfl, hBefore⟩ := List.eq_append_cons_of_mem hMem
  have hStart : '.' ∉ left ++ keyword.letters := by
    simp [hBlank hLeft, keyword.dot_notMem]
  have hBoth : front ++ '.' :: back =
      left ++ keyword.letters ++ before ++
        '.' :: (rest ++ [')'] ++ right) := by
    rw [← hDot, hText]
    simp
  have hEq : front = left ++ keyword.letters ++ before :=
    eq_of_dot hStart hBefore hFront hBoth
  have hLetters : 0 < keyword.letters.length := by
    rw [keyword.length_letters]
    cases connective <;> decide
  refine ⟨before, rest, rfl, hBefore, ?_, hLength⟩
  rw [hEq, List.length_append, List.length_append]
  omega

/-- A text with a dot has a filter whose column is no longer than what stands
before the dot: the segment with the first dot is a leaf, or a group that has
the dot inside. -/
theorem exists_short_column {fuel : Nat} {connective : Connective}
    {number : Option Int} {before rest : List Char} {next after : Int}
    {filters : List Filter}
    (hFuel : (before ++ '.' :: rest).length < fuel) (hDot : '.' ∉ before)
    (h : (readWithin fuel connective number
      (before ++ '.' :: rest)).run.run next = (.ok filters, after)) :
    ∃ f ∈ filters, f.column.length ≤ before.length := by
  induction fuel generalizing connective number before rest next after filters
  with
  | zero => exact absurd hFuel (Nat.not_lt_zero _)
  | succ fuel ih =>
      have hSome : (before ++ '.' :: rest).all isBlank = false := by
        rw [Bool.eq_false_iff]
        intro hAll
        exact absurd (List.all_eq_true.1 hAll '.' (by simp)) (by decide)
      obtain ⟨segments, group, parts, hSplit, rfl, hParts⟩ :=
        parts_of_readWithin hSome h
      have hJoin := joinWith_splitTopLevel hSplit
      obtain ⟨segment, hSegment, front, back, hEq, hFront, hLength⟩ :=
        exists_piece_with_dot hJoin hDot
      obtain ⟨part, hPart, first, last, hRead⟩ :=
        Result.exists_of_mem_forall₂ hParts.flip hSegment
      have hFound : ∃ f ∈ part, f.column.length ≤ front.length := by
        rcases readSegment_eq_ok hRead with ⟨g, hPlain, hReads, rfl⟩ |
          ⟨inside, given, inner, hNested, hInside⟩
        · have hLeaf : Leaf connective group segment g :=
            ⟨depthAfter?_of_splitTopLevel hSplit segment hSegment, hPlain,
              hReads⟩
          obtain ⟨parts⟩ := hLeaf.exists_parts
          obtain ⟨left, right, hTrim, hLeft, -⟩ :=
            Text.exists_eq_trimChars segment
          have hLeftDot : '.' ∉ left := fun hMem =>
            absurd (hLeft '.' hMem) (by decide)
          have hBoth : front ++ '.' :: back =
              left ++ parts.column ++
                '.' :: (parts.token ++ '.' :: parts.value ++ right) := by
            have hText := parts.text_eq
            simp only [← hEq, hText, List.append_assoc, List.cons_append]
              at hTrim ⊢
            exact hTrim
          have hCut : front = left ++ parts.column :=
            eq_of_dot hLeftDot parts.column_plain hFront hBoth
          refine ⟨g, by simp, ?_⟩
          rw [parts.column_eq, String.length_ofList, hCut, List.length_append]
          have hStrip := Text.length_stripChars_le isBlank parts.column
          rw [trimChars]
          omega
        · obtain ⟨keyword, hAround⟩ := exists_around_of_nested? hNested
          obtain ⟨inBefore, inRest, rfl, hInDot, hShort, hLess⟩ :=
            exists_dot_inside hAround hEq hFront
          have hWithin := length_le_joinWith hSegment
          rw [hJoin] at hWithin
          obtain ⟨f, hf, hColumn⟩ := ih (by omega) hInDot hInside
          exact ⟨f, hf, by omega⟩
      obtain ⟨f, hf, hColumn⟩ := hFound
      exact ⟨f, List.mem_flatten.2 ⟨part, hPart, hf⟩,
        Nat.le_trans hColumn hLength⟩

end Group
end TableGate
