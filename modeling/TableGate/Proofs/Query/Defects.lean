import TableGate.Proofs.Filter.Leaves
import TableGate.Proofs.Query.Parts
import TableGate.Proofs.Refusal

/-!
# Groups with a defect are refused as a whole

A group text has a *defect* if somewhere in it, at any depth, parentheses are
not balanced, a segment is neither a nested group nor has two dots, or an `and`
group stands in an `or` group. Nothing else keeps a text from being read. What
is read has one filter for each leaf, in the order of the text, so no condition
is lost: not in an empty segment, not behind a last comma, and not between
parentheses that do not belong together.

`Defective` says where a defect is with the notions of segments and keywords
only, without the reader. `leaves` follows the text through all depths, cut
where these notions say (`isSegmentOf_iff`, `nested?_eq_some_iff`).

## Main results

* `exists_run_of_not_defective`, `not_defective_of_run`: a text is read exactly
  when it has no defect.
* `forall₂_leaves_of_run`: the filters that are read are those of the leaves.
* `Group.read_cases`: both together.
* `conditions_never_dropped`: the same, and requests with a defect are refused
  as a whole.
-/

namespace TableGate

namespace Group

open Text (isBlank trimChars)

/-! ## Defects -/

/-- One of the segments that a text is the comma list of. -/
def IsSegmentOf (segment cs : List Char) : Prop :=
  ∃ segments, segment ∈ segments ∧ (∀ s ∈ segments, IsSegment s) ∧
    Text.joinWith [','] segments = cs

/-- A nested group: a keyword, the inside and a parenthesis, with blanks around
them. -/
def IsNested (connective : Connective) (inner segment : List Char) : Prop :=
  ∃ keyword : Keyword connective, trimChars segment = keyword.around inner

/-- A defect at some depth of the text of a group. -/
inductive Defective : Connective → List Char → Prop
  /-- Some parenthesis has no partner. -/
  | unbalanced {connective : Connective} {cs : List Char}
      (h : ¬Balanced cs) : Defective connective cs
  /-- A segment is no nested group and has fewer than two dots. -/
  | short {connective : Connective} {cs segment : List Char}
      (hSome : cs.all isBlank = false) (hPart : IsSegmentOf segment cs)
      (hPlain : ∀ nested inner, ¬IsNested nested inner segment)
      (hDots : segment.count '.' < 2) : Defective connective cs
  /-- An `and` group stands in an `or` group. -/
  | mixed {cs segment inner : List Char} (hPart : IsSegmentOf segment cs)
      (hNested : IsNested .and inner segment) : Defective .or cs
  /-- A nested group has a defect. -/
  | inside {connective nested : Connective} {cs segment inner : List Char}
      (hPart : IsSegmentOf segment cs) (hNested : IsNested nested inner segment)
      (h : Defective nested inner) : Defective connective cs

theorem isSegmentOf_iff {segment cs : List Char} {segments : List (List Char)}
    (hSplit : splitTopLevel cs = .ok segments) :
    IsSegmentOf segment cs ↔ segment ∈ segments := by
  constructor
  · rintro ⟨others, hMem, hSegments, hJoin⟩
    have hOthers : splitTopLevel cs = .ok others := splitTopLevel_eq_ok_iff.2
      ⟨List.ne_nil_of_mem hMem, hSegments, hJoin⟩
    rwa [Except.ok.inj (hSplit.symm.trans hOthers)]
  · intro hMem
    obtain ⟨-, hSegments, hJoin⟩ := splitTopLevel_eq_ok_iff.1 hSplit
    exact ⟨segments, hMem, hSegments, hJoin⟩

theorem nested?_eq_some_iff {connective : Connective}
    {segment inner : List Char} :
    nested? segment = some (connective, inner) ↔
      IsNested connective inner segment := by
  constructor
  · exact exists_around_of_nested?
  · rintro ⟨keyword, hAround⟩
    obtain ⟨before, after, hText, hBefore, hAfter⟩ :=
      Text.exists_eq_trimChars segment
    rw [hAround] at hText
    rw [hText]
    exact keyword.nested?_around ⟨before, hBefore⟩ ⟨after, hAfter⟩ inner

theorem nested?_eq_none_iff_forall {segment : List Char} :
    nested? segment = none ↔
      ∀ nested inner, ¬IsNested nested inner segment := by
  simp only [← nested?_eq_some_iff, Option.eq_none_iff_forall_not_mem,
    Prod.forall]
  rfl

/-- A text has as many dots as what is left of it without blanks around. -/
theorem count_dot_trimChars (cs : List Char) :
    (trimChars cs).count '.' = cs.count '.' := by
  obtain ⟨before, after, hText, hBefore, hAfter⟩ := Text.exists_eq_trimChars cs
  have hNone : ∀ {blanks : List Char}, (∀ c ∈ blanks, isBlank c = true) →
      blanks.count '.' = 0 := fun hBlanks =>
    List.count_eq_zero.2 fun hMem => absurd (hBlanks '.' hMem) (by decide)
  have hCount := congrArg (List.count '.') hText
  rw [List.count_append, List.count_append, hNone hBefore, hNone hAfter]
    at hCount
  omega

/-- A text without dots is not cut, and a cut takes one dot away. -/
theorem cut?_dot_cases (cs : List Char) :
    (Text.cut? '.' cs = none ∧ cs.count '.' = 0) ∨
    ∃ before rest, Text.cut? '.' cs = some (before, rest) ∧
      cs.count '.' = rest.count '.' + 1 := by
  cases h : Text.cut? '.' cs with
  | none =>
      refine .inl ⟨rfl, List.count_eq_zero.2 fun hMem => ?_⟩
      obtain ⟨before, rest, hText, hDot⟩ := List.eq_append_cons_of_mem hMem
      rw [Text.cut?_eq_some_iff.2 ⟨hText, hDot⟩] at h
      cases h
  | some parts =>
      obtain ⟨hText, hDot⟩ := Text.cut?_eq_some_iff.1 h
      refine .inr ⟨parts.1, parts.2, rfl, ?_⟩
      rw [hText, List.count_append, List.count_eq_zero.2 hDot,
        List.count_cons_self, Nat.zero_add]

/-- A segment is cut in three when it has two dots. -/
theorem exists_cutTriple?_iff {segment : List Char} :
    (∃ parts, Filter.cutTriple? segment = some parts) ↔
      2 ≤ segment.count '.' := by
  rw [← count_dot_trimChars, Filter.cutTriple?]
  rcases cut?_dot_cases (trimChars segment) with ⟨hNone, hCount⟩ |
    ⟨column, rest, hFirst, hCount⟩
  · rw [hNone, hCount]
    simp
  · rw [hFirst, hCount]
    show (∃ parts, (Text.cut? '.' rest >>= fun cut =>
      some (column, cut.1, cut.2)) = some parts) ↔ _
    rcases cut?_dot_cases rest with ⟨hNone, hLast⟩ |
      ⟨token, value, hSecond, hLast⟩
    · rw [hNone, hLast]
      simp
    · rw [hSecond, hLast]
      simp

/-- A segment that is no nested group is read exactly when it has two dots. -/
theorem exists_readFilter_iff {connective : Connective} {group : Int}
    {segment : List Char} :
    (∃ f, readFilter connective group segment = .ok f) ↔
      2 ≤ segment.count '.' := by
  rw [← exists_cutTriple?_iff, readFilter]
  cases Filter.cutTriple? segment with
  | none => simp [refuse]
  | some parts =>
      exact iff_of_true ⟨_, Filter.build_text _ _ _ _ _⟩ ⟨parts, rfl⟩

/-- A blank text has no defect. -/
theorem not_defective_of_blank {connective : Connective} {cs : List Char}
    (hBlank : cs.all isBlank = true) : ¬Defective connective cs := by
  have hAll := List.all_eq_true.1 hBlank
  have hSegment : IsSegment cs :=
    isSegment_of_plain (fun h => absurd (hAll _ h) (by decide))
      (fun h => absurd (hAll _ h) (by decide))
      fun h => absurd (hAll _ h) (by decide)
  have hSplit : splitTopLevel cs = .ok [cs] := splitTopLevel_eq_ok_iff.2
    ⟨List.cons_ne_nil cs [], List.forall_mem_singleton.2 hSegment, rfl⟩
  -- The only segment is blank too, so there is no keyword in it.
  have hNested : ∀ {segment nested inner}, IsSegmentOf segment cs →
      ¬IsNested nested inner segment := by
    rintro segment nested inner hPart ⟨keyword, hAround⟩
    rw [isSegmentOf_iff hSplit, List.mem_singleton] at hPart
    have hLast : ')' ∈ trimChars segment := by
      rw [hAround, Keyword.around]
      simp
    rw [hPart] at hLast
    exact absurd (hAll _ (Text.mem_of_mem_trimChars hLast)) (by decide)
  intro h
  cases h with
  | unbalanced h => exact h hSegment.1
  | short hSome => rw [hBlank] at hSome; cases hSome
  | mixed hPart h => exact hNested hPart h
  | inside hPart h => exact hNested hPart h

/-! ## Leaves -/

/-- The inside of a nested group is shorter than the text around it. -/
theorem length_lt_of_nested? {cs segment inner : List Char}
    {connective : Connective} {segments : List (List Char)}
    (hSplit : splitTopLevel cs = .ok segments) (hMem : segment ∈ segments)
    (hNested : nested? segment = some (connective, inner)) :
    inner.length < cs.length := by
  obtain ⟨keyword, hAround⟩ := exists_around_of_nested? hNested
  have hInner := keyword.length_lt_around inner
  have hTrim := Text.length_stripChars_le isBlank segment
  have hSegment := length_le_joinWith hMem
  rw [joinWith_splitTopLevel hSplit] at hSegment
  rw [← hAround, trimChars] at hInner
  omega

/-- The segments of a text that are no nested groups, at all depths, in the
order of the text. -/
def leaves (cs : List Char) : List (List Char) :=
  if cs.all isBlank then []
  else
    match hSplit : splitTopLevel cs with
    | .error _ => []
    | .ok segments => segments.attach.flatMap fun ⟨segment, hMem⟩ =>
        match hNested : nested? segment with
        | none => [segment]
        | some (_, inner) =>
            have := length_lt_of_nested? hSplit hMem hNested
            leaves inner
termination_by cs.length

/-- The leaves of one segment: itself, or those inside. -/
def segmentLeaves (segment : List Char) : List (List Char) :=
  match nested? segment with
  | none => [segment]
  | some (_, inner) => leaves inner

theorem leaves_of_blank {cs : List Char} (h : cs.all isBlank = true) :
    leaves cs = [] := by
  rw [leaves, if_pos h]

theorem leaves_eq {cs : List Char} {segments : List (List Char)}
    (hSome : cs.all isBlank = false)
    (hSplit : splitTopLevel cs = .ok segments) :
    leaves cs = segments.flatMap segmentLeaves := by
  rw [leaves, if_neg (by simp [hSome])]
  split
  · next h =>
      rw [hSplit] at h
      cases h
  · next others h =>
      obtain rfl := Except.ok.inj (hSplit.symm.trans h)
      conv_rhs => rw [← List.attach_map_subtype_val segments, List.flatMap_map]
      congr 1
      funext ⟨segment, hMem⟩
      unfold segmentLeaves
      dsimp only
      split
      · next hPlain => rw [hPlain]
      · next hNested => rw [hNested]

/-- A filter that is read from a leaf. -/
def ReadFrom (segment : List Char) (f : Filter) : Prop :=
  ∃ connective group, Leaf connective group segment f

/-! ## What is read has no defect -/

variable {fuel : Nat} {connective : Connective} {number : Option Int}
  {cs : List Char} {next after : Int} {filters : List Filter}

/-- What is read is balanced, and each of its segments was read. -/
theorem parts_read_of_run (hSome : cs.all isBlank = false)
    (h : (readWithin (fuel + 1) connective number cs).run.run next =
      (.ok filters, after)) :
    ∃ segments group, splitTopLevel cs = .ok segments ∧
      ∀ segment ∈ segments, ∃ part first last,
        (readSegment (readWithin fuel) connective group segment).run.run first =
          (.ok part, last) := by
  obtain ⟨segments, group, parts, hSplit, -, hParts⟩ :=
    parts_of_readWithin hSome h
  refine ⟨segments, group, hSplit, fun segment hMem => ?_⟩
  obtain ⟨part, -, first, last, hRead⟩ :=
    Result.exists_of_mem_forall₂ hParts.flip hMem
  exact ⟨part, first, last, hRead⟩

/-- A text with a defect is not read: by induction on the depth of the groups,
which the fuel bounds. -/
theorem not_defective_of_run (hFuel : cs.length < fuel)
    (h : (readWithin fuel connective number cs).run.run next =
      (.ok filters, after)) : ¬Defective connective cs := by
  induction fuel generalizing connective number cs next after filters with
  | zero => exact absurd hFuel (Nat.not_lt_zero _)
  | succ fuel ih =>
      intro hDefective
      have hSome : cs.all isBlank = false := by
        by_contra hBlank
        exact not_defective_of_blank (by simpa using hBlank) hDefective
      obtain ⟨segments, group, hSplit, hParts⟩ := parts_read_of_run hSome h
      cases hDefective with
      | unbalanced hNot => exact hNot (exists_splitTopLevel_iff.1 ⟨_, hSplit⟩)
      | short _ hPart hPlain hDots =>
          obtain ⟨part, first, last, hRead⟩ :=
            hParts _ ((isSegmentOf_iff hSplit).1 hPart)
          have hNone := nested?_eq_none_iff_forall.2 hPlain
          rcases readSegment_eq_ok hRead with ⟨f, -, hReads, -⟩ |
            ⟨inside, given, inner, hNested, -⟩
          · have hTwo := exists_readFilter_iff.1 ⟨f, hReads⟩
            omega
          · rw [hNone] at hNested
            cases hNested
      | mixed hPart hNested =>
          obtain ⟨part, first, last, hRead⟩ :=
            hParts _ ((isSegmentOf_iff hSplit).1 hPart)
          rw [readSegment, nested?_eq_some_iff.2 hNested] at hRead
          cases hRead
      | inside hPart hNested hInside =>
          have hMem := (isSegmentOf_iff hSplit).1 hPart
          have hSome := nested?_eq_some_iff.2 hNested
          have hShorter := length_lt_of_nested? hSplit hMem hSome
          obtain ⟨part, first, last, hRead⟩ := hParts _ hMem
          rcases readSegment_eq_ok hRead with ⟨f, hPlain, -, -⟩ |
            ⟨inside, given, inner, hSame, hInner⟩
          · rw [hSome] at hPlain
            cases hPlain
          · rw [hSome] at hSame
            cases hSame
            exact ih (by omega) hInner hInside

/-- The filters that are read are those of the leaves, in their order. -/
theorem forall₂_leaves_of_run (hFuel : cs.length < fuel)
    (h : (readWithin fuel connective number cs).run.run next =
      (.ok filters, after)) : List.Forall₂ ReadFrom (leaves cs) filters := by
  induction fuel generalizing connective number cs next after filters with
  | zero => exact absurd hFuel (Nat.not_lt_zero _)
  | succ fuel ih =>
      cases hBlank : cs.all isBlank with
      | true =>
          rw [readWithin, if_pos hBlank] at h
          cases h
          rw [leaves_of_blank hBlank]
          exact .nil
      | false =>
          obtain ⟨segments, group, parts, hSplit, rfl, hParts⟩ :=
            parts_of_readWithin hBlank h
          rw [leaves_eq hBlank hSplit, List.flatMap_def]
          refine List.rel_flatten (List.forall₂_map_left_iff.2 ?_)
          refine List.Forall₂.imp ?_ ((List.forall₂_and_left segments parts).2
            ⟨fun _ hMem => hMem, hParts⟩)
          rintro segment part ⟨hMem, first, last, hRead⟩
          rcases readSegment_eq_ok hRead with ⟨f, hPlain, hReads, rfl⟩ |
            ⟨inside, given, inner, hNested, hInner⟩
          · rw [segmentLeaves, hPlain]
            exact .cons ⟨connective, group, depthAfter?_of_splitTopLevel hSplit
              segment hMem, hPlain, hReads⟩ .nil
          · have hShorter := length_lt_of_nested? hSplit hMem hNested
            rw [segmentLeaves, hNested]
            exact ih (by omega) hInner

/-! ## What has no defect is read -/

theorem exists_run_openNumber (connective : Connective) (number : Option Int)
    (next : Int) : ∃ group after,
      (openNumber connective number).run.run next = (.ok group, after) := by
  cases number with
  | some group => exact ⟨group, next, by cases connective <;> rfl⟩
  | none =>
      cases connective with
      | or => exact ⟨next, next + 1, rfl⟩
      | and => exact ⟨0, next, rfl⟩

/-- A text without a defect is read, from any number on and in any group. -/
theorem exists_run_of_not_defective (hFuel : cs.length < fuel)
    (h : ¬Defective connective cs) (number : Option Int) (next : Int) :
    ∃ filters after, (readWithin fuel connective number cs).run.run next =
      (.ok filters, after) := by
  induction fuel generalizing connective number cs next with
  | zero => exact absurd hFuel (Nat.not_lt_zero _)
  | succ fuel ih =>
      cases hBlank : cs.all isBlank with
      | true =>
          rw [readWithin, if_pos hBlank]
          exact ⟨[], next, rfl⟩
      | false =>
          have hBalanced : Balanced cs := by
            by_contra hNot
            exact h (.unbalanced hNot)
          obtain ⟨segments, hSplit⟩ := exists_splitTopLevel_iff.2 hBalanced
          obtain ⟨group, middle, hOpen⟩ :=
            exists_run_openNumber connective number next
          have hSegment : ∀ segment ∈ segments, ∀ first, ∃ part last,
              (readSegment (readWithin fuel) connective group
                segment).run.run first = (.ok part, last) := by
            intro segment hMem first
            have hPart := (isSegmentOf_iff hSplit).2 hMem
            have hInside : ∀ {nested inner},
                nested? segment = some (nested, inner) → ∀ number,
                ∃ part last, (readWithin fuel nested number
                  inner).run.run first = (.ok part, last) := by
              intro nested inner hNested number
              have hShorter := length_lt_of_nested? hSplit hMem hNested
              exact ih (by omega)
                (fun hIn => h (.inside hPart (nested?_eq_some_iff.1 hNested)
                  hIn)) number first
            unfold readSegment
            split
            · next hPlain =>
                have hDots : 2 ≤ segment.count '.' := by
                  by_contra hFew
                  exact h (.short hBlank hPart
                    (nested?_eq_none_iff_forall.1 hPlain) (by omega))
                obtain ⟨f, hRead⟩ := exists_readFilter_iff.2 hDots
                exact ⟨[f], first, by
                  rw [hRead]
                  rfl⟩
            · next inner hNested =>
                cases connective with
                | or => exact absurd (.mixed hPart
                    (nested?_eq_some_iff.1 hNested)) h
                | and => exact hInside hNested none
            · next inner hNested =>
                cases connective with
                | or => exact hInside hNested (some group)
                | and => exact hInside hNested none
          obtain ⟨parts, last, hParts⟩ :=
            Numbering.exists_run_mapM hSegment middle
          rw [readWithin_succ fuel connective number hBlank]
          refine ⟨parts.flatten, last, Numbering.run_bind_eq_ok.2
            ⟨segments, next, ?_, Numbering.run_bind_eq_ok.2
              ⟨group, middle, hOpen, Numbering.run_bind_eq_ok.2
                ⟨parts, last, hParts, rfl⟩⟩⟩⟩
          rw [Numbering.run_lift, hSplit]

/-- The text of a group has a defect and is refused, or it has none and is
read, one filter for each leaf. -/
theorem read_cases (connective : Connective) (s : String)
    (number : Option Int) (next : Int) :
    (Defective connective s.toList ∧ ∃ cause after,
      (read connective s number).run.run next =
        (.error (.invalid cause), after)) ∨
    (¬Defective connective s.toList ∧ ∃ filters after,
      (read connective s number).run.run next = (.ok filters, after) ∧
      filters.length = (leaves s.toList).length ∧
      List.Forall₂ ReadFrom (leaves s.toList) filters) := by
  have hFuel := Nat.lt_succ_self s.toList.length
  have hOnly := readWithin_onlyRefuses (s.toList.length + 1) connective number
    s.toList next
  rw [read]
  rcases hRun : (readWithin (s.toList.length + 1) connective number
    s.toList).run.run next with ⟨result, after⟩
  rw [hRun] at hOnly
  cases result with
  | error e =>
      obtain ⟨cause, rfl⟩ := hOnly e rfl
      refine .inl ⟨?_, cause, after, rfl⟩
      by_contra hNot
      obtain ⟨filters, last, hRead⟩ :=
        exists_run_of_not_defective hFuel hNot number next
      rw [hRun] at hRead
      cases hRead
  | ok filters =>
      have hLeaves := forall₂_leaves_of_run hFuel hRun
      exact .inr ⟨not_defective_of_run hFuel hRun, filters, after, rfl,
        hLeaves.length_eq.symm, hLeaves⟩

end Group

/-! ## Requests -/

/-- Whether a part of a request is a group whose outer parentheses do not
belong together or whose text has a defect. -/
def Part.HasDefect : Part → Prop
  | .group connective text =>
      ∀ inner, Group.unwrap connective text = .ok inner →
        Group.Defective connective inner.toList
  | _ => False

/-- A part with a defect is not read. -/
theorem Part.not_hasDefect_of_run {part : Part} {own : List Filter}
    {next after : Int} (h : part.read.run.run next = (.ok own, after)) :
    ¬part.HasDefect := by
  cases part with
  | group connective text =>
      intro hDefect
      obtain ⟨inner, middle, hUnwrap, hRead⟩ := Numbering.run_bind_eq_ok.1 h
      rw [Numbering.run_lift] at hUnwrap
      exact Group.not_defective_of_run (Nat.lt_succ_self _) hRead
        (hDefect inner (congrArg Prod.fst hUnwrap))
  | _ => exact id

/-- No part of a request that is read has a defect. -/
theorem Part.Reads.not_hasDefect {parts : List Part} {next after : Int}
    {filters : List Filter} (h : Part.Reads parts next filters after)
    {part : Part} (hMem : part ∈ parts) : ¬part.HasDefect := by
  obtain ⟨segments, hRun, -⟩ := h
  obtain ⟨own, -, first, last, hRead⟩ :=
    Result.exists_of_mem_forall₂ (Numbering.forall₂_of_run_mapM hRun).flip hMem
  exact Part.not_hasDefect_of_run hRead

/-- The text of a group is refused if it has a defect. Otherwise it is read,
and there is one filter for each leaf, in the order of the text. A request with
a group that has a defect is refused as a whole. -/
theorem conditions_never_dropped :
    (∀ connective s number next,
      (Group.Defective connective s.toList ∧ ∃ cause after,
        (Group.read connective s number).run.run next =
          (.error (.invalid cause), after)) ∨
      (¬Group.Defective connective s.toList ∧ ∃ filters after,
        (Group.read connective s number).run.run next = (.ok filters, after) ∧
        filters.length = (Group.leaves s.toList).length ∧
        List.Forall₂ Group.ReadFrom (Group.leaves s.toList) filters)) ∧
    (∀ document : Document, ∀ part ∈ document.parts, part.HasDefect →
      ∃ cause, document.compile = .error (.invalid cause)) ∧
    ∀ items : Items, ∀ part ∈ items.parts, part.HasDefect →
      ∃ cause, items.compile = .error (.invalid cause) := by
  refine ⟨Group.read_cases, fun document part hMem hDefect => ?_,
    fun items part hMem hDefect => ?_⟩
  · refine (Document.compile_onlyRefuses document).exists_invalid
      fun params h => ?_
    obtain ⟨after, hReads⟩ := Document.reads_of_compile h
    exact hReads.not_hasDefect hMem hDefect
  · refine (Items.compile_onlyRefuses items).exists_invalid fun params h => ?_
    obtain ⟨after, hReads⟩ := Items.reads_of_compile h
    exact hReads.not_hasDefect hMem hDefect

/-- A group that ends with an empty segment, two levels deep. -/
def Document.withEmptySegment : Document where
  filters := [⟨"a", "eq", .int 1⟩]
  andFilters := ["(b.eq.2,or(c.eq.3,))"]

/-- A group whose first parenthesis is not closed by its last. -/
def Items.withStrayParentheses : Items :=
  [("a", "eq.1"), ("or", "(b.eq.2,or(c.eq.3)x(d.eq.4))")]

/-- A group between two filters. -/
def Group.nestedText : String := "b.eq.2,or(c.eq.3,d.eq.4),e.eq.5"

/-- The filters of a nested group stand where its text has them, and a
condition is not dropped with the rest of a request. -/
theorem conditions_never_dropped_nested :
    (∃ filters after,
      (Group.read .and Group.nestedText none).run.run 1 =
        (.ok filters, after) ∧
      filters.map (·.column) = ["b", "c", "d", "e"] ∧
      filters.length = (Group.leaves Group.nestedText.toList).length ∧
      List.Forall₂ Group.ReadFrom (Group.leaves Group.nestedText.toList)
        filters) ∧
    (Part.group .and "(b.eq.2,or(c.eq.3,))" ∈
        Document.withEmptySegment.parts ∧
      ∃ cause, Document.withEmptySegment.compile =
        .error (.invalid cause)) ∧
    (Part.group .or "(b.eq.2,or(c.eq.3)x(d.eq.4))" ∈
        Items.withStrayParentheses.parts ∧
      ∃ cause, Items.withStrayParentheses.compile =
        .error (.invalid cause)) := by
  have hColumns : (((Group.read .and Group.nestedText none).run.run
      1).1.toOption.map fun filters => filters.map (·.column)) =
        some ["b", "c", "d", "e"] := by
    decide +kernel
  obtain ⟨filters, after, hRun, hLength, hLeaves⟩ : ∃ filters after,
      (Group.read .and Group.nestedText none).run.run 1 =
        (.ok filters, after) ∧
      filters.length = (Group.leaves Group.nestedText.toList).length ∧
      List.Forall₂ Group.ReadFrom (Group.leaves Group.nestedText.toList)
        filters := by
    rcases conditions_never_dropped.1 .and Group.nestedText none 1
      with ⟨-, cause, after, hRefused⟩ | ⟨-, hRead⟩
    · rw [hRefused] at hColumns
      cases hColumns
    · exact hRead
  rw [hRun] at hColumns
  have hEmpty : (Part.group .and "(b.eq.2,or(c.eq.3,))").HasDefect := by
    intro inner hUnwrap
    obtain rfl := Except.ok.inj
      ((rfl : _ = Except.ok "b.eq.2,or(c.eq.3,)").symm.trans hUnwrap)
    have hOuter : Group.splitTopLevel "b.eq.2,or(c.eq.3,)".toList =
        .ok ["b.eq.2".toList, "or(c.eq.3,)".toList] := rfl
    have hInner : Group.splitTopLevel "c.eq.3,".toList =
        .ok ["c.eq.3".toList, []] := rfl
    have hNested : Group.nested? "or(c.eq.3,)".toList =
        some (.or, "c.eq.3,".toList) := by
      decide +kernel
    exact .inside ((Group.isSegmentOf_iff hOuter).2
      (List.mem_cons_of_mem _ List.mem_cons_self))
      (Group.nested?_eq_some_iff.1 hNested)
      (.short (by decide) ((Group.isSegmentOf_iff hInner).2
        (List.mem_cons_of_mem _ List.mem_cons_self))
        (Group.nested?_eq_none_iff_forall.1 (by decide +kernel)) (by decide))
  have hStray : (Part.group .or "(b.eq.2,or(c.eq.3)x(d.eq.4))").HasDefect := by
    intro inner hUnwrap
    obtain rfl := Except.ok.inj
      ((rfl : _ = Except.ok "b.eq.2,or(c.eq.3)x(d.eq.4)").symm.trans hUnwrap)
    have hOuter : Group.splitTopLevel "b.eq.2,or(c.eq.3)x(d.eq.4)".toList =
        .ok ["b.eq.2".toList, "or(c.eq.3)x(d.eq.4)".toList] := rfl
    have hNested : Group.nested? "or(c.eq.3)x(d.eq.4)".toList =
        some (.or, "c.eq.3)x(d.eq.4".toList) := by
      decide +kernel
    exact .inside ((Group.isSegmentOf_iff hOuter).2
      (List.mem_cons_of_mem _ List.mem_cons_self))
      (Group.nested?_eq_some_iff.1 hNested)
      (.unbalanced (by decide +kernel))
  have hDocument : Part.group .and "(b.eq.2,or(c.eq.3,))" ∈
      Document.withEmptySegment.parts := by
    simp [Document.parts, Document.withEmptySegment]
  have hItems : Part.group .or "(b.eq.2,or(c.eq.3)x(d.eq.4))" ∈
      Items.withStrayParentheses.parts := by
    refine List.mem_append_right _ (List.mem_singleton.2 rfl)
  exact ⟨⟨filters, after, hRun, Option.some.inj hColumns, hLength, hLeaves⟩,
    ⟨hDocument, conditions_never_dropped.2.1 _ _ hDocument hEmpty⟩, hItems,
    conditions_never_dropped.2.2 _ _ hItems hStray⟩

end TableGate
