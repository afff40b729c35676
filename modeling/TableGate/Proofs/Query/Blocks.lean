import TableGate.Proofs.Query.Defects

/-!
# The disjunctions of a group text

Which filters of a group form a disjunction is said here without numbers. A
text consists of *blocks* once its `and` groups are dissolved: leaves outside
of `or` groups, and `or` groups that no other `or` group is around, each with
all leaves inside, however deep. Reading gives one filter for each leaf, and
draws one number for each `or` group among the blocks, in the order of the
text. So the numbers of the filters say which block a filter is of, and nothing
else.

## Main results

* `flatMap_leaves_blocks`: the blocks of a text keep all of its leaves, in
  their order.
* `Numbered.agreeing`: where blocks are numbered in turn, numbers are shared
  inside a block and not between blocks.
* `numbered_of_run`: reading numbers the blocks of a text in turn.
-/

namespace TableGate

open Result (bind_eq_ok pure_eq_ok)

/-! ## Blocks -/

namespace Group

open Text (isBlank)

/-- A part of a group whose `and` groups are dissolved: a leaf outside of `or`
groups, or an `or` group that no other `or` group is around, with all leaves
inside. -/
inductive Block (α : Type)
  | alone (leaf : α)
  | anyOf (leaves : List α)

namespace Block

variable {α : Type}

/-- The leaves of a block. -/
def leaves : Block α → List α
  | alone leaf => [leaf]
  | anyOf leaves => leaves

/-- The `or` group that the leaves of a block at a place stand in, named by
the place. -/
def origin (place : Nat) : Block α → Option Nat
  | alone _ => none
  | anyOf _ => some place

/-- The leaves of blocks in their order, each with the `or` group it stands
in. The first block has the place given. -/
def sources : Nat → List (Block α) → List (α × Option Nat)
  | _, [] => []
  | place, block :: others =>
      block.leaves.map (·, block.origin place) ++ sources (place + 1) others

/-- For each leaf of the blocks the `or` group it stands in. -/
def origins (place : Nat) (blocks : List (Block α)) : List (Option Nat) :=
  (sources place blocks).map Prod.snd

theorem origins_cons (place : Nat) (block : Block α)
    (others : List (Block α)) :
    origins place (block :: others) =
      List.replicate block.leaves.length (block.origin place) ++
        origins (place + 1) others := by
  rw [origins, sources, List.map_append, List.map_map, origins]
  exact congrArg (· ++ _) List.map_const'

theorem map_fst_sources (place : Nat) (blocks : List (Block α)) :
    (sources place blocks).map Prod.fst = blocks.flatMap leaves := by
  induction blocks generalizing place with
  | nil => rfl
  | cons block others ih =>
      rw [sources, List.map_append, List.map_map, ih, List.flatMap_cons]
      exact congrArg (· ++ _) (List.map_id block.leaves)

end Block

/-- The blocks of the text of a group. -/
def blocks : Connective → List Char → List (Block (List Char))
  | .or, cs => [.anyOf (leaves cs)]
  | .and, cs =>
      if cs.all isBlank then []
      else
        match hSplit : splitTopLevel cs with
        | .error _ => []
        | .ok segments => segments.attach.flatMap fun ⟨segment, hMem⟩ =>
            match hNested : nested? segment with
            | none => [.alone segment]
            | some (nested, inner) =>
                have := length_lt_of_nested? hSplit hMem hNested
                blocks nested inner
termination_by _ cs => cs.length

/-- The blocks of one segment of an `and` group: itself, or those inside. -/
def segmentBlocks (segment : List Char) : List (Block (List Char)) :=
  match nested? segment with
  | none => [.alone segment]
  | some (nested, inner) => blocks nested inner

theorem blocks_or (cs : List Char) :
    blocks .or cs = [.anyOf (leaves cs)] := by
  rw [blocks]

theorem blocks_of_blank {cs : List Char} (h : cs.all isBlank = true) :
    blocks .and cs = [] := by
  rw [blocks, if_pos h]

theorem blocks_eq {cs : List Char} {segments : List (List Char)}
    (hSome : cs.all isBlank = false)
    (hSplit : splitTopLevel cs = .ok segments) :
    blocks .and cs = segments.flatMap segmentBlocks := by
  rw [blocks, if_neg (by simp [hSome])]
  split
  · next h =>
      rw [hSplit] at h
      cases h
  · next others h =>
      obtain rfl := Except.ok.inj (hSplit.symm.trans h)
      conv_rhs => rw [← List.attach_map_subtype_val segments, List.flatMap_map]
      congr 1
      funext ⟨segment, hMem⟩
      unfold segmentBlocks
      dsimp only
      split
      · next hPlain => rw [hPlain]
      · next hNested => rw [hNested]

/-- A text that is not split has no leaves. -/
theorem leaves_of_error {cs : List Char} {e : Error}
    (h : splitTopLevel cs = .error e) : leaves cs = [] := by
  rw [leaves]
  split
  · rfl
  · split
    · rfl
    · next segments hSplit =>
        rw [h] at hSplit
        cases hSplit

/-- Nor has it blocks, as an `and` group. -/
theorem blocks_of_error {cs : List Char} {e : Error}
    (h : splitTopLevel cs = .error e) : blocks .and cs = [] := by
  rw [blocks]
  split
  · rfl
  · split
    · rfl
    · next segments hSplit =>
        rw [h] at hSplit
        cases hSplit

/-- The leaves of the blocks are the leaves of the text. -/
theorem flatMap_leaves_blocks (connective : Connective) (cs : List Char) :
    (blocks connective cs).flatMap Block.leaves = leaves cs := by
  cases connective with
  | or => rw [blocks_or, List.flatMap_singleton, Block.leaves]
  | and =>
      cases hBlank : cs.all isBlank with
      | true =>
          rw [blocks_of_blank hBlank, leaves_of_blank hBlank, List.flatMap_nil]
      | false =>
          cases hSplit : splitTopLevel cs with
          | error e =>
              rw [blocks_of_error hSplit, leaves_of_error hSplit,
                List.flatMap_nil]
          | ok segments =>
              rw [blocks_eq hBlank hSplit, leaves_eq hBlank hSplit,
                List.flatMap_assoc]
              refine List.flatMap_congr fun segment hMem => ?_
              cases hNested : nested? segment with
              | none =>
                  rw [segmentBlocks, segmentLeaves, hNested]
                  exact List.flatMap_singleton _ _
              | some found =>
                  have hShorter := length_lt_of_nested? hSplit hMem hNested
                  rw [segmentBlocks, segmentLeaves, hNested]
                  exact flatMap_leaves_blocks found.1 found.2
termination_by cs.length

/-! ## The numbers of blocks -/

/-- The filters of blocks, one for each leaf, when numbers are drawn from one
to another: a leaf that stands alone has no number, and an `or` group draws one
for all of its filters. An `or` group with nothing but blanks draws none. -/
inductive Numbered {α : Type} :
    Int → List (Block α) → List Filter → Int → Prop
  | nil (next : Int) : Numbered next [] [] next
  | alone {next after : Int} {leaf : α} {blocks : List (Block α)} {f : Filter}
      {filters : List Filter} (hOr : f.isOr = false) (hGroup : f.group = 0)
      (rest : Numbered next blocks filters after) :
      Numbered next (.alone leaf :: blocks) (f :: filters) after
  | anyOf {next after : Int} {leaves : List α} {blocks : List (Block α)}
      {part filters : List Filter} (hLength : part.length = leaves.length)
      (hPart : ∀ f ∈ part, f.isOr = true ∧ f.group = next)
      (rest : Numbered (next + 1) blocks filters after) :
      Numbered next (.anyOf leaves :: blocks) (part ++ filters) after
  | blank {next after : Int} {blocks : List (Block α)} {filters : List Filter}
      (rest : Numbered next blocks filters after) :
      Numbered next (.anyOf [] :: blocks) filters after

/-- A filter whose `or` group has a place from one on and a number in a range,
or that has neither. -/
inductive Marked (place : Nat) (next after : Int) :
    Option Nat → Filter → Prop
  | alone {f : Filter} (hOr : f.isOr = false) (hGroup : f.group = 0) :
      Marked place next after none f
  | anyOf {q : Nat} {f : Filter} (hPlace : place ≤ q) (hOr : f.isOr = true)
      (hLow : next ≤ f.group) (hHigh : f.group < after) :
      Marked place next after (some q) f

theorem Marked.isOr_iff {place : Nat} {next after : Int}
    {origin : Option Nat} {f : Filter} (hNext : 0 < next)
    (h : Marked place next after origin f) :
    f.isOr = true ↔ f.group ≠ 0 := by
  cases h with
  | alone hOr hGroup =>
      rw [hOr, hGroup]
      exact iff_of_false Bool.false_ne_true (fun hSome => hSome rfl)
  | anyOf _ hOr hLow _ => exact iff_of_true hOr (by omega)

theorem Marked.range {place : Nat} {next after : Int} {origin : Option Nat}
    {f : Filter} (h : Marked place next after origin f)
    (hSome : f.group ≠ 0) : next ≤ f.group ∧ f.group < after := by
  cases h with
  | alone _ hGroup => exact absurd hGroup hSome
  | anyOf _ _ hLow hHigh => exact ⟨hLow, hHigh⟩

/-- Two filters share a number exactly if they have the same `or` group. -/
def Agree (x y : Option Nat × Filter) : Prop :=
  (x.2.group ≠ 0 ∧ x.2.group = y.2.group) ↔
    ∃ place, x.1 = some place ∧ y.1 = some place

theorem Agree.symm {x y : Option Nat × Filter} (h : Agree x y) :
    Agree y x := by
  constructor
  · rintro ⟨hSome, hSame⟩
    obtain ⟨place, hx, hy⟩ := h.1 ⟨hSame ▸ hSome, hSame.symm⟩
    exact ⟨place, hy, hx⟩
  · rintro ⟨place, hy, hx⟩
    obtain ⟨hSome, hSame⟩ := h.2 ⟨place, hx, hy⟩
    exact ⟨hSame ▸ hSome, hSame.symm⟩

theorem agree_of_alone {x y : Option Nat × Filter} (hOrigin : x.1 = none)
    (hGroup : x.2.group = 0) : Agree x y := by
  constructor
  · rintro ⟨hSome, -⟩
    exact absurd hGroup hSome
  · rintro ⟨place, hPlace, -⟩
    rw [hOrigin] at hPlace
    cases hPlace

/-- Filters of a later block have another place and another number. -/
theorem agree_of_later {x y : Option Nat × Filter} {place : Nat}
    {next after : Int} (hPlace : x.1 = some place) (hGroup : x.2.group = next)
    (h : Marked (place + 1) (next + 1) after y.1 y.2) : Agree x y := by
  obtain ⟨origin, g⟩ := y
  constructor
  · rintro ⟨hSome, hSame⟩
    cases h with
    | alone _ hNone => exact absurd (hSame.trans hNone) hSome
    | anyOf _ _ hLow _ => omega
  · rintro ⟨p, hx, hy⟩
    obtain rfl : place = p := Option.some.inj (hPlace.symm.trans hx)
    cases h with
    | alone => cases hy
    | anyOf hLater =>
        obtain rfl := Option.some.inj hy
        omega

/-- Any two of the filters, with their origins, agree. -/
def Agreeing (entries : List (Option Nat × Filter)) : Prop :=
  ∀ x ∈ entries, ∀ y ∈ entries, Agree x y

theorem Agreeing.append {first others : List (Option Nat × Filter)}
    (hFirst : Agreeing first) (hOthers : Agreeing others)
    (h : ∀ x ∈ first, ∀ y ∈ others, Agree x y) :
    Agreeing (first ++ others) := by
  intro x hx y hy
  rcases List.mem_append.1 hx with hx | hx
  · rcases List.mem_append.1 hy with hy | hy
    · exact hFirst x hx y hy
    · exact h x hx y hy
  · rcases List.mem_append.1 hy with hy | hy
    · exact (h y hy x hx).symm
    · exact hOthers x hx y hy

theorem Marked.mono {place other : Nat} {low high after : Int}
    {origin : Option Nat} {f : Filter} (hPlace : place ≤ other)
    (hLow : low ≤ high) (h : Marked other high after origin f) :
    Marked place low after origin f := by
  cases h with
  | alone hOr hGroup => exact .alone hOr hGroup
  | anyOf hAt hOr hFrom hTo =>
      exact .anyOf (Nat.le_trans hPlace hAt) hOr (Int.le_trans hLow hFrom) hTo

namespace Numbered

variable {α : Type} {next middle after : Int} {first others : List (Block α)}
  {filters rest : List Filter}

theorem append (h : Numbered next first filters middle)
    (hOthers : Numbered middle others rest after) :
    Numbered next (first ++ others) (filters ++ rest) after := by
  induction h with
  | nil => exact hOthers
  | alone hOr hGroup _ ih => exact .alone hOr hGroup (ih hOthers)
  | anyOf hLength hPart _ ih =>
      rw [List.append_assoc]
      exact .anyOf hLength hPart (ih hOthers)
  | blank _ ih => exact .blank (ih hOthers)

theorem le (h : Numbered next first filters after) : next ≤ after := by
  induction h with
  | nil => exact Int.le_refl _
  | alone _ _ _ ih => exact ih
  | anyOf _ _ _ ih => omega
  | blank _ ih => exact ih

/-- An `or` group on its own. -/
theorem anyOf_singleton {leaves : List α}
    (hLength : filters.length = leaves.length)
    (h : ∀ f ∈ filters, f.isOr = true ∧ f.group = next) :
    Numbered next [.anyOf leaves] filters (next + 1) := by
  rw [← List.append_nil filters]
  exact .anyOf hLength h (.nil (next + 1))

/-- There is one filter for each leaf, marked as its origin says. -/
theorem marked (h : Numbered next first filters after) (place : Nat) :
    List.Forall₂ (Marked place next after) (Block.origins place first)
      filters := by
  induction h generalizing place with
  | nil => exact .nil
  | alone hOr hGroup _ ih =>
      rw [Block.origins_cons]
      exact .cons (.alone hOr hGroup)
        ((ih (place + 1)).imp fun _ _ => .mono (Nat.le_succ _) (Int.le_refl _))
  | @anyOf next after leaves blocks part filters hLength hPart rest ih =>
      rw [Block.origins_cons, Block.leaves, ← hLength]
      refine List.rel_append ?_ ((ih (place + 1)).imp fun _ _ =>
        .mono (Nat.le_succ _) (Int.le_of_lt (Int.lt_succ next)))
      rw [← List.map_const', List.forall₂_map_left_iff, List.forall₂_same]
      intro f hf
      obtain ⟨hOr, hGroup⟩ := hPart f hf
      have hRest := rest.le
      exact .anyOf (Nat.le_refl _) hOr (by omega) (by omega)
  | blank _ ih =>
      rw [Block.origins_cons]
      exact (ih (place + 1)).imp fun _ _ =>
        .mono (Nat.le_succ _) (Int.le_refl _)

/-- Among the filters of blocks numbers are shared exactly inside a block. -/
theorem agreeing (h : Numbered next first filters after) (hNext : 0 < next)
    (place : Nat) :
    Agreeing ((Block.origins place first).zip filters) := by
  induction h generalizing place with
  | nil => exact fun x hx => absurd hx List.not_mem_nil
  | @alone next after leaf blocks f filters hOr hGroup _ ih =>
      rw [Block.origins_cons]
      show Agreeing ([(none, f)] ++ (Block.origins (place + 1) blocks).zip
        filters)
      have hAlone : ∀ x ∈ [((none : Option Nat), f)], ∀ y, Agree x y := by
        intro x hx y
        rw [List.mem_singleton.1 hx]
        exact agree_of_alone rfl hGroup
      exact .append (fun x hx y _ => hAlone x hx y) (ih hNext (place + 1))
        (fun x hx y _ => hAlone x hx y)
  | @anyOf next after leaves blocks part filters hLength hPart rest ih =>
      have hHere : ∀ x ∈ (List.replicate leaves.length (some place)).zip part,
          x.1 = some place ∧ x.2.group = next := fun x hx =>
        ⟨List.eq_of_mem_replicate (List.of_mem_zip hx).1,
          (hPart x.2 (List.of_mem_zip hx).2).2⟩
      rw [Block.origins_cons, Block.leaves, List.zip_append (by simp [hLength])]
      refine .append ?_ (ih (by omega) (place + 1)) ?_
      · intro x hx y hy
        obtain ⟨hPlace, hGroup⟩ := hHere x hx
        obtain ⟨hOther, hSame⟩ := hHere y hy
        exact iff_of_true ⟨by omega, hGroup.trans hSame.symm⟩
          ⟨place, hPlace, hOther⟩
      · intro x hx y hy
        obtain ⟨hPlace, hGroup⟩ := hHere x hx
        exact agree_of_later hPlace hGroup
          (List.forall₂_zip (rest.marked (place + 1)) hy)
  | blank _ ih =>
      rw [Block.origins_cons]
      exact ih hNext (place + 1)

end Numbered

/-! ## The numbers of a text -/

variable {fuel : Nat} {connective : Connective} {number : Option Int}
  {cs : List Char} {group next after : Int} {filters : List Filter}

theorem readFilter_marks {segment : List Char} {f : Filter}
    (h : readFilter connective group segment = .ok f) :
    f.isOr = (connective == .or) ∧ f.group = group := by
  unfold readFilter at h
  split at h
  · obtain ⟨value, -, hFilter⟩ := bind_eq_ok.1 h
    rw [← pure_eq_ok.1 hFilter]
    exact ⟨rfl, rfl⟩
  · exact absurd h Result.refuse_ne_ok

/-- A segment of a group is read as one filter, or as a nested group that
carries on the number of the group if it has one. -/
theorem step_of_run
    {readInside : Connective → Option Int → List Char →
      Numbering (List Filter)}
    {segment : List Char} {part : List Filter}
    (h : (readSegment readInside connective group segment).run.run next =
      (.ok part, after)) :
    (∃ f, nested? segment = none ∧ part = [f] ∧ after = next ∧
      f.isOr = (connective == .or) ∧ f.group = group) ∨
    ∃ nested inner, nested? segment = some (nested, inner) ∧
      (connective = .or → nested = .or) ∧
      (readInside nested (carried connective group) inner).run.run next =
        (.ok part, after) := by
  unfold readSegment at h
  split at h
  · next hPlain =>
      obtain ⟨f, middle, hOne, hLast⟩ := Numbering.run_bind_eq_ok.1 h
      rw [Numbering.run_lift, Prod.mk.injEq] at hOne
      obtain ⟨hOne, rfl⟩ := hOne
      cases hLast
      exact .inl ⟨f, hPlain, rfl, rfl, readFilter_marks hOne⟩
  · next inner hNested =>
      cases connective with
      | or => cases h
      | and => exact .inr ⟨.and, inner, hNested, nofun, h⟩
  · next inner hNested =>
      cases connective with
      | or => exact .inr ⟨.or, inner, hNested, fun _ => rfl, h⟩
      | and => exact .inr ⟨.or, inner, hNested, nofun, h⟩

/-- What every segment does all of them do: leave the number as it is and mark
each filter as one of a group. -/
theorem inside_of_run_mapM {read : List Char → Numbering (List Filter)}
    (h : ∀ segment {next after : Int} {part : List Filter},
      (read segment).run.run next = (.ok part, after) →
        after = next ∧ ∀ f ∈ part, f.isOr = true ∧ f.group = group)
    {segments : List (List Char)} {parts : List (List Filter)}
    (hRun : (segments.mapM read).run.run next = (.ok parts, after)) :
    after = next ∧ ∀ f ∈ parts.flatten, f.isOr = true ∧ f.group = group := by
  induction segments generalizing next parts with
  | nil =>
      cases hRun
      exact ⟨rfl, fun f hf => absurd hf List.not_mem_nil⟩
  | cons segment segments ih =>
      obtain ⟨part, others, middle, hHead, hRest, rfl⟩ :=
        Numbering.run_mapM_cons_eq_ok.1 hRun
      obtain ⟨rfl, hPart⟩ := h segment hHead
      obtain ⟨rfl, hOthers⟩ := ih hRest
      refine ⟨rfl, fun f hf => ?_⟩
      rw [List.flatten_cons] at hf
      rcases List.mem_append.1 hf with hf | hf
      · exact hPart f hf
      · exact hOthers f hf

/-- Inside an `or` group no number is drawn, and every filter is in the group.
By induction on the depth of the groups, which the fuel bounds. -/
theorem inside_of_run
    (h : (readWithin fuel .or (some group) cs).run.run next =
      (.ok filters, after)) :
    after = next ∧ ∀ f ∈ filters, f.isOr = true ∧ f.group = group := by
  induction fuel generalizing cs next after filters with
  | zero =>
      cases h
      exact ⟨rfl, fun f hf => absurd hf List.not_mem_nil⟩
  | succ fuel ih =>
      cases hBlank : cs.all isBlank with
      | true =>
          rw [readWithin, if_pos hBlank] at h
          cases h
          exact ⟨rfl, fun f hf => absurd hf List.not_mem_nil⟩
      | false =>
          obtain ⟨segments, given, middle, parts, -, hOpen, hParts, rfl⟩ :=
            steps_of_run hBlank h
          cases hOpen
          refine inside_of_run_mapM (fun segment first last part hRead => ?_)
            hParts
          rcases step_of_run hRead with ⟨f, -, rfl, rfl, hMarks⟩ |
            ⟨nested, inner, -, hOr, hInside⟩
          · exact ⟨rfl, List.forall_mem_singleton.2 hMarks⟩
          · rw [hOr rfl] at hInside
            exact ih hInside

/-- An `or` group that is not blank draws a number and is then read inside of
it. -/
theorem run_inside_of_run (hSome : cs.all isBlank = false)
    (h : (readWithin (fuel + 1) .or none cs).run.run next =
      (.ok filters, after)) :
    (readWithin (fuel + 1) .or (some next) cs).run.run (next + 1) =
      (.ok filters, after) := by
  obtain ⟨segments, group, middle, parts, hSplit, hOpen, hParts, rfl⟩ :=
    steps_of_run hSome h
  cases hOpen
  rw [readWithin_succ fuel .or (some next) hSome]
  have hLift : (Numbering.lift (splitTopLevel cs)).run.run (next + 1) =
      (.ok segments, next + 1) := by
    rw [Numbering.run_lift, hSplit]
  have hGiven : (openNumber .or (some next)).run.run (next + 1) =
      (.ok next, next + 1) := rfl
  rw [Numbering.run_bind_ok hLift, Numbering.run_bind_ok hGiven,
    Numbering.run_bind_ok hParts, Numbering.run_pure]

/-- The segments of an `and` group are numbered one after the other. -/
theorem numbered_of_run_mapM {read : List Char → Numbering (List Filter)}
    {segments : List (List Char)}
    (h : ∀ segment ∈ segments, ∀ {next after : Int} {part : List Filter},
      (read segment).run.run next = (.ok part, after) →
        Numbered next (segmentBlocks segment) part after)
    {parts : List (List Filter)}
    (hRun : (segments.mapM read).run.run next = (.ok parts, after)) :
    Numbered next (segments.flatMap segmentBlocks) parts.flatten after := by
  induction segments generalizing next parts with
  | nil =>
      cases hRun
      exact .nil _
  | cons segment segments ih =>
      obtain ⟨part, others, middle, hHead, hRest, rfl⟩ :=
        Numbering.run_mapM_cons_eq_ok.1 hRun
      obtain ⟨hFirst, hOthers⟩ := List.forall_mem_cons.1 h
      rw [List.flatMap_cons, List.flatten_cons]
      exact (hFirst hHead).append (ih hOthers hRest)

/-- What is read are the blocks of the text under numbers drawn one after the
other. By induction on the depth of the groups, which the fuel bounds. -/
theorem numbered_of_run (hFuel : cs.length < fuel)
    (h : (readWithin fuel connective none cs).run.run next =
      (.ok filters, after)) :
    Numbered next (blocks connective cs) filters after := by
  induction fuel generalizing connective cs next after filters with
  | zero => exact absurd hFuel (Nat.not_lt_zero _)
  | succ fuel ih =>
      cases hBlank : cs.all isBlank with
      | true =>
          rw [readWithin, if_pos hBlank] at h
          cases h
          cases connective with
          | or =>
              rw [blocks_or, leaves_of_blank hBlank]
              exact .blank (.nil next)
          | and =>
              rw [blocks_of_blank hBlank]
              exact .nil next
      | false =>
          cases connective with
          | or =>
              have hLength := (forall₂_leaves_of_run hFuel h).length_eq
              obtain ⟨rfl, hInside⟩ :=
                inside_of_run (run_inside_of_run hBlank h)
              rw [blocks_or]
              exact .anyOf_singleton hLength.symm hInside
          | and =>
              obtain ⟨segments, group, middle, parts, hSplit, hOpen, hParts,
                rfl⟩ := steps_of_run hBlank h
              cases hOpen
              rw [blocks_eq hBlank hSplit]
              refine numbered_of_run_mapM
                (fun segment hMem first last part hRead => ?_) hParts
              unfold segmentBlocks
              rcases step_of_run hRead with ⟨f, hPlain, rfl, rfl, hOr, hGroup⟩ |
                ⟨nested, inner, hNested, -, hInside⟩
              · rw [hPlain]
                exact .alone hOr hGroup (.nil _)
              · rw [hNested]
                have hShorter := length_lt_of_nested? hSplit hMem hNested
                exact ih (by omega) hInside

end Group
end TableGate
