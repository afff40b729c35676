import Mathlib.Order.Lattice
import TableGate.Proofs.Filter.Conjuncts
import TableGate.Proofs.Filter.Renumbering
import TableGate.Proofs.Query.Items

/-!
# A request means what its parts mean

A request imposes conditions in parts: filters, ranges and groups. They are
compiled one after the other into a single flat list in which membership of a
group is only a number. Here the parts are also read one at a time, each from
the first number on, as if it were the whole request. The list is the parts in
their order up to the choice of numbers, no two parts share a number, and so
the list means that every part holds.

What a range means is said for every linear order: the plain form that a value
lies between two bounds, the negated form that it does not.

## Main results

* `Between.holds_filters`: a range means what it says.
* `filters_compose`: the filters of a request mean the conjunction of what its
  parts mean.
-/

namespace TableGate

open TableGate.Filter (Apart HoldEach Holds shift)
open TableGate.Group (Numbers)
open TableGate.Numbering (Moves)
open Result (bind_eq_ok pure_eq_ok)

/-! ## Ranges -/

/-- Whether a value compares with the bound of a filter as its operator
asks. -/
def Filter.compares {α : Type} [LinearOrder α] (bound : FilterValue → α)
    (x : α) (f : Filter) : Bool :=
  match f.operator with
  | some .lt => x < bound f.value
  | some .lte => x ≤ bound f.value
  | some .gt => bound f.value < x
  | some .gte => bound f.value ≤ x
  | _ => false

namespace Between

/-- The filters of a range with its bounds read; those of the negated form
are in the group of a number. -/
def filters (between : Between) (least most : FilterValue) (group : Int) :
    List Filter :=
  let column := Text.trim between.column
  if between.negated then
    [{ column, operator := some .lt, value := least, isOr := true, group },
      { column, operator := some .gt, value := most, isOr := true, group }]
  else
    [{ column, operator := some .gte, value := least },
      { column, operator := some .lte, value := most }]

theorem run_expandBetween {between : Between} {next after : Int}
    {read : List Filter}
    (h : (Document.expandBetween between).run.run next = (.ok read, after)) :
    ∃ least most, FilterValue.ofValue between.min = .ok least ∧
      FilterValue.ofValue between.max = .ok most ∧
      read = between.filters least most next ∧
      after = if between.negated then next + 1 else next := by
  have hPair : ∀ {x y : Result Filter} {n : Int}, (do
      let first ← Numbering.lift x
      let second ← Numbering.lift y
      return [first, second] : Numbering (List Filter)).run.run n =
        (.ok read, after) →
      ∃ f g, x = .ok f ∧ y = .ok g ∧ read = [f, g] ∧ after = n := by
    intro x y n hRun
    obtain ⟨f, m₁, hFirst, hRest⟩ := Numbering.run_bind_eq_ok.1 hRun
    obtain ⟨g, m₂, hSecond, hLast⟩ := Numbering.run_bind_eq_ok.1 hRest
    cases hFirst
    cases hSecond
    cases hLast
    exact ⟨f, g, rfl, rfl, rfl, rfl⟩
  have hComparison : ∀ {column : String} {operator : Operator}
      {value : Value} {isOr : Bool} {group : Int} {f : Filter},
      Document.comparison column operator value isOr group = .ok f →
        ∃ bound, FilterValue.ofValue value = .ok bound ∧
          f = { column, operator := some operator, value := bound, isOr,
                group } := by
    intro column operator value isOr group f hf
    obtain ⟨bound, hBound, hf⟩ := bind_eq_ok.1 hf
    exact ⟨bound, hBound, (pure_eq_ok.1 hf).symm⟩
  unfold Document.expandBetween at h
  unfold filters
  cases hNegated : between.negated with
  | true =>
      rw [hNegated] at h
      obtain ⟨group, m, hGroup, h⟩ := Numbering.run_bind_eq_ok.1 h
      cases hGroup
      obtain ⟨f, g, hf, hg, rfl, rfl⟩ := hPair h
      obtain ⟨least, hLeast, rfl⟩ := hComparison hf
      obtain ⟨most, hMost, rfl⟩ := hComparison hg
      exact ⟨least, most, hLeast, hMost, rfl, rfl⟩
  | false =>
      rw [hNegated] at h
      obtain ⟨f, g, hf, hg, rfl, rfl⟩ := hPair h
      obtain ⟨least, hLeast, rfl⟩ := hComparison hf
      obtain ⟨most, hMost, rfl⟩ := hComparison hg
      exact ⟨least, most, hLeast, hMost, rfl, rfl⟩

/-- Only the negated form takes a number. -/
theorem numbers_filters (between : Between) (least most : FilterValue)
    (next : Int) :
    (next ≤ if between.negated then next + 1 else next) ∧
      ∀ f ∈ between.filters least most next, f.isOr = true →
        none = some f.group ∨ next ≤ f.group ∧
          f.group < if between.negated then next + 1 else next := by
  unfold filters
  cases between.negated with
  | true =>
      simp only [if_true]
      refine ⟨Int.le_of_lt (Int.lt_succ next), fun f hf _ => Or.inr ?_⟩
      simp only [List.mem_cons, List.not_mem_nil, or_false] at hf
      rcases hf with rfl | rfl
      all_goals exact ⟨Int.le_refl _, Int.lt_succ next⟩
  | false =>
      refine ⟨Int.le_refl _, fun f hf hOr => ?_⟩
      simp only [Bool.false_eq_true, if_false, List.mem_cons,
        List.not_mem_nil, or_false] at hf
      rcases hf with rfl | rfl
      all_goals exact absurd hOr Bool.false_ne_true

/-- In every linear order the plain form means that a value lies between the
bounds, and the negated form that it does not. -/
theorem holds_filters (between : Between) (least most : FilterValue)
    {group : Int} (hGroup : group ≠ 0) {α : Type} [LinearOrder α]
    (bound : FilterValue → α) (x : α) :
    Holds (between.filters least most group) (fun i =>
        ((between.filters least most group)[i]?).any
          (Filter.compares bound x)) ↔
      if between.negated then ¬ (bound least ≤ x ∧ x ≤ bound most)
      else bound least ≤ x ∧ x ≤ bound most := by
  unfold filters
  cases between.negated with
  | true =>
      have hGrouped : ∀ f ∈ ([
          { column := Text.trim between.column, operator := some .lt
            value := least, isOr := true, group },
          { column := Text.trim between.column, operator := some .gt
            value := most, isOr := true, group }] : List Filter),
          f.isGrouped = true ∧ f.group = group := by
        intro f hf
        simp only [List.mem_cons, List.not_mem_nil, or_false] at hf
        rcases hf with rfl | rfl
        all_goals exact ⟨Filter.isGrouped_iff.2 ⟨rfl, hGroup⟩, rfl⟩
      simp only [if_true]
      rw [Filter.holds_of_group (List.cons_ne_nil _ _) hGrouped]
      constructor
      · rintro ⟨i, hi, hTrue⟩ ⟨hLeast, hMost⟩
        match i, hi with
        | 0, _ =>
            have hBelow : x < bound least := by
              simpa [Filter.compares] using hTrue
            exact absurd hLeast (not_le.2 hBelow)
        | 1, _ =>
            have hAbove : bound most < x := by
              simpa [Filter.compares] using hTrue
            exact absurd hMost (not_le.2 hAbove)
      · intro hOutside
        rcases lt_or_ge x (bound least) with hBelow | hLeast
        · exact ⟨0, Nat.zero_lt_two, by simpa [Filter.compares] using hBelow⟩
        · have hAbove : bound most < x :=
            not_le.1 fun hMost => hOutside ⟨hLeast, hMost⟩
          exact ⟨1, Nat.one_lt_two, by simpa [Filter.compares] using hAbove⟩
  | false =>
      have hApart : Apart
          [{ column := Text.trim between.column, operator := some .gte
             value := least }]
          [{ column := Text.trim between.column, operator := some .lte
             value := most }] := by
        intro f hf g hg hIs
        rw [List.mem_singleton.1 hf] at hIs
        exact absurd hIs Bool.false_ne_true
      have hBoth := fun truth => (Filter.holds_append hApart truth).trans
        (and_congr (Filter.holds_singleton rfl truth)
          (Filter.holds_singleton rfl _))
      simp only [Bool.false_eq_true, if_false]
      refine (hBoth _).trans ?_
      simp [Filter.compares]

end Between

/-! ## Parts of a request -/

/-- A part of a request that imposes a condition. -/
inductive Part
  | entry (given : FilterEntry)
  | item (key value : String)
  | range (between : Between)
  | group (connective : Connective) (text : String)

namespace Part

/-- Read a part that is a single filter. -/
def one (f : Result Filter) : Numbering (List Filter) := do
  return [← Numbering.lift f]

/-- Read a part. -/
def read : Part → Numbering (List Filter)
  | entry given =>
      one (Filter.build given.column given.operator given.value false 0)
  | item key value => one (Items.readFilter key value)
  | range between => Document.expandBetween between
  | group connective text => do
      let inner ← Numbering.lift (Group.unwrap connective text)
      Group.read connective inner

/-- A list that means its only filter. -/
def IsOne (own : List Filter) : Prop :=
  own.length = 1 ∧ ∀ truth, Holds own truth ↔ truth 0 = true

/-- What the filters of a part mean. A filter means itself and a range what it
says in every linear order. The text of a group is the authority on what the
group means; one that holds no filters imposes no condition. -/
def Means : Part → List Filter → Prop
  | entry _, own => IsOne own
  | item _ _, own => IsOne own
  | range between, own =>
      ∃ least most, FilterValue.ofValue between.min = .ok least ∧
        FilterValue.ofValue between.max = .ok most ∧
        own = between.filters least most 1 ∧
        ∀ (α : Type) [LinearOrder α] (bound : FilterValue → α) (x : α),
          Holds own (fun i => own[i]?.any (Filter.compares bound x)) ↔
            if between.negated then ¬ (bound least ≤ x ∧ x ≤ bound most)
            else bound least ≤ x ∧ x ≤ bound most
  | group connective text, own =>
      (∀ inner, Group.unwrap connective text = .ok inner →
        inner.toList.all Text.isBlank = true → own = []) ∧
        (own = [] → ∀ truth, Holds own truth)

/-- What a part gives when it is read on its own, from the first number
on. -/
def Alone (part : Part) (own : List Filter) : Prop :=
  Items.fromOne part.read = .ok own ∧ part.Means own

/-! ## Reading one part -/

theorem build_alone {column token : String} {raw : Value} {f : Filter}
    (h : Filter.build column token raw false 0 = .ok f) : f.isOr = false := by
  obtain ⟨value, -, hFilter⟩ := bind_eq_ok.1 h
  rw [← pure_eq_ok.1 hFilter]

theorem readFilter_alone {key value : String} {f : Filter}
    (h : Items.readFilter key value = .ok f) : f.isOr = false := by
  unfold Items.readFilter at h
  split at h
  · exact absurd h Result.refuse_ne_ok
  · split at h
    · split at h
      · exact absurd h Result.refuse_ne_ok
      · exact build_alone h
    · split at h
      · exact build_alone h
      · exact build_alone h

theorem map_shift_of_alone {d : Int} {x : Result Filter}
    (h : ∀ f, x = .ok f → f.isOr = false) : x = x.map (shift d) := by
  cases x with
  | error e => rfl
  | ok f =>
      have hSame : shift d f = f := by
        rw [shift, if_neg (by rw [h f rfl]; decide)]
      exact congrArg Except.ok hSame.symm

theorem one_moves {d : Int} {x : Result Filter}
    (h : ∀ f, x = .ok f → f.isOr = false) :
    Moves d (List.map (shift d)) (one x) (one x) :=
  (Moves.lift (map_shift_of_alone h)).bind
    fun f => .pure (List.map (shift d)) [f]

theorem expandBetween_moves (d : Int) (between : Between) :
    Moves d (List.map (shift d)) (Document.expandBetween between)
      (Document.expandBetween between) := by
  have hAlone : ∀ (column : String) (operator : Operator) (value : Value),
      Document.comparison column operator value false 0 =
        (Document.comparison column operator value false 0).map
          (shift d) := by
    intro column operator value
    refine map_shift_of_alone fun f hf => ?_
    obtain ⟨bound, -, hf⟩ := bind_eq_ok.1 hf
    rw [← pure_eq_ok.1 hf]
  have hGrouped : ∀ (column : String) (operator : Operator) (value : Value)
      (group : Int),
      Document.comparison column operator value true (group + d) =
        (Document.comparison column operator value true group).map
          (shift d) := by
    intro column operator value group
    unfold Document.comparison
    cases FilterValue.ofValue value <;> rfl
  unfold Document.expandBetween
  dsimp only
  split
  · refine Moves.allocate.bind fun group => ?_
    refine (Moves.lift (hGrouped _ _ _ group)).bind fun below => ?_
    refine (Moves.lift (hGrouped _ _ _ group)).bind fun above => ?_
    exact .pure (List.map (shift d)) [below, above]
  · refine (Moves.lift (hAlone _ _ _)).bind fun least => ?_
    refine (Moves.lift (hAlone _ _ _)).bind fun most => ?_
    exact .pure (List.map (shift d)) [least, most]

/-- From a later number a part is read to the same filters with their numbers
moved. -/
theorem read_moves (d : Int) (part : Part) :
    Moves d (List.map (shift d)) part.read part.read := by
  cases part with
  | entry given => exact one_moves fun f => build_alone
  | item key value => exact one_moves fun f => readFilter_alone
  | range between => exact expandBetween_moves d between
  | group connective text =>
      have hUnwrap : Group.unwrap connective text =
          (Group.unwrap connective text).map id := by
        cases Group.unwrap connective text <;> rfl
      exact (Moves.lift hUnwrap).bind fun inner =>
        Group.readWithin_moves _ connective none _

/-- The numbers of a part are handed out while it is read. -/
theorem read_numbers (part : Part) : Numbers none part.read := by
  have hOne : ∀ {x : Result Filter}, (∀ f, x = .ok f → f.isOr = false) →
      Numbers none (one x) := fun h => Group.Numbers.one fun f hf hOr => by
    rw [h f hf] at hOr
    exact absurd hOr Bool.false_ne_true
  cases part with
  | entry given => exact hOne fun f => build_alone
  | item key value => exact hOne fun f => readFilter_alone
  | range between =>
      intro next filters after hRun
      obtain ⟨least, most, -, -, rfl, rfl⟩ := Between.run_expandBetween hRun
      exact between.numbers_filters least most next
  | group connective text =>
      intro next filters after hRun
      obtain ⟨inner, m, hUnwrap, hRead⟩ := Numbering.run_bind_eq_ok.1 hRun
      obtain rfl : next = m := congrArg Prod.snd hUnwrap
      exact Group.readWithin_numbers _ connective none _ _ _ _ hRead

/-! ## Each part on its own -/

theorem isOne_of_run {x : Result Filter} {own : List Filter} {after : Int}
    (hAlone : ∀ f, x = .ok f → f.isOr = false)
    (h : (one x).run.run 1 = (.ok own, after)) : IsOne own := by
  obtain ⟨f, m, hFirst, hLast⟩ := Numbering.run_bind_eq_ok.1 h
  cases hFirst
  cases hLast
  refine ⟨rfl, Filter.holds_singleton ?_⟩
  rw [Filter.isGrouped, hAlone f rfl]
  rfl

theorem means_of_run {part : Part} {own : List Filter} {after : Int}
    (h : part.read.run.run 1 = (.ok own, after)) : part.Means own := by
  cases part with
  | entry given => exact isOne_of_run (fun f => build_alone) h
  | item key value => exact isOne_of_run (fun f => readFilter_alone) h
  | range between =>
      obtain ⟨least, most, hLeast, hMost, rfl, -⟩ :=
        Between.run_expandBetween h
      exact ⟨least, most, hLeast, hMost, rfl, fun α _ bound x =>
        between.holds_filters least most Int.one_ne_zero bound x⟩
  | group connective text =>
      refine ⟨fun inner hUnwrap hBlank => ?_, fun hNone truth => ?_⟩
      · obtain ⟨inner', m, hInner, hRead⟩ := Numbering.run_bind_eq_ok.1 h
        have hSame : Group.unwrap connective text = .ok inner' :=
          congrArg Prod.fst hInner
        obtain rfl := Except.ok.inj (hUnwrap.symm.trans hSame)
        rw [Group.read, Group.readWithin, if_pos hBlank] at hRead
        cases hRead
        rfl
      · rw [hNone]
        exact Filter.holds_nil truth

/-- The same filters with their numbers moved, which mean the same. -/
def Renumbered (own filters : List Filter) : Prop :=
  (∃ d, filters = own.map (shift d)) ∧
    ∀ truth, Holds filters truth ↔ Holds own truth

/-- One part of a request: read from any number, it gives what it gives on its
own under other numbers, all of them handed out meanwhile. -/
theorem alone_of_run {part : Part} {filters : List Filter}
    {next after : Int} (hNext : 1 ≤ next)
    (h : part.read.run.run next = (.ok filters, after)) :
    ∃ own, part.Alone own ∧ Renumbered own filters ∧ next ≤ after ∧
      ∀ f ∈ filters, f.isOr = true → next ≤ f.group ∧ f.group < after := by
  have hMoved := read_moves (next - 1) part 1
  rw [show 1 + (next - 1) = next by omega, h] at hMoved
  obtain ⟨hOrder, hRange⟩ := read_numbers part _ _ _ h
  cases hOwn : part.read.run.run 1 with
  | mk result last =>
      rw [hOwn] at hMoved
      cases result with
      | error e => cases hMoved
      | ok own =>
          obtain rfl := Except.ok.inj (congrArg Prod.fst hMoved)
          obtain ⟨-, hFromOne⟩ := read_numbers part _ _ _ hOwn
          refine ⟨own, ⟨congrArg Prod.fst hOwn, means_of_run hOwn⟩,
            ⟨⟨next - 1, rfl⟩, Filter.holds_map_shift fun f hf hOr => ?_⟩,
            hOrder, fun f hf hOr => ?_⟩
          · have hLow := (hFromOne f hf hOr).resolve_left fun hNone => by
              cases hNone
            omega
          · exact (hRange f hf hOr).resolve_left fun hNone => by cases hNone

/-- All parts of a request, read one after the other. -/
theorem alone_of_run_mapM {parts : List Part}
    {segments : List (List Filter)} {next after : Int} (hNext : 1 ≤ next)
    (h : (parts.mapM read).run.run next = (.ok segments, after)) :
    ∃ owns, List.Forall₂ Alone parts owns ∧
      List.Forall₂ Renumbered owns segments ∧ segments.Pairwise Apart ∧
      ∀ segment ∈ segments, ∀ f ∈ segment, f.isOr = true →
        next ≤ f.group := by
  induction parts generalizing segments next with
  | nil =>
      cases h
      exact ⟨[], .nil, .nil, .nil, fun _ hMem => absurd hMem
        List.not_mem_nil⟩
  | cons part parts ih =>
      obtain ⟨first, others, middle, hFirst, hOthers, rfl⟩ :=
        Numbering.run_mapM_cons_eq_ok.1 h
      obtain ⟨own, hAlone, hSame, hOrder, hRange⟩ :=
        alone_of_run hNext hFirst
      obtain ⟨owns, hAlones, hSames, hApart, hLater⟩ :=
        ih (Int.le_trans hNext hOrder) hOthers
      refine ⟨own :: owns, .cons hAlone hAlones, .cons hSame hSames,
        List.pairwise_cons.2 ⟨fun other hOther f hf g hg hIs hMember => ?_,
          hApart⟩, fun segment hSegment f hf hOr => ?_⟩
      · -- The numbers of the first part were handed out before the others.
        have hLow := hRange f hf (Bool.and_eq_true_iff.1 hIs).1
        have hHigh := hLater other hOther g hg
          (Bool.and_eq_true_iff.1 hMember).1
        omega
      · rcases List.mem_cons.1 hSegment with rfl | hSegment
        · exact (hRange f hf hOr).1
        · exact Int.le_trans hOrder (hLater segment hSegment f hf hOr)

theorem holdEach_renumbered {owns segments : List (List Filter)}
    (h : List.Forall₂ Renumbered owns segments) (truth : Nat → Bool) :
    HoldEach segments truth ↔ HoldEach owns truth := by
  induction h generalizing truth with
  | nil => exact Iff.rfl
  | @cons own segment owns segments hFirst _ ih =>
      obtain ⟨⟨d, rfl⟩, hSame⟩ := hFirst
      rw [HoldEach, HoldEach, hSame, ih, List.length_map]

end Part

/-! ## The parts of a request in their order -/

/-- The filters are those of the parts, in their order and each part under
numbers of its own; they mean that each part, read on its own, holds. -/
def Composes (parts : List Part) (filters : List Filter) : Prop :=
  ∃ owns segments, List.Forall₂ Part.Alone parts owns ∧
    List.Forall₂ Part.Renumbered owns segments ∧
    segments.Pairwise Apart ∧ filters = segments.flatten ∧
    ∀ truth, Holds filters truth ↔ HoldEach owns truth

/-- Parts are read to filters one after the other. -/
def Part.Reads (parts : List Part) (next : Int) (filters : List Filter)
    (after : Int) : Prop :=
  ∃ segments, (parts.mapM Part.read).run.run next = (.ok segments, after) ∧
    filters = segments.flatten

namespace Part.Reads

variable {next middle after : Int} {filters : List Filter}

theorem composes {parts : List Part} (hNext : 1 ≤ next)
    (h : Reads parts next filters after) : Composes parts filters := by
  obtain ⟨segments, hRun, rfl⟩ := h
  obtain ⟨owns, hAlone, hSame, hApart, -⟩ := alone_of_run_mapM hNext hRun
  exact ⟨owns, segments, hAlone, hSame, hApart, rfl, fun truth =>
    (Filter.holds_flatten hApart truth).trans
      (holdEach_renumbered hSame truth)⟩

theorem append {first others : List Part} {left right : List Filter}
    (hFirst : Reads first next left middle)
    (hOthers : Reads others middle right after) :
    Reads (first ++ others) next (left ++ right) after := by
  obtain ⟨before, hBefore, rfl⟩ := hFirst
  obtain ⟨behind, hBehind, rfl⟩ := hOthers
  refine ⟨before ++ behind, ?_, List.flatten_append.symm⟩
  rw [List.mapM_append, Numbering.run_bind_ok hBefore,
    Numbering.run_bind_ok hBehind, Numbering.run_pure]

theorem map {α : Type} {part : α → Part} {f : α → Numbering (List Filter)}
    (hRead : ∀ a, (part a).read = f a) {xs : List α}
    {segments : List (List Filter)}
    (h : (xs.mapM f).run.run next = (.ok segments, after)) :
    Reads (xs.map part) next segments.flatten after := by
  refine ⟨segments, ?_, rfl⟩
  rw [List.mapM_map, show Part.read ∘ part = f from funext hRead, h]

theorem ones {α : Type} {part : α → Part} {f : α → Result Filter}
    (hRead : ∀ a, (part a).read = one (f a)) {xs : List α}
    (h : xs.mapM f = .ok filters) :
    Reads (xs.map part) next filters next := by
  induction xs generalizing filters with
  | nil =>
      cases h
      exact ⟨[], rfl, rfl⟩
  | cons x xs ih =>
      rw [List.mapM_cons] at h
      obtain ⟨first, hFirst, hRest⟩ := bind_eq_ok.1 h
      obtain ⟨others, hOthers, hLast⟩ := bind_eq_ok.1 hRest
      rw [← pure_eq_ok.1 hLast]
      suffices hHere : Reads [part x] next [first] next from
        hHere.append (ih hOthers)
      refine ⟨[[first]], ?_, rfl⟩
      have hOne : (one (f x)).run.run next = (.ok [first], next) := by
        rw [hFirst]
        rfl
      rw [List.mapM_cons, hRead, Numbering.run_bind_ok hOne, List.mapM_nil,
        Numbering.run_bind_ok (Numbering.run_pure [] next),
        Numbering.run_pure]

theorem groups {groups : List (Connective × String)}
    (h : (Items.readGroups groups).run.run next = (.ok filters, after)) :
    Reads (groups.map fun g => group g.1 g.2) next filters after := by
  obtain ⟨segments, m, hRun, hLast⟩ := Numbering.run_bind_eq_ok.1 h
  cases hLast
  exact map (fun _ => rfl) hRun

end Part.Reads

/-- The conditions of a document: filters, ranges, `or` groups, `and`
groups. -/
def Document.parts (document : Document) : List Part :=
  document.filters.map Part.entry ++ document.betweens.map Part.range ++
    (document.orFilters.map (Part.group .or) ++
      document.andFilters.map (Part.group .and))

/-- The conditions of the items of a query string: filters, then groups. -/
def Items.parts (items : Items) : List Part :=
  ((items.filter fun item => !reserved.contains item.1).map fun item =>
      Part.item item.1 item.2) ++
    (items.filterMap group?).map fun g => Part.group g.1 g.2

theorem Document.reads_compileFilters {document : Document}
    {filters : List Filter} {after : Int}
    (h : document.compileFilters.run.run 1 = (.ok filters, after)) :
    Part.Reads document.parts 1 filters after := by
  unfold compileFilters at h
  obtain ⟨direct, m₁, hDirect, h⟩ := Numbering.run_bind_eq_ok.1 h
  obtain ⟨ranges, m₂, hRanges, h⟩ := Numbering.run_bind_eq_ok.1 h
  obtain ⟨grouped, m₃, hGrouped, h⟩ := Numbering.run_bind_eq_ok.1 h
  cases h
  rw [Numbering.run_mapM_lift] at hDirect
  obtain rfl : 1 = m₁ := congrArg Prod.snd hDirect
  have hGroups := Part.Reads.groups hGrouped
  rw [List.map_append, List.map_map, List.map_map] at hGroups
  exact ((Part.Reads.ones (fun _ => rfl) (congrArg Prod.fst hDirect)).append
    (.map (fun _ => rfl) hRanges)).append hGroups

/-- The filters of a document are read from its parts. -/
theorem Document.reads_of_compile {document : Document} {params : Params}
    (h : document.compile = .ok params) :
    ∃ after, Part.Reads document.parts 1 params.filters after := by
  rw [compile_eq] at h
  obtain ⟨selection, -, h⟩ := bind_eq_ok.1 h
  obtain ⟨filters, hFilters, h⟩ := bind_eq_ok.1 h
  obtain ⟨cursorColumn, -, h⟩ := bind_eq_ok.1 h
  obtain ⟨count, -, h⟩ := bind_eq_ok.1 h
  obtain ⟨cursor, -, h⟩ := bind_eq_ok.1 h
  rw [← pure_eq_ok.1 h]
  exact ⟨_, reads_compileFilters (Prod.ext hFilters rfl)⟩

/-- The filters of a query string are read from its parts. -/
theorem Items.reads_of_compile {items : Items} {params : Params}
    (h : items.compile = .ok params) :
    ∃ after, Part.Reads items.parts 1 params.filters after := by
  obtain ⟨selection, -, h⟩ := bind_eq_ok.1 h
  obtain ⟨plain, hPlain, h⟩ := bind_eq_ok.1 h
  obtain ⟨grouped, hGrouped, h⟩ := bind_eq_ok.1 h
  obtain ⟨cursorColumn, -, h⟩ := bind_eq_ok.1 h
  obtain ⟨order, -, h⟩ := bind_eq_ok.1 h
  obtain ⟨limit, -, h⟩ := bind_eq_ok.1 h
  obtain ⟨offset, -, h⟩ := bind_eq_ok.1 h
  obtain ⟨count, -, h⟩ := bind_eq_ok.1 h
  obtain ⟨cursor, -, h⟩ := bind_eq_ok.1 h
  rw [← pure_eq_ok.1 h]
  exact ⟨_, (Part.Reads.ones (fun _ => rfl) hPlain).append
    (.groups (Prod.ext hGrouped rfl))⟩

/-- The filters of every request that compiles, sent as a document or as the
items of a query string, mean the conjunction of what its parts mean. -/
theorem filters_compose :
    (∀ (document : Document) (params : Params),
        document.compile = .ok params →
          Composes document.parts params.filters) ∧
      ∀ (items : Items) (params : Params), items.compile = .ok params →
        Composes items.parts params.filters := by
  constructor
  · intro document params h
    obtain ⟨after, hReads⟩ := Document.reads_of_compile h
    exact hReads.composes (Int.le_refl 1)
  · intro items params h
    obtain ⟨after, hReads⟩ := Items.reads_of_compile h
    exact hReads.composes (Int.le_refl 1)

/-- Two excluded ranges, two groups and an empty one beside a filter. -/
def Document.mixed : Document where
  filters := [⟨"a", "eq", .int 1⟩]
  betweens := [⟨" b ", .int 2, .int 3, true⟩, ⟨"c", .int 4, .int 5, true⟩]
  orFilters := ["d.eq.6,e.eq.7"]
  andFilters := ["(f.eq.8,or(g.eq.9,h.is.null))", "(or())"]

/-- Two groups, one of them nested, before a filter. -/
def Items.mixed : Items :=
  [("or", "(a.eq.1,b.eq.2)"), ("and", "(or(c.eq.3))"), ("d", "gt.4")]

theorem filters_compose_mixed :
    (∃ params, Document.mixed.compile = .ok params ∧
      params.filters.map (·.group) = [0, 1, 1, 2, 2, 3, 3, 0, 4, 4] ∧
      Composes Document.mixed.parts params.filters) ∧
    ∃ params, Items.mixed.compile = .ok params ∧
      params.filters.map (·.group) = [0, 1, 1, 2] ∧
      Composes Items.mixed.parts params.filters := by
  have hDocument : Document.mixed.compile = .ok { filters := [
      ⟨"a", some .eq, .int 1, false, 0⟩, ⟨"b", some .lt, .int 2, true, 1⟩,
      ⟨"b", some .gt, .int 3, true, 1⟩, ⟨"c", some .lt, .int 4, true, 2⟩,
      ⟨"c", some .gt, .int 5, true, 2⟩, ⟨"d", some .eq, .text "6", true, 3⟩,
      ⟨"e", some .eq, .text "7", true, 3⟩,
      ⟨"f", some .eq, .text "8", false, 0⟩,
      ⟨"g", some .eq, .text "9", true, 4⟩,
      ⟨"h", some .is, .null, true, 4⟩] } := by
    rfl
  have hItems : Items.mixed.compile = .ok { filters := [
      ⟨"d", some .gt, .text "4", false, 0⟩,
      ⟨"a", some .eq, .text "1", true, 1⟩,
      ⟨"b", some .eq, .text "2", true, 1⟩,
      ⟨"c", some .eq, .text "3", true, 2⟩] } := by
    rfl
  exact ⟨⟨_, hDocument, rfl, filters_compose.1 _ _ hDocument⟩,
    ⟨_, hItems, rfl, filters_compose.2 _ _ hItems⟩⟩

end TableGate
