import TableGate.Proofs.Filter.Meaning
import TableGate.Proofs.Numbering
import TableGate.Proofs.Result

/-!
# Group numbers do not matter

All parts of a request draw their group numbers from one counter, so a part
gets other numbers beside its neighbours than it would get alone. It makes no
difference: reading from a later number moves every number of the part by the
same distance (`Moves`), what a list means depends only on which filters share
a number (`holds_map_shift`), and the numbers of a part lie between the counter
before and after it (`Numbers`), so that no two parts share one.

## Main results

* `holds_flatten`: lists without common groups mean, one after the other, that
  each of them holds at its place.
* `Group.readWithin_moves`: a group read from a later number is the same group
  with its numbers moved.
* `Group.readWithin_numbers`: the numbers of a group are those handed out
  while it was read.
-/

namespace TableGate

/-! ## Lists one after the other -/

namespace Filter

/-- Each of the lists holds at its place. -/
def HoldEach : List (List Filter) → (Nat → Bool) → Prop
  | [], _ => True
  | first :: others, truth =>
      Holds first truth ∧ HoldEach others fun i => truth (first.length + i)

theorem Apart.flatten {first : List Filter} {others : List (List Filter)}
    (h : ∀ other ∈ others, Apart first other) : Apart first others.flatten := by
  intro f hf g hg
  obtain ⟨other, hOther, hMem⟩ := List.mem_flatten.1 hg
  exact h other hOther f hf g hMem

theorem holds_nil (truth : Nat → Bool) : Holds [] truth := by
  refine ⟨fun i f hAt => ?_, fun i f hAt => ?_⟩
  all_goals simp at hAt

theorem holds_flatten {lists : List (List Filter)}
    (h : lists.Pairwise Apart) (truth : Nat → Bool) :
    Holds lists.flatten truth ↔ HoldEach lists truth := by
  induction lists generalizing truth with
  | nil => exact iff_of_true (holds_nil truth) trivial
  | cons first others ih =>
      obtain ⟨hFirst, hOthers⟩ := List.pairwise_cons.1 h
      rw [List.flatten_cons, holds_append (Apart.flatten hFirst), HoldEach,
        ih hOthers]

/-! ## Moving the numbers -/

/-- The filter with its group number moved by a distance. -/
def shift (d : Int) (f : Filter) : Filter :=
  if f.isOr then { f with group := f.group + d } else f

theorem isOr_shift (d : Int) (f : Filter) : (f.shift d).isOr = f.isOr := by
  unfold shift
  split <;> rfl

theorem group_shift {d : Int} {f : Filter} (h : f.isOr = true) :
    (f.shift d).group = f.group + d := by
  rw [shift, if_pos h]

/-- A list means the same when its filters share numbers in the same way. -/
theorem holds_map {filters : List Filter} {move : Filter → Filter}
    (hGrouped : ∀ f ∈ filters, (move f).isGrouped = f.isGrouped)
    (hGroup : ∀ f ∈ filters, ∀ g ∈ filters, f.isGrouped = true →
      g.isGrouped = true → ((move g).group = (move f).group ↔
        g.group = f.group)) (truth : Nat → Bool) :
    Holds (filters.map move) truth ↔ Holds filters truth := by
  have hAt : ∀ {i : Nat} {f : Filter}, filters[i]? = some f →
      (filters.map move)[i]? = some (move f) := by
    intro i f h
    rw [List.getElem?_map, h]
    rfl
  have hOf : ∀ {i : Nat} {g : Filter}, (filters.map move)[i]? = some g →
      ∃ f, filters[i]? = some f ∧ move f = g := by
    intro i g h
    rw [List.getElem?_map] at h
    exact Option.map_eq_some_iff.1 h
  constructor
  · rintro ⟨hAlone, hGroups⟩
    refine ⟨fun i f h hNot => ?_, fun i f h hIs => ?_⟩
    · exact hAlone i _ (hAt h)
        ((hGrouped f (List.mem_of_getElem? h)).trans hNot)
    · have hf := List.mem_of_getElem? h
      obtain ⟨j, g', hOther, hMember, hSame, hTrue⟩ :=
        hGroups i _ (hAt h) ((hGrouped f hf).trans hIs)
      obtain ⟨g, hBefore, rfl⟩ := hOf hOther
      have hg := List.mem_of_getElem? hBefore
      rw [hGrouped g hg] at hMember
      exact ⟨j, g, hBefore, hMember, (hGroup f hf g hg hIs hMember).1 hSame,
        hTrue⟩
  · rintro ⟨hAlone, hGroups⟩
    refine ⟨fun i f' h hNot => ?_, fun i f' h hIs => ?_⟩
    · obtain ⟨f, hBefore, rfl⟩ := hOf h
      rw [hGrouped f (List.mem_of_getElem? hBefore)] at hNot
      exact hAlone i f hBefore hNot
    · obtain ⟨f, hBefore, rfl⟩ := hOf h
      have hf := List.mem_of_getElem? hBefore
      rw [hGrouped f hf] at hIs
      obtain ⟨j, g, hOther, hMember, hSame, hTrue⟩ := hGroups i f hBefore hIs
      have hg := List.mem_of_getElem? hOther
      exact ⟨j, move g, hAt hOther, (hGrouped g hg).trans hMember,
        (hGroup f hf g hg hIs hMember).2 hSame, hTrue⟩

/-- Moving the numbers keeps the meaning as long as none of them is zero. -/
theorem holds_map_shift {filters : List Filter} {d : Int}
    (h : ∀ f ∈ filters, f.isOr = true → f.group ≠ 0 ∧ f.group + d ≠ 0)
    (truth : Nat → Bool) :
    Holds (filters.map (shift d)) truth ↔ Holds filters truth := by
  refine holds_map (fun f hf => ?_) (fun f _ g _ hIs hMember => ?_) truth
  · cases hOr : f.isOr with
    | false => simp [shift, hOr]
    | true =>
        have hNumbers := h f hf hOr
        rw [isGrouped, isGrouped, isOr_shift, group_shift hOr,
          bne_iff_ne.2 hNumbers.1, bne_iff_ne.2 hNumbers.2]
  · have hf : f.isOr = true := (Bool.and_eq_true_iff.1 hIs).1
    have hg : g.isOr = true := (Bool.and_eq_true_iff.1 hMember).1
    rw [group_shift hf, group_shift hg]
    omega

end Filter

/-! ## Reading from a later number -/

namespace Numbering

variable {α β γ ε : Type}

/-- From a number that is later by a distance the second computation gives
what the first gives, changed as the distance says. -/
def Moves (d : Int) (change : α → β) (x : Numbering α) (y : Numbering β) :
    Prop :=
  ∀ next, y.run.run (next + d) =
    ((x.run.run next).1.map change, (x.run.run next).2 + d)

namespace Moves

variable {d : Int}

theorem pure (change : α → β) (a : α) :
    Moves d change (Pure.pure a) (Pure.pure (change a)) := fun _ => rfl

theorem lift {change : α → β} {x : Result α} {y : Result β}
    (h : y = x.map change) :
    Moves d change (Numbering.lift x) (Numbering.lift y) := by
  rw [h]
  exact fun _ => rfl

theorem throw (change : α → β) (e : Error) :
    Moves d change (MonadExcept.throw e) (MonadExcept.throw e) := fun _ => rfl

theorem allocate : Moves d (· + d) Numbering.allocate Numbering.allocate := by
  intro next
  rw [run_allocate, run_allocate]
  exact congrArg (Prod.mk _) (Int.add_right_comm next d 1)

theorem bind {first : α → β} {second : γ → ε} {x : Numbering α}
    {y : Numbering β} {f : α → Numbering γ} {g : β → Numbering ε}
    (h : Moves d first x y) (hNext : ∀ a, Moves d second (f a) (g (first a))) :
    Moves d second (x >>= f) (y >>= g) := by
  intro next
  rw [ExceptT.run_bind, StateT.run_bind, ExceptT.run_bind, StateT.run_bind,
    h next]
  rcases x.run.run next with ⟨_ | a, after⟩
  · rfl
  · exact hNext a after

theorem mapM {change : β → γ} {f : α → Numbering β} {g : α → Numbering γ}
    (h : ∀ a, Moves d change (f a) (g a)) (xs : List α) :
    Moves d (List.map change) (xs.mapM f) (xs.mapM g) := by
  induction xs with
  | nil => exact .pure (List.map change) []
  | cons x xs ih =>
      rw [List.mapM_cons, List.mapM_cons]
      refine bind (h x) fun b => ?_
      refine bind ih fun bs => ?_
      exact Moves.pure (List.map change) (b :: bs)

end Moves

end Numbering

namespace Group

open TableGate.Numbering (Moves)

variable {d : Int}

/-- Numbers move in `or` groups only; the filters of an `and` group have
none. -/
def moved (d : Int) : Connective → Int → Int
  | .or, group => group + d
  | .and, group => group

theorem build_shift {column token : String} {raw : Value} {group : Int}
    (connective : Connective) :
    Filter.build column token raw (connective == .or)
        (moved d connective group) =
      (Filter.build column token raw (connective == .or) group).map
        (Filter.shift d) := by
  unfold Filter.build
  dsimp only
  generalize FilterValue.ofValue
    (Filter.coerce (Operator.ofToken? token) raw) = value
  generalize Operator.ofToken? token = operator
  generalize Text.trim column = name
  cases value with
  | error e => rfl
  | ok value => cases connective <;> rfl

theorem readFilter_shift (connective : Connective) (group : Int)
    (segment : List Char) :
    readFilter connective (moved d connective group) segment =
      (readFilter connective group segment).map (Filter.shift d) := by
  unfold readFilter
  split
  · exact build_shift connective
  · rfl

theorem openNumber_moves (connective : Connective) (number : Option Int) :
    Moves d (moved d connective) (openNumber connective number)
      (openNumber connective (number.map (moved d connective))) := by
  cases number with
  | some group => exact .pure (moved d connective) group
  | none =>
      cases connective with
      | or => exact .allocate
      | and => exact .pure (moved d .and) 0

theorem readSegment_moves
    {readInside : Connective → Option Int → List Char →
      Numbering (List Filter)}
    (h : ∀ connective number cs, Moves d (List.map (Filter.shift d))
      (readInside connective number cs)
      (readInside connective (number.map (moved d connective)) cs))
    (connective : Connective) (group : Int) (segment : List Char) :
    Moves d (List.map (Filter.shift d))
      (readSegment readInside connective group segment)
      (readSegment readInside connective (moved d connective group)
        segment) := by
  unfold readSegment
  split
  · exact (Moves.lift (readFilter_shift connective group segment)).bind
      fun f => .pure (List.map (Filter.shift d)) [f]
  · cases connective with
    | or => exact .throw _ _
    | and => exact h .and none _
  · cases connective with
    | or => exact h .or (some group) _
    | and => exact h .or none _

theorem readWithin_moves (fuel : Nat) (connective : Connective)
    (number : Option Int) (cs : List Char) :
    Moves d (List.map (Filter.shift d))
      (readWithin fuel connective number cs)
      (readWithin fuel connective (number.map (moved d connective)) cs) := by
  induction fuel generalizing connective number cs with
  | zero => exact .pure (List.map (Filter.shift d)) []
  | succ fuel ih =>
      cases hBlank : cs.all Text.isBlank with
      | true =>
          rw [readWithin, readWithin, if_pos hBlank, if_pos hBlank]
          exact .pure (List.map (Filter.shift d)) []
      | false =>
          rw [readWithin_succ fuel connective _ hBlank,
            readWithin_succ fuel connective _ hBlank]
          have hSplit : splitTopLevel cs = (splitTopLevel cs).map id := by
            cases splitTopLevel cs <;> rfl
          refine (Moves.lift hSplit).bind fun segments => ?_
          refine (openNumber_moves connective number).bind fun group => ?_
          refine (Moves.mapM (readSegment_moves ih connective group)
            segments).bind fun parts => ?_
          rw [← List.map_flatten]
          exact .pure (List.map (Filter.shift d)) parts.flatten

/-! ## The numbers of a group -/

/-- The numbers of what is read were given from outside or are handed out on
the way. -/
def Numbers (given : Option Int) (x : Numbering (List Filter)) : Prop :=
  ∀ next filters after, x.run.run next = (.ok filters, after) →
    next ≤ after ∧ ∀ f ∈ filters, f.isOr = true →
      given = some f.group ∨ next ≤ f.group ∧ f.group < after

namespace Numbers

variable {given : Option Int}

theorem nil : Numbers given (pure []) := by
  intro next filters after h
  cases h
  exact ⟨Int.le_refl _, fun f hf => absurd hf List.not_mem_nil⟩

theorem one {x : Result Filter}
    (h : ∀ f, x = .ok f → f.isOr = true → given = some f.group) :
    Numbers given (do
      let f ← Numbering.lift x
      return [f]) := by
  intro next filters after hRun
  obtain ⟨f, middle, hFirst, hLast⟩ := Numbering.run_bind_eq_ok.1 hRun
  cases hFirst
  cases hLast
  refine ⟨Int.le_refl _, fun g hg hOr => Or.inl ?_⟩
  rw [List.mem_singleton.1 hg] at hOr ⊢
  exact h f rfl hOr

theorem mapM {α : Type} {read : α → Numbering (List Filter)}
    (h : ∀ a, Numbers given (read a)) (xs : List α) {next after : Int}
    {parts : List (List Filter)}
    (hRun : (xs.mapM read).run.run next = (.ok parts, after)) :
    next ≤ after ∧ ∀ f ∈ parts.flatten, f.isOr = true →
      given = some f.group ∨ next ≤ f.group ∧ f.group < after := by
  induction xs generalizing next parts with
  | nil =>
      cases hRun
      exact ⟨Int.le_refl _, fun f hf => absurd hf List.not_mem_nil⟩
  | cons x xs ih =>
      obtain ⟨first, others, middle, hFirst, hOthers, rfl⟩ :=
        Numbering.run_mapM_cons_eq_ok.1 hRun
      obtain ⟨hLow, hHere⟩ := h x _ _ _ hFirst
      obtain ⟨hHigh, hLater⟩ := ih hOthers
      refine ⟨Int.le_trans hLow hHigh, fun f hf hOr => ?_⟩
      rw [List.flatten_cons] at hf
      rcases List.mem_append.1 hf with hf | hf
      · exact (hHere f hf hOr).imp_right fun hRange => by omega
      · exact (hLater f hf hOr).imp_right fun hRange => by omega

end Numbers

/-- The number that the filters of a group carry. -/
def carried (connective : Connective) (group : Int) : Option Int :=
  match connective with
  | .or => some group
  | .and => none

theorem readFilter_carried {connective : Connective} {group : Int}
    {segment : List Char} {f : Filter}
    (h : readFilter connective group segment = .ok f) (hOr : f.isOr = true) :
    carried connective group = some f.group := by
  unfold readFilter at h
  split at h
  · obtain ⟨value, -, hFilter⟩ := Result.bind_eq_ok.1 h
    rw [← Result.pure_eq_ok.1 hFilter] at hOr ⊢
    cases connective with
    | or => rfl
    | and => exact absurd hOr Bool.false_ne_true
  · exact absurd h Result.refuse_ne_ok

theorem readSegment_numbers
    {readInside : Connective → Option Int → List Char →
      Numbering (List Filter)}
    (h : ∀ connective number cs, Numbers number
      (readInside connective number cs))
    (connective : Connective) (group : Int) (segment : List Char) :
    Numbers (carried connective group)
      (readSegment readInside connective group segment) := by
  unfold readSegment
  split
  · exact .one fun f => readFilter_carried
  · cases connective with
    | or =>
        intro next filters after hRun
        cases hRun
    | and => exact h .and none _
  · cases connective with
    | or => exact h .or (some group) _
    | and => exact h .or none _

theorem readWithin_numbers (fuel : Nat) (connective : Connective)
    (number : Option Int) (cs : List Char) :
    Numbers number (readWithin fuel connective number cs) := by
  induction fuel generalizing connective number cs with
  | zero => exact .nil
  | succ fuel ih =>
      cases hBlank : cs.all Text.isBlank with
      | true =>
          rw [readWithin, if_pos hBlank]
          exact .nil
      | false =>
          intro next filters after hRun
          obtain ⟨segments, group, middle, parts, -, hOpen, hParts, rfl⟩ :=
            steps_of_run hBlank hRun
          obtain ⟨hOrder, hRange⟩ := Numbers.mapM
            (readSegment_numbers ih connective group) segments hParts
          cases number with
          | some given =>
              cases hOpen
              refine ⟨hOrder, fun f hf hOr =>
                (hRange f hf hOr).imp_left fun hCarried => ?_⟩
              cases connective with
              | or => exact hCarried
              | and => cases hCarried
          | none =>
              cases connective with
              | or =>
                  -- The number of the group itself is the first handed out.
                  cases hOpen
                  refine ⟨by omega, fun f hf hOr => Or.inr ?_⟩
                  rcases hRange f hf hOr with hCarried | hLater
                  · obtain rfl := Option.some.inj hCarried
                    omega
                  · omega
              | and =>
                  cases hOpen
                  refine ⟨hOrder, fun f hf hOr => Or.inr ?_⟩
                  exact (hRange f hf hOr).resolve_left fun hNone => by
                    cases hNone

end Group
end TableGate
