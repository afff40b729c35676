import TableGate.Proofs.Query.Blocks

/-!
# Fresh group numbers

Groups and ranges that are read with one counter draw their group numbers from
it one after the other. The counter keeps what was drawn before a failure, so
the next reading goes on behind it. A number is all that tells to which
disjunction a filter belongs; if two disjunctions of a request were given the
same one, they would merge.

A filter has an *origin* that knows nothing of numbers: the reading that gave
it and the place of its block there.

## Main results

* `Draw.read_grows`: a counter never goes back, whether reading succeeds or
  fails.
* `numbers_fresh`: in every sequence of readings two filters share a number
  exactly if they have the same origin.
-/

namespace TableGate

/-! ## Counters never go back -/

namespace Numbering

variable {α β : Type}

/-- The number left is not below the number begun with, whether the
computation succeeds or fails. -/
def Grows (x : Numbering α) : Prop := ∀ next, next ≤ (x.run.run next).2

namespace Grows

theorem pure (a : α) : Grows (Pure.pure a) := fun next => Int.le_refl next

theorem lift (x : Result α) : Grows (Numbering.lift x) :=
  fun next => Int.le_refl next

theorem throw (e : Error) : Grows (MonadExcept.throw e : Numbering α) :=
  fun next => Int.le_refl next

theorem allocate : Grows Numbering.allocate :=
  fun next => Int.le_of_lt (Int.lt_succ next)

theorem bind {x : Numbering α} {f : α → Numbering β} (hFirst : Grows x)
    (hNext : ∀ a, Grows (f a)) : Grows (x >>= f) := by
  intro next
  have hMiddle := hFirst next
  rw [ExceptT.run_bind, StateT.run_bind]
  rcases hRun : x.run.run next with ⟨result, middle⟩
  rw [hRun] at hMiddle
  cases result with
  | error e => exact hMiddle
  | ok a => exact Int.le_trans hMiddle (hNext a middle)

theorem mapM {f : α → Numbering β} (h : ∀ a, Grows (f a)) (xs : List α) :
    Grows (xs.mapM f) := by
  induction xs with
  | nil => exact .pure []
  | cons x xs ih =>
      rw [List.mapM_cons]
      exact (h x).bind fun b => ih.bind fun bs => .pure (b :: bs)

end Grows

end Numbering

namespace Group

open Text (isBlank)
open TableGate.Numbering (Grows)

theorem openNumber_grows (connective : Connective) (number : Option Int) :
    Grows (openNumber connective number) := by
  unfold openNumber
  split
  · exact .pure _
  · exact .allocate
  · exact .pure _

theorem readSegment_grows
    {readInside : Connective → Option Int → List Char →
      Numbering (List Filter)}
    (h : ∀ connective number cs, Grows (readInside connective number cs))
    (connective : Connective) (group : Int) (segment : List Char) :
    Grows (readSegment readInside connective group segment) := by
  unfold readSegment
  split
  · exact (Grows.lift _).bind fun f => .pure [f]
  · split
    · exact .throw _
    · exact h _ _ _
  · split
    · exact h _ _ _
    · exact h _ _ _

theorem readWithin_grows (fuel : Nat) (connective : Connective)
    (number : Option Int) (cs : List Char) :
    Grows (readWithin fuel connective number cs) := by
  induction fuel generalizing connective number cs with
  | zero => exact .pure []
  | succ fuel ih =>
      cases hBlank : cs.all isBlank with
      | true =>
          rw [readWithin, if_pos hBlank]
          exact .pure []
      | false =>
          rw [readWithin_succ fuel connective number hBlank]
          refine (Grows.lift (splitTopLevel cs)).bind fun segments => ?_
          refine (openNumber_grows connective number).bind fun group => ?_
          exact (Grows.mapM (readSegment_grows ih connective group)
            segments).bind fun parts => .pure parts.flatten

end Group

theorem Document.expandBetween_grows (between : Between) :
    Numbering.Grows (expandBetween between) := by
  have hPair : ∀ x y : Result Filter, Numbering.Grows (do
      let first ← Numbering.lift x
      let second ← Numbering.lift y
      return [first, second]) := fun x y =>
    (Numbering.Grows.lift x).bind fun _ =>
      (Numbering.Grows.lift y).bind fun _ => .pure _
  unfold expandBetween
  dsimp only
  split
  · exact Numbering.Grows.allocate.bind fun group => hPair _ _
  · exact hPair _ _

/-! ## Groups and ranges that share a counter -/

open TableGate.Group (Agree Block Marked Numbered)

/-- The blocks of a range: the plain form asks for both of its bounds, the
negated form for one of them. -/
def Between.blocks (between : Between) : List (Block Value) :=
  if between.negated then [.anyOf [between.min, between.max]]
  else [.alone between.min, .alone between.max]

theorem Between.numbered_of_run {between : Between} {next after : Int}
    {filters : List Filter}
    (h : (Document.expandBetween between).run.run next =
      (.ok filters, after)) :
    Numbered next between.blocks filters after ∧
      List.Forall₂ (fun source f => FilterValue.ofValue source.1 = .ok f.value)
        (Block.sources 0 between.blocks) filters := by
  obtain ⟨least, most, hLeast, hMost, rfl, rfl⟩ := run_expandBetween h
  unfold blocks Between.filters
  cases between.negated with
  | true =>
      simp only [↓reduceIte]
      exact ⟨.anyOf_singleton rfl (by simp), .cons hLeast (.cons hMost .nil)⟩
  | false =>
      simp only [Bool.false_eq_true, ↓reduceIte]
      exact ⟨.alone rfl rfl (.alone rfl rfl (.nil _)),
        .cons hLeast (.cons hMost .nil)⟩

/-- A group or a range that is read with a counter; a group is given no number
from outside. -/
inductive Draw
  | group (connective : Connective) (text : String)
  | range (between : Between)

namespace Draw

/-- Read the filters of a group or a range. -/
def read : Draw → Numbering (List Filter)
  | group connective text => Group.read connective text
  | range between => Document.expandBetween between

/-- For each filter the place of what it forms a disjunction with: of the
outermost `or` group that it stands in, or of the negated range. -/
def origins : Draw → List (Option Nat)
  | group connective text =>
      Block.origins 0 (Group.blocks connective text.toList)
  | range between => Block.origins 0 between.blocks

/-- Each filter is read from the leaf of a group, or has the bound of a range,
to which its origin belongs. -/
def Reads : Draw → List Filter → Prop
  | group connective text, filters =>
      List.Forall₂ (fun source f => Group.ReadFrom source.1 f)
        (Block.sources 0 (Group.blocks connective text.toList)) filters
  | range between, filters =>
      List.Forall₂ (fun source f => FilterValue.ofValue source.1 = .ok f.value)
        (Block.sources 0 between.blocks) filters

/-- The filters at two places come from the same outermost `or` group, or from
the same negated range. -/
def SameGroup (draw : Draw) (k l : Nat) : Prop :=
  ∃ place, draw.origins[k]? = some (some place) ∧
    draw.origins[l]? = some (some place)

/-- What came of a draw, and the counter before and after it. -/
structure Outcome where
  draw : Draw
  before : Int
  result : Result (List Filter)
  after : Int

/-- Draw from a counter. -/
def outcome (draw : Draw) (next : Int) : Outcome where
  draw
  before := next
  result := (draw.read.run.run next).1
  after := (draw.read.run.run next).2

/-- Draw from one counter again and again, also after a failure. -/
def outcomes : Int → List Draw → List Outcome
  | _, [] => []
  | next, draw :: others =>
      draw.outcome next :: outcomes (draw.outcome next).after others

/-- A draw has given a filter at a place. -/
def Outcome.Gives (o : Outcome) (k : Nat) (f : Filter) : Prop :=
  ∃ filters, o.result = .ok filters ∧ filters[k]? = some f

/-- The numbers in a sequence of outcomes are fresh. -/
structure Fresh (outcomes : List Outcome) : Prop where
  /-- No draw lowers the counter, whether it succeeds or fails. -/
  grows : ∀ o ∈ outcomes, o.before ≤ o.after
  /-- Nor is it lowered from one draw to a later one. -/
  ordered : outcomes.Pairwise fun o later => o.after ≤ later.before
  /-- Each filter comes from what its origin belongs to. -/
  reads : ∀ o ∈ outcomes, ∀ filters, o.result = .ok filters →
    o.draw.Reads filters
  /-- Exactly the members of `or` groups have a number. -/
  marked : ∀ o ∈ outcomes, ∀ filters, o.result = .ok filters →
    ∀ f ∈ filters, f.isOr = true ↔ f.group ≠ 0
  /-- A number was drawn while the filter was read. -/
  drawn : ∀ o ∈ outcomes, ∀ filters, o.result = .ok filters →
    ∀ f ∈ filters, f.group ≠ 0 → o.before ≤ f.group ∧ f.group < o.after
  /-- Two filters share a number exactly if they are of one group. -/
  shared : ∀ {i j k l : Nat} {o p : Outcome} {f g : Filter},
    outcomes[i]? = some o → outcomes[j]? = some p → o.Gives k f →
      p.Gives l g → ((f.group ≠ 0 ∧ f.group = g.group) ↔
        i = j ∧ o.draw.SameGroup k l)

/-! ### One draw -/

theorem read_grows (draw : Draw) : Numbering.Grows draw.read := by
  cases draw with
  | group connective text =>
      exact Group.readWithin_grows _ connective none text.toList
  | range between => exact Document.expandBetween_grows between

variable {draw : Draw} {next after : Int} {filters : List Filter}

/-- The filters of a draw are those of some blocks, from which its origins
are. -/
theorem numbered_of_run (h : draw.read.run.run next = (.ok filters, after)) :
    (∃ (α : Type) (blocks : List (Block α)),
      draw.origins = Block.origins 0 blocks ∧
        Numbered next blocks filters after) ∧ draw.Reads filters := by
  cases draw with
  | group connective text =>
      have hFuel := Nat.lt_succ_self text.toList.length
      refine ⟨⟨_, _, rfl, Group.numbered_of_run hFuel h⟩, ?_⟩
      have hLeaves := Group.forall₂_leaves_of_run hFuel h
      rw [← Group.flatMap_leaves_blocks connective text.toList,
        ← Block.map_fst_sources 0] at hLeaves
      exact List.forall₂_map_left_iff.1 hLeaves
  | range between =>
      obtain ⟨hNumbered, hReads⟩ := Between.numbered_of_run h
      exact ⟨⟨_, _, rfl, hNumbered⟩, hReads⟩

/-- The filters of one draw are marked as their origins say. -/
theorem marked_of_run (h : draw.read.run.run next = (.ok filters, after)) :
    List.Forall₂ (Marked 0 next after) draw.origins filters := by
  obtain ⟨⟨α, blocks, hOrigins, hNumbered⟩, -⟩ := numbered_of_run h
  rw [hOrigins]
  exact hNumbered.marked 0

/-- Two filters of one draw share a number exactly if they are of one
group. -/
theorem agree_of_run (hNext : 0 < next)
    (h : draw.read.run.run next = (.ok filters, after)) {k l : Nat}
    {f g : Filter} (hf : filters[k]? = some f) (hg : filters[l]? = some g) :
    (f.group ≠ 0 ∧ f.group = g.group) ↔ draw.SameGroup k l := by
  obtain ⟨⟨α, blocks, hOrigins, hNumbered⟩, -⟩ := numbered_of_run h
  have hAgreeing := hNumbered.agreeing hNext 0
  rw [← hOrigins] at hAgreeing
  have hMarked := marked_of_run h
  obtain ⟨a, ha, -⟩ := Result.exists_getElem?_of_forall₂ hMarked.flip hf
  obtain ⟨b, hb, -⟩ := Result.exists_getElem?_of_forall₂ hMarked.flip hg
  have hAgree : Agree (a, f) (b, g) :=
    hAgreeing _ (List.mem_of_getElem? (List.getElem?_zip_eq_some.2 ⟨ha, hf⟩))
      _ (List.mem_of_getElem? (List.getElem?_zip_eq_some.2 ⟨hb, hg⟩))
  simp only [SameGroup, ha, hb, Option.some.injEq]
  exact hAgree

/-! ### A sequence of draws -/

/-- Each outcome is that of a draw from a counter no lower than the first. -/
theorem of_mem_outcomes {start : Int} {draws : List Draw} {o : Outcome}
    (h : o ∈ outcomes start draws) :
    start ≤ o.before ∧ o = o.draw.outcome o.before := by
  induction draws generalizing start with
  | nil => exact absurd h List.not_mem_nil
  | cons draw draws ih =>
      rcases List.mem_cons.1 h with rfl | hLater
      · exact ⟨Int.le_refl start, rfl⟩
      · obtain ⟨hStart, hOutcome⟩ := ih hLater
        exact ⟨Int.le_trans (draw.read_grows start) hStart, hOutcome⟩

theorem pairwise_outcomes (start : Int) (draws : List Draw) :
    (outcomes start draws).Pairwise fun o later => o.after ≤ later.before := by
  induction draws generalizing start with
  | nil => exact .nil
  | cons draw draws ih =>
      exact .cons (fun later hLater => (of_mem_outcomes hLater).1)
        (ih (draw.outcome start).after)

variable {start : Int} {draws : List Draw} {o p : Outcome}

/-- A draw among others that succeeds has been run. -/
theorem run_of_mem (hMem : o ∈ outcomes start draws)
    {filters : List Filter} (h : o.result = .ok filters) :
    o.draw.read.run.run o.before = (.ok filters, o.after) := by
  rw [(of_mem_outcomes hMem).2] at h ⊢
  exact Prod.ext h rfl

/-- A number that a draw has given was drawn in it. -/
theorem range_of_gives (hMem : o ∈ outcomes start draws) {k : Nat} {f : Filter}
    (h : o.Gives k f) (hSome : f.group ≠ 0) :
    o.before ≤ f.group ∧ f.group < o.after := by
  obtain ⟨filters, hResult, hAt⟩ := h
  obtain ⟨origin, -, hMarked⟩ := Result.exists_of_mem_forall₂
    (marked_of_run (run_of_mem hMem hResult)) (List.mem_of_getElem? hAt)
  exact hMarked.range hSome

/-- Two draws, one before the other, give no common number. -/
theorem ne_of_lt {i j k l : Nat} {f g : Filter} (hLt : i < j)
    (ho : (outcomes start draws)[i]? = some o)
    (hp : (outcomes start draws)[j]? = some p) (hf : o.Gives k f)
    (hg : p.Gives l g) (hSome : f.group ≠ 0) : f.group ≠ g.group := by
  intro hSame
  have hBefore := (range_of_gives (List.mem_of_getElem? ho) hf hSome).2
  have hAfter := (range_of_gives (List.mem_of_getElem? hp) hg
    (hSame ▸ hSome)).1
  obtain ⟨hi, rfl⟩ := List.getElem?_eq_some_iff.1 ho
  obtain ⟨hj, rfl⟩ := List.getElem?_eq_some_iff.1 hp
  have hOrder := List.pairwise_iff_getElem.1 (pairwise_outcomes start draws)
    i j hi hj hLt
  omega

end Draw

/-- Group numbers are fresh. Whatever groups and ranges are read with one
counter that starts from one or above, in whatever order and with whatever
failures among them, two filters share a number exactly if they come from one
reading, and there from the same outermost `or` group or the same negated
range. -/
theorem numbers_fresh {start : Int} (hStart : 1 ≤ start) (draws : List Draw) :
    Draw.Fresh (Draw.outcomes start draws) where
  grows o hMem := by
    rw [(Draw.of_mem_outcomes hMem).2]
    exact o.draw.read_grows o.before
  ordered := Draw.pairwise_outcomes start draws
  reads o hMem filters hResult :=
    (Draw.numbered_of_run (Draw.run_of_mem hMem hResult)).2
  marked o hMem filters hResult f hf := by
    have hFrom := (Draw.of_mem_outcomes hMem).1
    obtain ⟨origin, -, hMarked⟩ := Result.exists_of_mem_forall₂
      (Draw.marked_of_run (Draw.run_of_mem hMem hResult)) hf
    exact hMarked.isOr_iff (by omega)
  drawn o hMem filters hResult f hf hSome := by
    obtain ⟨k, hAt⟩ := List.mem_iff_getElem?.1 hf
    exact Draw.range_of_gives hMem ⟨filters, hResult, hAt⟩ hSome
  shared {i j k l o p f g} ho hp hf hg := by
    rcases Nat.lt_trichotomy i j with hLt | rfl | hGt
    · refine iff_of_false (fun ⟨hSome, hSame⟩ => ?_) (fun h => by omega)
      exact Draw.ne_of_lt hLt ho hp hf hg hSome hSame
    · obtain rfl : o = p := Option.some.inj (ho.symm.trans hp)
      have hMem := List.mem_of_getElem? ho
      have hFrom := (Draw.of_mem_outcomes hMem).1
      obtain ⟨filters, hResult, hf⟩ := hf
      obtain ⟨others, hOther, hg⟩ := hg
      obtain rfl := Except.ok.inj (hResult.symm.trans hOther)
      rw [Draw.agree_of_run (by omega) (Draw.run_of_mem hMem hResult) hf hg]
      exact (and_iff_right rfl).symm
    · refine iff_of_false (fun ⟨hSome, hSame⟩ => ?_) (fun h => by omega)
      exact Draw.ne_of_lt hGt hp ho hg hf (hSame ▸ hSome) hSame.symm

/-- Groups and ranges two of which are refused after they have drawn a number:
an `and` group in an `or` group, and a bound that is no filter value. -/
def Draw.mixed : List Draw := [
  .group .and "a.eq.1,or(b.eq.2,OR(c.eq.3)),and(or(d.eq.4),or( ))",
  .group .or "e.eq.5,and(f.eq.6)",
  .range ⟨"g", .int 7, .int 8, true⟩,
  .range ⟨"g", .object [], .int 8, true⟩,
  .range ⟨"h", .int 9, .int 10, false⟩,
  .group .or " ",
  .group .or "e.eq.5,e.eq.5"]

theorem numbers_fresh_mixed :
    (1 : Int) ≤ 3 ∧
    (Draw.outcomes 3 Draw.mixed).map (fun o => (o.before,
        o.result.toOption.map (List.map Filter.group), o.after)) =
      [(3, some [0, 3, 3, 4], 5), (5, none, 6), (6, some [6, 6], 7),
        (7, none, 8), (8, some [0, 0], 8), (8, some [], 8),
        (8, some [8, 8], 9)] ∧
    Draw.mixed.map Draw.origins =
      [[none, some 1, some 1, some 2], [some 0, some 0], [some 0, some 0],
        [some 0, some 0], [none, none], [], [some 0, some 0]] ∧
    Draw.Fresh (Draw.outcomes 3 Draw.mixed) :=
  ⟨by decide, by rfl, by decide +kernel,
    numbers_fresh (by decide) Draw.mixed⟩

end TableGate
