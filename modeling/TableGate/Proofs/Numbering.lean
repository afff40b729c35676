import Mathlib.Data.List.Forall2
import TableGate.Filter.Group

/-!
# Running a computation that hands out group numbers

A `Numbering` started from a number gives a result and the number that is next
afterwards. The lemmas here run its parts one after the other, so that proofs
about group texts never open the monad.

## Main results

* `Group.readWithin_succ`: reading a group is splitting it, opening a number
  for it and reading its segments.
* `Group.steps_of_run`: what each of these steps has given when a group was
  read.
-/

namespace TableGate.Numbering

variable {α β : Type}

theorem run_pure (a : α) (next : Int) :
    (pure a : Numbering α).run.run next = (.ok a, next) := rfl

theorem run_lift (result : Result α) (next : Int) :
    (Numbering.lift result).run.run next = (result, next) := rfl

theorem run_allocate (next : Int) :
    Numbering.allocate.run.run next = (.ok next, next + 1) := rfl

/-- What follows a success starts from the number it left. -/
theorem run_bind_ok {x : Numbering α} {f : α → Numbering β} {a : α}
    {next after : Int} (h : x.run.run next = (.ok a, after)) :
    (x >>= f).run.run next = (f a).run.run after := by
  rw [ExceptT.run_bind, StateT.run_bind, h]
  rfl

/-- What succeeds has succeeded in each of its steps. -/
theorem run_bind_eq_ok {x : Numbering α} {f : α → Numbering β} {b : β}
    {next after : Int} :
    (x >>= f).run.run next = (.ok b, after) ↔ ∃ a middle,
      x.run.run next = (.ok a, middle) ∧
        (f a).run.run middle = (.ok b, after) := by
  rw [ExceptT.run_bind, StateT.run_bind]
  rcases x.run.run next with ⟨_ | a, middle⟩
  · constructor
    · intro h
      cases h
    · rintro ⟨a, m, h, -⟩
      cases h
  · constructor
    · intro h
      exact ⟨a, middle, rfl, h⟩
    · rintro ⟨a', m, h, hNext⟩
      cases h
      exact hNext

/-- Mapping over a list runs the head and goes on from the number it left. -/
theorem run_mapM_cons {f : α → Numbering β} {a : α} {rest : List α} {b : β}
    {bs : List β} {next middle after : Int}
    (hHead : (f a).run.run next = (.ok b, middle))
    (hRest : (rest.mapM f).run.run middle = (.ok bs, after)) :
    ((a :: rest).mapM f).run.run next = (.ok (b :: bs), after) := by
  rw [List.mapM_cons, run_bind_ok hHead, run_bind_ok hRest, run_pure]

/-- What was read from a list was read from its head and then, from the number
left, from the others. -/
theorem run_mapM_cons_eq_ok {f : α → Numbering β} {x : α} {xs : List α}
    {bs : List β} {next after : Int} :
    ((x :: xs).mapM f).run.run next = (.ok bs, after) ↔
      ∃ b others middle, (f x).run.run next = (.ok b, middle) ∧
        (xs.mapM f).run.run middle = (.ok others, after) ∧
        bs = b :: others := by
  constructor
  · intro h
    rw [List.mapM_cons] at h
    obtain ⟨b, middle, hHead, hRest⟩ := run_bind_eq_ok.1 h
    obtain ⟨others, last, hOthers, hEnd⟩ := run_bind_eq_ok.1 hRest
    cases hEnd
    exact ⟨b, others, middle, hHead, hOthers, rfl⟩
  · rintro ⟨b, others, middle, hHead, hRest, rfl⟩
    exact run_mapM_cons hHead hRest

/-- What was read from a list was read item by item, each from some number. -/
theorem forall₂_of_run_mapM {f : α → Numbering β} {xs : List α} {bs : List β}
    {next after : Int} (h : (xs.mapM f).run.run next = (.ok bs, after)) :
    List.Forall₂ (fun x b =>
      ∃ first last, (f x).run.run first = (.ok b, last)) xs bs := by
  induction xs generalizing bs next with
  | nil =>
      cases h
      exact .nil
  | cons x xs ih =>
      obtain ⟨b, others, middle, hHead, hOthers, rfl⟩ :=
        run_mapM_cons_eq_ok.1 h
      exact .cons ⟨next, middle, hHead⟩ (ih hOthers)

/-- A list is read when each of its items is read from every number on. -/
theorem exists_run_mapM {f : α → Numbering β} {xs : List α}
    (h : ∀ x ∈ xs, ∀ next, ∃ b after, (f x).run.run next = (.ok b, after))
    (next : Int) :
    ∃ bs after, (xs.mapM f).run.run next = (.ok bs, after) := by
  induction xs generalizing next with
  | nil => exact ⟨[], next, rfl⟩
  | cons x xs ih =>
      obtain ⟨hFirst, hOthers⟩ := List.forall_mem_cons.1 h
      obtain ⟨b, middle, hHead⟩ := hFirst next
      obtain ⟨bs, after, hRest⟩ := ih hOthers middle
      exact ⟨b :: bs, after, run_mapM_cons hHead hRest⟩

/-- Plain results in a list are read one by one and hand out nothing. -/
theorem run_mapM_lift (f : α → Result β) (xs : List α) (next : Int) :
    (xs.mapM fun x => Numbering.lift (f x)).run.run next =
      (xs.mapM f, next) := by
  induction xs with
  | nil => rfl
  | cons x xs ih =>
      rw [List.mapM_cons, List.mapM_cons, ExceptT.run_bind, StateT.run_bind,
        run_lift]
      cases hFirst : f x with
      | error e => rfl
      | ok b =>
          show (do
            let bs ← xs.mapM fun x => Numbering.lift (f x)
            return b :: bs : Numbering (List β)).run.run next = _
          rw [ExceptT.run_bind, StateT.run_bind, ih]
          cases xs.mapM f <;> rfl

end TableGate.Numbering

namespace TableGate.Group

/-- The number the filters of a group get: one given from outside, a fresh one
for an `or` group, zero for an `and` group. -/
def openNumber : Connective → Option Int → Numbering Int
  | _, some group => pure group
  | .or, none => Numbering.allocate
  | .and, none => pure 0

theorem readWithin_succ (fuel : Nat) (connective : Connective)
    (number : Option Int) {cs : List Char} (h : cs.all Text.isBlank = false) :
    readWithin (fuel + 1) connective number cs = (do
      let segments ← Numbering.lift (splitTopLevel cs)
      let group ← openNumber connective number
      let parts ← segments.mapM
        (readSegment (readWithin fuel) connective group)
      return parts.flatten) := by
  rw [readWithin, if_neg (by simp [h])]
  refine congrArg (Numbering.lift (splitTopLevel cs) >>= ·)
    (funext fun segments => ?_)
  cases number with
  | some group => rfl
  | none => cases connective <;> rfl

/-- What was read was split, a number was opened for it and its segments were
read, each step from the number the step before left. -/
theorem steps_of_run {fuel : Nat} {connective : Connective}
    {number : Option Int} {cs : List Char} {next after : Int}
    {filters : List Filter} (hSome : cs.all Text.isBlank = false)
    (h : (readWithin (fuel + 1) connective number cs).run.run next =
      (.ok filters, after)) :
    ∃ segments group middle parts, splitTopLevel cs = .ok segments ∧
      (openNumber connective number).run.run next = (.ok group, middle) ∧
      (segments.mapM (readSegment (readWithin fuel) connective
        group)).run.run middle = (.ok parts, after) ∧
      parts.flatten = filters := by
  rw [readWithin_succ fuel connective number hSome] at h
  obtain ⟨segments, first, hSplit, h⟩ := Numbering.run_bind_eq_ok.1 h
  obtain ⟨group, middle, hOpen, h⟩ := Numbering.run_bind_eq_ok.1 h
  obtain ⟨parts, last, hParts, h⟩ := Numbering.run_bind_eq_ok.1 h
  cases h
  rw [Numbering.run_lift, Prod.mk.injEq] at hSplit
  obtain ⟨hSplit, rfl⟩ := hSplit
  exact ⟨segments, group, middle, parts, hSplit, hOpen, hParts, rfl⟩

end TableGate.Group
