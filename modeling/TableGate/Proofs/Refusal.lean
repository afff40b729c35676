import TableGate.Proofs.Numbering
import TableGate.Proofs.Result
import TableGate.Query.Document

/-!
# Readers fail only by refusing

Whatever text a client sends, the readers of a request either give a result or
find the request not valid. None of them fails in a way nobody planned for.

`OnlyRefuses` says this of one result. Like `FailsOnly`, which speaks of any
kind of failure, it is closed under the ways in which readers are put together,
so that each reader needs no more than its own steps.

## Main results

* `Items.compile_onlyRefuses`: a query string is compiled or not valid.
* `Document.compile_onlyRefuses`: so is a query document.
-/

namespace TableGate

variable {α β : Type}

/-! ## Results and numberings -/

namespace Result

/-- Every failure is of a kind. -/
def FailsOnly (P : Error → Prop) (x : Result α) : Prop :=
  ∀ e, x = .error e → P e

namespace FailsOnly

variable {P Q : Error → Prop} {x : Result α}

theorem mono (h : FailsOnly P x) (hWeaker : ∀ e, P e → Q e) :
    FailsOnly Q x :=
  fun e hError => hWeaker e (h e hError)

theorem ok (a : α) : FailsOnly P (.ok a : Result α) := by
  intro e h
  cases h

theorem error {e : Error} (h : P e) : FailsOnly P (.error e : Result α) := by
  intro e' hError
  cases hError
  exact h

/-- What follows a result may depend on what it is. -/
theorem bind_of_eq {f : α → Result β} (hFirst : FailsOnly P x)
    (hNext : ∀ a, x = .ok a → FailsOnly P (f a)) : FailsOnly P (x >>= f) := by
  cases x with
  | error e => exact .error (hFirst e rfl)
  | ok a => exact hNext a rfl

theorem bind {f : α → Result β} (hFirst : FailsOnly P x)
    (hNext : ∀ a, FailsOnly P (f a)) : FailsOnly P (x >>= f) :=
  hFirst.bind_of_eq fun a _ => hNext a

theorem map (h : FailsOnly P x) (f : α → β) : FailsOnly P (x.map f) := by
  cases x with
  | error e => exact .error (h e rfl)
  | ok a => exact .ok (f a)

/-- A step that refuses on a condition, and goes on without it. -/
theorem check {c : Prop} [Decidable c] {cause : Invalid}
    (hCause : P (.invalid cause)) {f : Unit → Result β}
    (h : ∀ u, FailsOnly P (f u)) :
    FailsOnly P (if c then refuse cause >>= f else f ()) := by
  split
  · exact .error hCause
  · exact h ()

theorem mapM_of_mem {f : α → Result β} {xs : List α}
    (h : ∀ a ∈ xs, FailsOnly P (f a)) : FailsOnly P (xs.mapM f) := by
  induction xs with
  | nil => exact .ok []
  | cons x xs ih =>
      obtain ⟨hFirst, hOthers⟩ := List.forall_mem_cons.1 h
      rw [List.mapM_cons]
      exact hFirst.bind fun b => (ih hOthers).bind fun bs => .ok (b :: bs)

theorem mapM {f : α → Result β} (h : ∀ a, FailsOnly P (f a)) (xs : List α) :
    FailsOnly P (xs.mapM f) :=
  mapM_of_mem fun a _ => h a

theorem forM {f : α → Result Unit} (h : ∀ a, FailsOnly P (f a))
    (xs : List α) : FailsOnly P (xs.forM f) := by
  induction xs with
  | nil => exact .ok ()
  | cons x xs ih => exact (h x).bind fun _ => ih

end FailsOnly

/-- The only failure is that the request is not valid. -/
def OnlyRefuses (x : Result α) : Prop :=
  ∀ e, x = .error e → ∃ cause, e = .invalid cause

namespace OnlyRefuses

variable {x : Result α}

theorem ok (a : α) : OnlyRefuses (.ok a : Result α) := FailsOnly.ok a

theorem refuse (cause : Invalid) :
    OnlyRefuses (TableGate.refuse cause : Result α) :=
  FailsOnly.error ⟨cause, rfl⟩

theorem bind {f : α → Result β} (hFirst : OnlyRefuses x)
    (hNext : ∀ a, OnlyRefuses (f a)) : OnlyRefuses (x >>= f) :=
  FailsOnly.bind hFirst hNext

theorem map (h : OnlyRefuses x) (f : α → β) : OnlyRefuses (x.map f) :=
  FailsOnly.map h f

theorem check {c : Prop} [Decidable c] (cause : Invalid)
    {f : Unit → Result β} (h : ∀ u, OnlyRefuses (f u)) :
    OnlyRefuses (if c then TableGate.refuse cause >>= f else f ()) :=
  FailsOnly.check ⟨cause, rfl⟩ h

theorem mapM {f : α → Result β} (h : ∀ a, OnlyRefuses (f a)) (xs : List α) :
    OnlyRefuses (xs.mapM f) :=
  FailsOnly.mapM h xs

theorem forM {f : α → Result Unit} (h : ∀ a, OnlyRefuses (f a))
    (xs : List α) : OnlyRefuses (xs.forM f) :=
  FailsOnly.forM h xs

/-- A reader that only refuses fails in every way that refusals are. -/
theorem failsOnly {P : Error → Prop} (h : OnlyRefuses x)
    (hInvalid : ∀ cause, P (.invalid cause)) : FailsOnly P x := by
  intro e hError
  obtain ⟨cause, rfl⟩ := h e hError
  exact hInvalid cause

/-- What gives no result is refused. -/
theorem exists_invalid (h : OnlyRefuses x) (hNot : ∀ a, x ≠ .ok a) :
    ∃ cause, x = .error (.invalid cause) := by
  cases x with
  | error e =>
      obtain ⟨cause, rfl⟩ := h e rfl
      exact ⟨cause, rfl⟩
  | ok a => exact absurd rfl (hNot a)

/-- What is not refused went through its first step. -/
theorem exists_ok (h : OnlyRefuses x) {f : α → Result β}
    (hNot : ∀ cause, x >>= f ≠ .error (.invalid cause)) :
    ∃ a, x = .ok a ∧ ∀ cause, f a ≠ .error (.invalid cause) := by
  cases x with
  | error e =>
      obtain ⟨cause, rfl⟩ := h e rfl
      exact absurd rfl (hNot cause)
  | ok a => exact ⟨a, rfl, hNot⟩

end OnlyRefuses

end Result

namespace Numbering

/-- From every number on, the only failure is that the request is not
valid. -/
def OnlyRefuses (x : Numbering α) : Prop :=
  ∀ next, Result.OnlyRefuses (x.run.run next).1

theorem OnlyRefuses.pure (a : α) : OnlyRefuses (Pure.pure a) :=
  fun _ => .ok a

theorem OnlyRefuses.lift {x : Result α} (h : Result.OnlyRefuses x) :
    OnlyRefuses (Numbering.lift x) :=
  fun _ => h

theorem OnlyRefuses.bind {x : Numbering α} {f : α → Numbering β}
    (hFirst : OnlyRefuses x) (hNext : ∀ a, OnlyRefuses (f a)) :
    OnlyRefuses (x >>= f) := by
  intro next
  rw [ExceptT.run_bind, StateT.run_bind]
  rcases hRun : x.run.run next with ⟨result, after⟩
  cases result with
  | error e =>
      intro e' h
      have hSame := hFirst next
      rw [hRun] at hSame
      exact hSame e' (congrArg Except.error (Except.error.inj h))
  | ok a => exact hNext a after

theorem OnlyRefuses.mapM {f : α → Numbering β} (h : ∀ a, OnlyRefuses (f a))
    (xs : List α) : OnlyRefuses (xs.mapM f) := by
  induction xs with
  | nil => exact .pure []
  | cons x xs ih =>
      rw [List.mapM_cons]
      exact (h x).bind fun b => ih.bind fun bs => .pure (b :: bs)

end Numbering

open Result (OnlyRefuses)

/-! ## Filters and groups -/

theorem FilterValue.ofValue_onlyRefuses (value : Value) :
    OnlyRefuses (FilterValue.ofValue value) := by
  have hItems : ∀ items, OnlyRefuses (FilterValue.ofItems items) := by
    intro items
    unfold ofItems
    split
    · exact .ok _
    · exact .refuse _
  unfold ofValue
  split
  case h_7 items => exact hItems items
  case h_8 items => exact hItems items
  case h_9 => exact .refuse _
  all_goals exact .ok _

theorem Filter.build_onlyRefuses {column token : String} {raw : Value}
    {isOr : Bool} {group : Int} :
    OnlyRefuses (Filter.build column token raw isOr group) :=
  (FilterValue.ofValue_onlyRefuses _).bind fun _ => .ok _

namespace Group

theorem unwrap_onlyRefuses (connective : Connective) (s : String) :
    OnlyRefuses (unwrap connective s) := by
  unfold unwrap
  dsimp only
  split
  · exact .ok _
  · split
    · exact .refuse _
    · exact .ok _

theorem splitTopLevel_onlyRefuses (cs : List Char) :
    OnlyRefuses (splitTopLevel cs) := by
  unfold splitTopLevel
  split
  · exact .ok _
  · exact .refuse _

theorem readFilter_onlyRefuses (connective : Connective) (group : Int)
    (segment : List Char) :
    OnlyRefuses (readFilter connective group segment) := by
  unfold readFilter
  split
  · exact Filter.build_onlyRefuses
  · exact .refuse _

/-- A segment is read as safely as the insides of nested groups are. -/
theorem readSegment_onlyRefuses
    {readInside : Connective → Option Int → List Char →
      Numbering (List Filter)}
    (h : ∀ connective number cs,
      Numbering.OnlyRefuses (readInside connective number cs))
    (connective : Connective) (group : Int) (segment : List Char) :
    Numbering.OnlyRefuses
      (readSegment readInside connective group segment) := by
  unfold readSegment
  split
  · exact (Numbering.OnlyRefuses.lift
      (readFilter_onlyRefuses connective group segment)).bind
        fun f => .pure [f]
  · split
    · exact fun _ => OnlyRefuses.refuse _
    · exact h _ _ _
  · split
    · exact h _ _ _
    · exact h _ _ _

theorem openNumber_onlyRefuses (connective : Connective)
    (number : Option Int) :
    Numbering.OnlyRefuses (openNumber connective number) := by
  unfold openNumber
  split
  · exact .pure _
  · exact fun _ => .ok _
  · exact .pure _

theorem readWithin_onlyRefuses (fuel : Nat) (connective : Connective)
    (number : Option Int) (cs : List Char) :
    Numbering.OnlyRefuses (readWithin fuel connective number cs) := by
  induction fuel generalizing connective number cs with
  | zero => exact .pure []
  | succ fuel ih =>
      cases hBlank : cs.all Text.isBlank with
      | true =>
          rw [readWithin, if_pos hBlank]
          exact .pure []
      | false =>
          rw [readWithin_succ fuel connective number hBlank]
          refine (Numbering.OnlyRefuses.lift
            (splitTopLevel_onlyRefuses cs)).bind fun segments => ?_
          refine (openNumber_onlyRefuses connective number).bind
            fun group => ?_
          exact (Numbering.OnlyRefuses.mapM
            (readSegment_onlyRefuses ih connective group) segments).bind
              fun parts => .pure parts.flatten

end Group

theorem Items.readGroups_onlyRefuses (groups : List (Connective × String)) :
    Numbering.OnlyRefuses (Items.readGroups groups) :=
  (Numbering.OnlyRefuses.mapM (fun _ =>
    (Numbering.OnlyRefuses.lift (Group.unwrap_onlyRefuses _ _)).bind
      fun _ => Group.readWithin_onlyRefuses _ _ _ _) groups).bind
        fun parts => .pure parts.flatten

/-! ## The other clauses -/

namespace Selection

theorem readItem_onlyRefuses (segment : List Char) :
    OnlyRefuses (readItem segment) := by
  have hAggregate : ∀ call : Call, OnlyRefuses (aggregate call) := by
    intro call
    unfold aggregate
    dsimp only
    split
    · exact .refuse _
    · split
      · split
        · exact .ok _
        · exact .refuse _
      · exact .ok _
  unfold readItem
  dsimp only
  split
  · exact .ok _
  · split
    · exact .ok _
    · split
      · exact .refuse _
      · exact (hAggregate _).map _

theorem read_onlyRefuses (s : String) : OnlyRefuses (read s) := by
  unfold read
  split
  · exact .ok _
  · exact (Group.splitTopLevel_onlyRefuses _).bind fun segments =>
      (OnlyRefuses.mapM readItem_onlyRefuses segments).bind fun _ => .ok _

end Selection

theorem OrderBy.read_onlyRefuses (s : String) :
    OnlyRefuses (OrderBy.read s) := by
  have hEntry : ∀ segment, OnlyRefuses (OrderBy.readEntry segment) := by
    intro segment
    unfold OrderBy.readEntry
    split
    · exact .ok _
    · split
      · exact .ok _
      · split
        · exact .refuse _
        · exact .ok _
  exact (OnlyRefuses.mapM hEntry _).bind fun _ => .ok _

theorem readBound_onlyRefuses (name value : String) :
    OnlyRefuses (readBound name value) := by
  unfold readBound
  split
  · exact .ok _
  · split
    · split
      · exact .refuse _
      · exact .ok _
    · exact .refuse _

theorem CountType.read_onlyRefuses (s : String) :
    OnlyRefuses (CountType.read s) := by
  unfold CountType.read
  split
  · exact .ok _
  · split
    · exact .ok _
    · exact .refuse _

namespace Cursor

theorem readColumn_onlyRefuses (column : Option String) :
    OnlyRefuses (readColumn column) := by
  unfold readColumn
  split
  · exact .ok _
  · split
    · exact .ok _
    · dsimp only
      split
      · exact .ok _
      · exact .refuse _

theorem ofToken_onlyRefuses (token : String) :
    OnlyRefuses (ofToken token) := by
  have hFields : ∀ fields, OnlyRefuses (ofFields fields) := by
    intro fields
    unfold ofFields
    split
    · split
      · exact .refuse _
      · split
        · split
          · exact .ok _
          · exact .refuse _
        · exact .refuse _
    · exact .refuse _
  unfold ofToken
  split
  · exact .refuse _
  · split
    · exact hFields _
    · exact .refuse _

theorem resolve_onlyRefuses (token column : Option String) :
    OnlyRefuses (resolve token column) := by
  unfold resolve
  split
  · exact .ok _
  · split
    · exact .ok _
    · refine (ofToken_onlyRefuses _).bind fun cursor => ?_
      split
      · split
        · exact .ok _
        · exact .ok _
      · exact .ok _

end Cursor

/-! ## Whole requests -/

namespace Items

theorem readFilter_onlyRefuses (key value : String) :
    OnlyRefuses (readFilter key value) := by
  unfold readFilter
  split
  · exact .refuse _
  · split
    · split
      · exact .refuse _
      · exact Filter.build_onlyRefuses
    · split
      · exact Filter.build_onlyRefuses
      · exact Filter.build_onlyRefuses

theorem clause_onlyRefuses {items : Items} {key : String} {absent : α}
    {readClause : String → Result α} (h : ∀ s, OnlyRefuses (readClause s)) :
    OnlyRefuses (items.clause key absent readClause) := by
  unfold clause
  split
  · exact h _
  · exact .ok _

theorem compile_onlyRefuses (items : Items) : OnlyRefuses items.compile :=
  (clause_onlyRefuses Selection.read_onlyRefuses).bind fun _ =>
    (OnlyRefuses.mapM (fun _ => readFilter_onlyRefuses _ _) _).bind fun _ =>
    (readGroups_onlyRefuses _ 1).bind fun _ =>
    (Cursor.readColumn_onlyRefuses _).bind fun _ =>
    (clause_onlyRefuses OrderBy.read_onlyRefuses).bind fun _ =>
    (clause_onlyRefuses (readBound_onlyRefuses _)).bind fun _ =>
    (clause_onlyRefuses (readBound_onlyRefuses _)).bind fun _ =>
    (clause_onlyRefuses CountType.read_onlyRefuses).bind fun _ =>
    (Cursor.resolve_onlyRefuses _ _).bind fun _ => .ok _

end Items

namespace Document

theorem comparison_onlyRefuses {column : String} {operator : Operator}
    {value : Value} {isOr : Bool} {group : Int} :
    OnlyRefuses (comparison column operator value isOr group) :=
  (FilterValue.ofValue_onlyRefuses value).bind fun _ => .ok _

theorem expandBetween_onlyRefuses (between : Between) :
    Numbering.OnlyRefuses (expandBetween between) := by
  have hPair : ∀ x y : Result Filter, OnlyRefuses x → OnlyRefuses y →
      Numbering.OnlyRefuses (do
        let first ← Numbering.lift x
        let second ← Numbering.lift y
        return [first, second]) := fun x y hx hy =>
    (Numbering.OnlyRefuses.lift hx).bind fun _ =>
      (Numbering.OnlyRefuses.lift hy).bind fun _ => .pure _
  unfold expandBetween
  dsimp only
  split
  · exact fun next => hPair _ _ comparison_onlyRefuses
      comparison_onlyRefuses (next + 1)
  · exact hPair _ _ comparison_onlyRefuses comparison_onlyRefuses

theorem compileFilters_onlyRefuses (document : Document) :
    Numbering.OnlyRefuses document.compileFilters :=
  (Numbering.OnlyRefuses.mapM
    (fun _ => .lift Filter.build_onlyRefuses) _).bind fun _ =>
    (Numbering.OnlyRefuses.mapM expandBetween_onlyRefuses _).bind fun _ =>
    (Items.readGroups_onlyRefuses _).bind fun _ => .pure _

theorem compile_onlyRefuses (document : Document) :
    OnlyRefuses document.compile := by
  refine (Selection.read_onlyRefuses _).bind fun _ =>
    Result.OnlyRefuses.bind (compileFilters_onlyRefuses document 1) fun _ =>
    (Cursor.readColumn_onlyRefuses _).bind fun _ => ?_
  have hRest : ∀ count : Result (Option CountType), OnlyRefuses count →
      ∀ f : Option CountType → Option Cursor → Params,
      ∀ column, OnlyRefuses (do
        let token ← count
        let cursor ← Cursor.resolve document.cursor column
        return f token cursor) := fun _ hCount _ _ =>
    hCount.bind fun _ => (Cursor.resolve_onlyRefuses _ _).bind fun _ => .ok _
  split
  · exact hRest _ (CountType.read_onlyRefuses _) _ _
  · exact hRest _ (.ok _) _ _

end Document
end TableGate
