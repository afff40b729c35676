import TableGate.Engine
import TableGate.Proofs.Sql.Building

/-!
# What a task sends

A task may send any number of statements, and how many depends on what the
database answers. `Sends` says that a task only adds to the trace and that
every statement it sends has a property. It is closed under the ways in which
tasks are put together, so the statements of an operation are followed from
where they are built to where they are sent.

## Main results

* `Sends.bind`: a task that goes on sends what its parts send.
* `Engine.select_sends` and the like: an operation sends the statements that
  its builders give.
-/

namespace TableGate

open Sql (PreparedStatement)

variable {δ α β : Type} {Q : PreparedStatement → Prop}

namespace Task

/-- Whatever the world, a task adds to the trace, and every statement that it
sends has a property. -/
def Sends (Q : PreparedStatement → Prop) (task : Task δ α) : Prop :=
  ∀ world, ∃ new, (task.run.run world).2.events = world.events ++ new ∧
    ∀ p, Event.statement p ∈ new → Q p

namespace Sends

theorem mono {R : PreparedStatement → Prop} {task : Task δ α}
    (h : Sends Q task) (hWeaker : ∀ p, Q p → R p) : Sends R task := by
  intro world
  obtain ⟨new, hEvents, hSent⟩ := h world
  exact ⟨new, hEvents, fun p hMem => hWeaker p (hSent p hMem)⟩

/-- A task that leaves the trace alone sends nothing. -/
theorem of_events_eq {task : Task δ α}
    (h : ∀ world, (task.run.run world).2.events = world.events) :
    Sends Q task := by
  intro world
  exact ⟨[], by rw [h world, List.append_nil],
    fun _ hMem => absurd hMem List.not_mem_nil⟩

theorem pure (a : α) : Sends Q (Pure.pure a : Task δ α) :=
  .of_events_eq fun _ => rfl

theorem lift (result : Result α) : Sends Q (Task.lift result : Task δ α) :=
  .of_events_eq fun _ => rfl

theorem throw (e : Error) : Sends Q (MonadExcept.throw e : Task δ α) :=
  .of_events_eq fun _ => rfl

theorem log (write : Logger → Logger) :
    Sends Q (Task.log write : Task δ Unit) :=
  .of_events_eq fun _ => rfl

theorem record {event : Event} (h : ∀ p, event = .statement p → Q p) :
    Sends Q (Task.record event : Task δ Unit) := by
  intro world
  refine ⟨[event], rfl, fun p hMem => ?_⟩
  exact h p (List.mem_singleton.1 hMem).symm

theorem bind {task : Task δ α} {f : α → Task δ β} (hFirst : Sends Q task)
    (hNext : ∀ a, Sends Q (f a)) : Sends Q (task >>= f) := by
  intro world
  obtain ⟨first, hEvents, hSent⟩ := hFirst world
  rw [ExceptT.run_bind, StateT.run_bind]
  rcases hRun : task.run.run world with ⟨result, after⟩
  rw [hRun] at hEvents
  cases result with
  | error e => exact ⟨first, hEvents, hSent⟩
  | ok a =>
      obtain ⟨second, hMore, hOthers⟩ := hNext a after
      refine ⟨first ++ second, ?_, fun p hMem => ?_⟩
      · show ((f a).run.run after).2.events = _
        rw [hMore, hEvents, List.append_assoc]
      · exact (List.mem_append.1 hMem).elim (hSent p) (hOthers p)

/-- What is sent after a plain result may depend on that result. -/
theorem lift_bind {result : Result α} {f : α → Task δ β}
    (h : ∀ a, result = .ok a → Sends Q (f a)) :
    Sends Q (Task.lift result >>= f) := by
  cases result with
  | error e => exact .of_events_eq fun _ => rfl
  | ok a => exact h a rfl

theorem map {task : Task δ α} (h : Sends Q task) (f : α → β) :
    Sends Q (f <$> task) := by
  rw [map_eq_pure_bind]
  exact h.bind fun a => .pure (f a)

theorem attempt {task : Task δ α} (h : Sends Q task) :
    Sends Q (Task.attempt task) := by
  intro world
  rw [attempt_run]
  exact h world

theorem ending_ne_statement (outcome : Result α) (p : PreparedStatement) :
    Task.ending outcome ≠ .statement p := by
  cases outcome <;> exact Event.noConfusion

theorem transaction {task : Task δ α} (h : Sends Q task)
    (database : Database δ) : Sends Q (Task.transaction database task) := by
  have hGet : Sends Q (get : Task δ (World δ)) := .of_events_eq fun _ => rfl
  refine hGet.bind fun world => ?_
  split
  · exact .throw _
  · refine (Sends.record fun p hEvent => Event.noConfusion hEvent).bind
      fun _ => h.attempt.bind fun outcome => hGet.bind fun after => ?_
    exact (Sends.record fun p hEvent =>
      absurd hEvent (ending_ne_statement _ p)).bind fun _ => .lift _

theorem send (database : Database δ) {prepared : PreparedStatement}
    (h : Q prepared) : Sends Q (Task.send database prepared) := by
  intro world
  refine ⟨[.statement prepared], rfl, fun p hMem => ?_⟩
  cases List.mem_singleton.1 hMem
  exact h

end Sends

end Task

/-! ## The operations of the engine -/

open TableGate.Task (Sends)

namespace Engine

open Sql (Builder Rendered Statement)

variable (engine : Engine δ) {r : Rendered}

theorem execute_sends (h : Q r.prepare) : Sends Q (engine.execute r) := by
  unfold execute
  split
  on_goal 1 =>
    refine (Sends.lift _).bind fun line => (Sends.log _).bind fun _ => ?_
  all_goals
    refine (Sends.send engine.database h).bind fun answer => ?_
    split
    · exact .pure _
    · exact (Sends.log _).bind fun _ => .throw _
    · exact .throw _

theorem fetch_sends (h : Q r.prepare) : Sends Q (engine.fetch r) :=
  (engine.execute_sends h).bind fun _ => .lift _

theorem mutate_sends (h : Q r.prepare) : Sends Q (engine.mutate r) :=
  (engine.fetch_sends h).transaction _

/-- The statements of a plan for a total. -/
def CountPlan.statements : CountPlan → List Rendered
  | .exact count => [count]
  | .planned explain => [explain]
  | .estimated count explain => [count, explain]

theorem runCount_sends {plan : CountPlan}
    (h : ∀ r ∈ plan.statements, Q r.prepare) :
    Sends Q (engine.runCount plan) := by
  have hTotal : ∀ (r : Rendered) (read : QueryResult → Result Int),
      r ∈ plan.statements → Sends Q (do
        Task.lift (read (← engine.execute r)) : Task δ Int) :=
    fun r read hr => (engine.execute_sends (h r hr)).bind fun _ => .lift _
  cases plan with
  | exact count => exact hTotal count QueryResult.count List.mem_cons_self
  | planned explain =>
      exact hTotal explain QueryResult.estimate List.mem_cons_self
  | estimated count explain =>
      refine (hTotal explain QueryResult.estimate
        (List.mem_cons_of_mem _ List.mem_cons_self)).bind fun planned => ?_
      split
      · exact hTotal count QueryResult.count List.mem_cons_self
      · exact .pure _

variable {table : Table} {params : Params}

/-- The statements of a plan count rows or ask for an estimate. -/
theorem mem_statements_countPlan {count : CountType} {plan : CountPlan}
    (h : countPlan table params count = .ok plan)
    (hMem : r ∈ plan.statements) :
    ∃ s, (Sql.count table params = .ok s ∨ Sql.explain table params = .ok s) ∧
      s.rendered = r := by
  have hCounts : ∀ {count}, Builder.count table params = .ok count →
      ∃ s, (Sql.count table params = .ok s ∨
        Sql.explain table params = .ok s) ∧ s.rendered = count := by
    intro count hCount
    obtain ⟨s, hs, hSame⟩ :=
      Sql.exists_statement (Builder.count_eq table params) hCount
    exact ⟨s, .inl hs, hSame⟩
  have hExplains : ∀ {explain}, Builder.explain table params = .ok explain →
      ∃ s, (Sql.count table params = .ok s ∨
        Sql.explain table params = .ok s) ∧ s.rendered = explain := by
    intro explain hExplain
    obtain ⟨s, hs, hSame⟩ :=
      Sql.exists_statement (Builder.explain_eq table params) hExplain
    exact ⟨s, .inr hs, hSame⟩
  cases count with
  | exact =>
      obtain ⟨count, hCount, h⟩ := Result.bind_eq_ok.1 h
      rw [← Result.pure_eq_ok.1 h] at hMem
      exact List.mem_singleton.1 hMem ▸ hCounts hCount
  | planned =>
      obtain ⟨explain, hExplain, h⟩ := Result.bind_eq_ok.1 h
      rw [← Result.pure_eq_ok.1 h] at hMem
      exact List.mem_singleton.1 hMem ▸ hExplains hExplain
  | estimated =>
      obtain ⟨count, hCount, h⟩ := Result.bind_eq_ok.1 h
      obtain ⟨explain, hExplain, h⟩ := Result.bind_eq_ok.1 h
      rw [← Result.pure_eq_ok.1 h] at hMem
      rcases List.mem_cons.1 hMem with rfl | hMem
      · exact hCounts hCount
      · exact List.mem_singleton.1 hMem ▸ hExplains hExplain

/-- A total that may be asked for sends what is sent for it if it is. -/
theorem total_sends {plan : Option CountPlan}
    (hPlan : params.count.mapM (countPlan table params) = .ok plan)
    (h : ∀ s, Sql.count table params = .ok s ∨
      Sql.explain table params = .ok s → Q s.prepare) :
    Sends Q (plan.mapM engine.runCount) := by
  cases hOption : params.count with
  | none =>
      rw [hOption] at hPlan
      rw [← Result.pure_eq_ok.1 hPlan]
      exact .pure none
  | some count =>
      rw [hOption] at hPlan
      cases hChosen : countPlan table params count with
      | error e =>
          rw [Option.mapM_some, hChosen] at hPlan
          cases hPlan
      | ok chosen =>
          rw [Option.mapM_some, hChosen] at hPlan
          cases hPlan
          rw [Option.mapM_some]
          refine Sends.map (engine.runCount_sends fun r hMem => ?_) some
          obtain ⟨s, hs, rfl⟩ := mem_statements_countPlan hChosen hMem
          exact h s hs

/-- What is sent after a statement was built may depend on its pieces. -/
theorem build_bind_sends {built : Result Rendered}
    {statement : Result Statement} {f : Rendered → Task δ α}
    (hSame : built = statement.map Statement.rendered)
    (h : ∀ s, statement = .ok s → Sends Q (f s.rendered)) :
    Sends Q (Task.lift built >>= f) := by
  refine .lift_bind fun r hr => ?_
  obtain ⟨s, hs, rfl⟩ := Sql.exists_statement hSame hr
  exact h s hs

theorem select_sends
    (hSelect : ∀ s, Sql.select table params = .ok s → Q s.prepare)
    (hCount : ∀ s, Sql.count table params = .ok s ∨
      Sql.explain table params = .ok s → Q s.prepare) :
    Sends Q (engine.select table params) :=
  (Sends.lift _).bind fun _ =>
    build_bind_sends (Builder.select_eq table params) fun s hs =>
      Sends.lift_bind fun _ hPlan => Sends.transaction
        ((engine.fetch_sends (r := s.rendered) (hSelect s hs)).bind fun _ =>
          (engine.total_sends hPlan hCount).bind fun _ => .pure _) _

theorem get_sends {key : Value} {params : Option Params}
    (h : ∀ s, Sql.selectByKey table (keyParts key) (params.getD {}) = .ok s →
      Q s.prepare) : Sends Q (engine.get table key params) := by
  cases params
  on_goal 2 => refine (Sends.lift _).bind fun _ => ?_
  all_goals
    refine build_bind_sends (Builder.selectByKey_eq table _ _) fun s hs => ?_
    have hFetch := engine.fetch_sends (r := s.rendered) (h s hs)
    refine (hFetch.transaction _).bind fun rows => ?_
    split
    · exact .pure _
    · exact .throw _

theorem requireRow_sends (key : Value) (rows : List Row) :
    Sends Q (requireRow table key rows : Task δ (List Row)) := by
  unfold requireRow
  split
  · exact .throw _
  · exact .pure _

/-- The statement that inserts a body, as pieces. -/
def insertion (table : Table) (body : Value) (upsert : Option Upsert) :
    Result Statement := do
  let _ ← Sql.tablePiece table
  match body with
  | .object record => Sql.insert table record upsert
  | .list records => Sql.insertBatch table records upsert
  | _ => refuse .bodyNotRecords

theorem insertStatement_eq (table : Table) (body : Value)
    (upsert : Option Upsert) :
    insertStatement table body upsert =
      (insertion table body upsert).map Statement.rendered := by
  unfold insertStatement insertion
  cases Sql.tablePiece table with
  | error e => rfl
  | ok target =>
      cases body with
      | object record => exact Builder.insert_eq table record upsert
      | list records => exact Builder.insertBatch_eq table records upsert
      | _ => rfl

theorem insert_sends {body : Value} {upsert : Option Upsert}
    (h : ∀ s, insertion table body upsert = .ok s → Q s.prepare) :
    Sends Q (engine.insert table body upsert) :=
  build_bind_sends (insertStatement_eq table body upsert) fun s hs =>
    engine.mutate_sends (r := s.rendered) (h s hs)

theorem updateByKey_sends {key : Value} {values : Fields}
    (h : ∀ s, Sql.updateByKey table (keyParts key) values = .ok s →
      Q s.prepare) : Sends Q (engine.updateByKey table key values) :=
  build_bind_sends (Builder.updateByKey_eq table _ values) fun s hs =>
    (engine.mutate_sends (r := s.rendered) (h s hs)).bind fun rows =>
      requireRow_sends key rows

theorem update_sends {values : Fields}
    (h : ∀ s, Sql.update table values params = .ok s → Q s.prepare) :
    Sends Q (engine.update table values params) :=
  (Sends.lift _).bind fun _ =>
    build_bind_sends (Builder.update_eq table values params) fun s hs =>
      engine.mutate_sends (r := s.rendered) (h s hs)

theorem deleteByKey_sends {key : Value}
    (h : ∀ s, Sql.deleteByKey table (keyParts key) = .ok s → Q s.prepare) :
    Sends Q (engine.deleteByKey table key) :=
  build_bind_sends (Builder.deleteByKey_eq table _) fun s hs =>
    (engine.mutate_sends (r := s.rendered) (h s hs)).bind fun rows =>
      requireRow_sends key rows

theorem delete_sends
    (h : ∀ s, Sql.delete table params = .ok s → Q s.prepare) :
    Sends Q (engine.delete table params) :=
  (Sends.lift _).bind fun _ =>
    build_bind_sends (Builder.delete_eq table params) fun s hs =>
      engine.mutate_sends (r := s.rendered) (h s hs)

/-- A database that answers every statement without rows. -/
def rowless : Database Unit where
  connect := fun _ => none
  execute := fun _ _ => (.ok {}, ())

end Engine
end TableGate
