import TableGate.Proofs.Exchange

/-!
# Transactions

An operation of the engine opens at most one transaction, sends all of its
statements there, and says how it ends by what the database answers: commit
when every statement was executed and what was wanted of it was read, rollback
at the first that was not, and also where the commit itself fails. An
operation on one record that finds none fails after its commit.

`Transacted` is how a run went that opened a transaction, and `Transacts` says
that every run of a task went so or opened none and failed.

## Main results

* `Transacts.transaction`: a task that reads transacts when it is run in a
  transaction.
* `Engine.operations_transact`: every operation transacts.
-/

namespace TableGate

open Sql (PreparedStatement Rendered)
open Result (FailsOnly OnlyRefuses)
open TableGate.Task (Reads Unshown)

variable {δ α β : Type}

/-! ## How a transaction goes -/

/-- How a run went that opened a transaction: the exchanges in it, its end,
and what came of them. -/
structure Transacted (engine : Engine δ) (courses : List (List Reading))
    (before after : World δ) (outcome : Result α) (xs : List Exchange)
    (ending : Event) : Prop where
  /-- The database let it be opened. -/
  opens : engine.database.opens before.database = none
  /-- There is one transaction, and everything that is sent is sent in it. -/
  events : after.events =
    before.events ++ .begin :: (xs.filterMap Exchange.event? ++ [ending])
  /-- The answers are those of the database. -/
  held : Held engine.database before.database xs after.database
  /-- What is not sent cannot be shown in the log. -/
  unsent : ∀ x ∈ xs, x.answer = none → Unshown engine x.prepared
  /-- Nothing is sent after a statement that failed. -/
  read : ∀ x ∈ xs.dropLast, x.Succeeds
  /-- A course is begun. -/
  course : ∃ course ∈ courses, xs.map (·.reading) <+: course
  ends : ending = .commit ∨ ending = .rollback
  commit_iff : ending = .commit ↔
    (∀ x ∈ xs, x.Succeeds) ∧ engine.database.commits after.database = none
  /-- Where nothing failed, a course was gone through to the end. -/
  complete : (∀ x ∈ xs, x.Succeeds) → xs.map (·.reading) ∈ courses
  /-- The request was valid. -/
  valid : ∀ cause, outcome ≠ .error (.invalid cause)
  /-- What is rolled back fails, and not by a fault of the client. -/
  failed : ending = .rollback → ∃ e, outcome = .error e ∧ e.status = 500
  /-- What is committed fails only when a record is missing: when the one
  statement returned no rows. -/
  committed : ending = .commit →
    FailsOnly (fun e => (∃ table key, e = Engine.noRecord table key) ∧
      ∃ p result, xs = [⟨p, some (.ok result), .rows⟩] ∧ result.rows = [])
      outcome
  /-- A record is missing only after a commit. -/
  missing : ∀ table key, outcome = .error (.recordNotFound table key) →
    ending = .commit

/-- How a run went that opened no transaction: a statement was not built, or
the database did not let a transaction be opened. -/
structure Unopened (engine : Engine δ) (before after : World δ)
    (outcome : Result α) : Prop where
  events : after.events = before.events
  database : after.database = before.database
  failed : ∃ e, outcome = .error e ∧
    (Unbuilt e ∨ ∃ message, e = .unexpected (.raised message) ∧
      engine.database.opens before.database = some message)

section Transacted

variable {engine : Engine δ} {courses : List (List Reading)}
  {before after : World δ} {outcome : Result α} {xs : List Exchange}
  {ending : Event}

/-- How a transaction ends is the last that is done. -/
theorem Transacted.getLast?_events
    (h : Transacted engine courses before after outcome xs ending) :
    after.events.getLast? = some ending := by
  rw [h.events, ← List.cons_append, ← List.append_assoc,
    List.getLast?_concat]

/-- What fails after it was opened is rolled back. -/
theorem Transacted.of_rollback {e : Error}
    (hOpens : engine.database.opens before.database = none)
    (hEvents : after.events = before.events ++
      .begin :: (xs.filterMap Exchange.event? ++ [.rollback]))
    (hHeld : Held engine.database before.database xs after.database)
    (hUnsent : ∀ x ∈ xs, x.answer = none → Unshown engine x.prepared)
    (hRead : ∀ x ∈ xs.dropLast, x.Succeeds)
    (hCourse : ∃ course ∈ courses, xs.map (·.reading) <+: course)
    (hFails : ¬((∀ x ∈ xs, x.Succeeds) ∧
      engine.database.commits after.database = none))
    (hComplete : (∀ x ∈ xs, x.Succeeds) → xs.map (·.reading) ∈ courses)
    (hStatus : e.status = 500) :
    Transacted engine courses before after (.error e : Result α) xs
      .rollback where
  opens := hOpens
  events := hEvents
  held := hHeld
  unsent := hUnsent
  read := hRead
  course := hCourse
  ends := .inr rfl
  commit_iff := iff_of_false nofun hFails
  complete := hComplete
  valid := fun cause h => by
    cases h
    cases hStatus
  failed := fun _ => ⟨e, rfl, hStatus⟩
  committed := nofun
  missing := fun table key h => by
    cases h
    cases hStatus

/-- A task that goes through one of its courses commits, unless the commit
fails. -/
theorem Transacted.of_went
    (hOpens : engine.database.opens before.database = none)
    (hEvents : after.events = before.events ++
      .begin :: (xs.filterMap Exchange.event? ++
        [Task.ending (engine.database.commit after.database outcome)]))
    (hHeld : Held engine.database before.database xs after.database)
    (hUnsent : ∀ x ∈ xs, x.answer = none → Unshown engine x.prepared)
    (hWent : Went courses xs outcome) :
    Transacted engine courses before after
      (engine.database.commit after.database outcome) xs
      (Task.ending (engine.database.commit after.database outcome)) := by
  cases hWent with
  | @through xs a hCourse hRead =>
      have hFront : ∀ x ∈ xs.dropLast, x.Succeeds := fun x hx =>
        hRead x (List.dropLast_subset xs hx)
      have hBegun : ∃ course ∈ courses, xs.map (·.reading) <+: course :=
        ⟨_, hCourse, List.prefix_rfl⟩
      cases hCommits : engine.database.commits after.database with
      | none =>
          rw [Database.commit_of_none hCommits] at hEvents ⊢
          exact {
            opens := hOpens
            events := hEvents
            held := hHeld
            unsent := hUnsent
            read := hFront
            course := hBegun
            ends := .inl rfl
            commit_iff := iff_of_true rfl ⟨hRead, hCommits⟩
            complete := fun _ => hCourse
            valid := fun cause h => by cases h
            failed := fun hRollback => by cases hRollback
            committed := fun _ => .ok _
            missing := fun table key h => by cases h }
      | some message =>
          rw [Database.commit_of_some hCommits] at hEvents ⊢
          refine .of_rollback hOpens hEvents hHeld hUnsent hFront hBegun
            (fun hAll => ?_) (fun _ => hCourse) rfl
          cases hCommits.symm.trans hAll.2
  | @failed xs x e hCourse hRead hLast hStatus =>
      have hNot : ¬∀ y ∈ xs ++ [x], y.Succeeds := fun hAll =>
        hLast (hAll x (List.mem_append_right _ List.mem_cons_self))
      exact .of_rollback hOpens hEvents hHeld hUnsent
        (by rwa [List.dropLast_concat]) hCourse (fun hAll => hNot hAll.1)
        (fun hAll => absurd hAll hNot) hStatus

/-- What is made of a failure does not change how a transaction went. -/
theorem Transacted.of_error {e : Error}
    (h : Transacted engine courses before after (.error e : Result α) xs
      ending) :
    Transacted engine courses before after (.error e : Result β) xs ending :=
  { h with
    valid := fun cause he => h.valid cause (by cases he; rfl)
    failed := fun hRollback => by
      obtain ⟨e', he, hStatus⟩ := h.failed hRollback
      cases he
      exact ⟨e, rfl, hStatus⟩
    committed := fun hCommit e' he => h.committed hCommit e' (by cases he; rfl)
    missing := fun table key he => h.missing table key (by cases he; rfl) }

/-- What is made of the result of a transaction does not change how it
went. -/
theorem Transacted.of_commit {a : α} {outcome : Result β}
    (h : Transacted engine courses before after (.ok a) xs .commit)
    (hFails : FailsOnly (fun e => (∃ table key, e = Engine.noRecord table key) ∧
      ∃ p result, xs = [⟨p, some (.ok result), .rows⟩] ∧ result.rows = [])
      outcome) :
    Transacted engine courses before after outcome xs .commit :=
  { h with
    valid := fun cause he => by
      obtain ⟨⟨table, key, hSame⟩, -⟩ := hFails _ he
      unfold Engine.noRecord at hSame
      split at hSame <;> cases hSame
    failed := nofun
    committed := fun _ => hFails
    missing := fun _ _ _ => rfl }

end Transacted

namespace Task

/-- Whatever the world, a task opens no transaction and fails, or it opens one
and goes there through one of its courses. -/
def Transacts (engine : Engine δ) (courses : List (List Reading))
    (task : Task δ α) : Prop :=
  ∀ world, Unopened engine world (task.run.run world).2
      (task.run.run world).1 ∨
    ∃ xs ending, Transacted engine courses world (task.run.run world).2
      (task.run.run world).1 xs ending

namespace Transacts

variable {engine : Engine δ} {courses : List (List Reading)} {r : Rendered}

/-- What is found out before a transaction is opened. -/
theorem lift_bind {result : Result α} {f : α → Task δ β}
    (hFails : FailsOnly Unbuilt result)
    (h : ∀ a, result = .ok a → Transacts engine courses (f a)) :
    Transacts engine courses (Task.lift result >>= f) := by
  cases result with
  | error e => exact fun world => .inl ⟨rfl, rfl, e, rfl, .inl (hFails e rfl)⟩
  | ok a => exact h a rfl

/-- A statement is built before a transaction is opened. -/
theorem build_bind {x : Result Sql.Statement} {built : Result Rendered}
    (hBuilt : built = x.map Sql.Statement.rendered) {f : Rendered → Task δ β}
    (hFails : FailsOnly Unbuilt x)
    (h : ∀ r, Transacts engine courses (f r)) :
    Transacts engine courses (Task.lift built >>= f) :=
  lift_bind (hBuilt ▸ hFails.map _) fun r _ => h r

/-- A task that reads transacts when it is run in a transaction. -/
theorem transaction {task : Task δ α} (h : Reads engine courses task) :
    Transacts engine courses (Task.transaction engine.database task) := by
  intro world
  cases hOpens : engine.database.opens world.database with
  | some message =>
      rw [transaction_run_of_opens hOpens]
      exact .inl ⟨rfl, rfl, _, rfl, .inr ⟨message, rfl, hOpens⟩⟩
  | none =>
      obtain ⟨xs, hEvents, hHeld, hUnsent, hWent⟩ :=
        h { world with events := world.events ++ [.begin] }
      rw [transaction_run hOpens]
      refine .inr ⟨xs, _, .of_went hOpens ?_ hHeld hUnsent hWent⟩
      show _ ++ _ = _
      rw [hEvents]
      simp only [List.append_assoc, List.cons_append, List.nil_append]

/-- The rows that are committed are those of the answer. -/
theorem rows_of_commit {database : Database δ} {state : δ}
    {answer : Except Refusal QueryResult} {rows : List Row}
    (h : database.commit state (answer.mapError Refusal.error >>=
      QueryResult.decodeRows) = .ok rows) :
    ∃ result, answer = .ok result ∧
      rows = result.rows.map (decodeRow result.keys) := by
  obtain ⟨found, hFound, h⟩ := Result.bind_eq_ok.1 h
  split at h
  · cases h
  · obtain rfl := Result.pure_eq_ok.1 h
    cases answer with
    | error refusal => cases hFound
    | ok result => exact ⟨result, rfl, result.eq_of_decodeRows hFound⟩

/-- A statement that writes is the only one that is sent. -/
theorem mutate_run_transacted {world : World δ}
    (hOpens : engine.database.opens world.database = none)
    (hShown : ¬Unshown engine r.prepare) :
    ∃ outcome after, (engine.mutate r).run.run world = (outcome, after) ∧
      outcome = engine.database.commit after.database
        ((engine.database.execute world.database r.prepare).1.mapError
          Refusal.error >>= QueryResult.decodeRows) ∧
      Transacted engine [[.rows]] world after outcome
        [⟨r.prepare, some (engine.database.execute world.database r.prepare).1,
          .rows⟩] (Task.ending outcome) := by
  obtain ⟨logger, hRun⟩ := engine.mutate_run hOpens hShown
  exact ⟨_, _, hRun, rfl, .of_went hOpens rfl (.sent _ _ (.nil _)) (by simp)
    (Reading.fits_rows.went _ _)⟩

/-- The rows that are committed are those of its answer. -/
theorem of_mutate_run {world after : World δ} {rows : List Row}
    (h : (engine.mutate r).run.run world = (.ok rows, after)) :
    ∃ result, rows = result.rows.map (decodeRow result.keys) ∧
      Transacted engine [[.rows]] world after (.ok rows)
        [⟨r.prepare, some (.ok result), .rows⟩] .commit := by
  cases hOpens : engine.database.opens world.database with
  | some message =>
      rw [Engine.mutate, transaction_run_of_opens hOpens] at h
      cases h
  | none =>
      by_cases hUnshown : Unshown engine r.prepare
      · have hFetch : engine.fetch r =
            engine.ask r QueryResult.decodeRows := rfl
        rw [Engine.mutate, transaction_run hOpens, hFetch,
          engine.ask_run_of_unshown hUnshown] at h
        cases h
      · obtain ⟨outcome, other, hRun, hOutcome, hDone⟩ :=
          mutate_run_transacted hOpens hUnshown
        obtain ⟨rfl, rfl⟩ := Prod.mk.inj (hRun.symm.trans h)
        obtain ⟨result, hAnswer, hRows⟩ := rows_of_commit hOutcome.symm
        rw [hAnswer] at hDone
        exact ⟨result, hRows, hDone⟩

/-- An operation on one record fails after its transaction when no row
answered, and only then. -/
theorem mutate_bind {f : List Row → Task δ α} {table : Table} {key : Value}
    (hFound : ∀ row rows world, ∃ a,
      (f (row :: rows)).run.run world = (.ok a, world))
    (hMissing : ∀ world, (f []).run.run world =
      (.error (Engine.noRecord table key), world)) :
    Transacts engine [[.rows]] (engine.mutate r >>= f) := by
  intro world
  rcases hRun : (engine.mutate r).run.run world with ⟨e | rows, after⟩
  · have hMutate : Transacts engine [[.rows]] (engine.mutate r) :=
      transaction (Reads.ask Reading.fits_rows)
    have hFailed := hMutate world
    rw [hRun] at hFailed
    rw [bind_run_error hRun]
    rcases hFailed with hNone | ⟨xs, ending, hOne⟩
    · obtain ⟨e', hSame, hCause⟩ := hNone.failed
      cases hSame
      exact .inl ⟨hNone.events, hNone.database, e, rfl, hCause⟩
    · exact .inr ⟨xs, ending, hOne.of_error⟩
  · obtain ⟨result, hRows, hCommit⟩ := of_mutate_run hRun
    rw [bind_run_ok hRun]
    -- The transaction is over; the rows only decide what is answered.
    cases rows with
    | cons row rows =>
        obtain ⟨a, hLast⟩ := hFound row rows after
        rw [hLast]
        exact .inr ⟨_, _, hCommit.of_commit (.ok a)⟩
    | nil =>
        rw [hMissing after]
        exact .inr ⟨_, _, hCommit.of_commit (.error ⟨⟨table, key, rfl⟩,
          r.prepare, result, rfl, List.map_eq_nil_iff.1 hRows.symm⟩)⟩

end Transacts

end Task

/-! ## The operations of the engine -/

/-- What is read to find a total in this way. -/
def CountType.courses : CountType → List (List Reading)
  | exact => [[.count]]
  | planned => [[.estimate]]
  | estimated => [[.estimate], [.estimate, .count]]

/-- What is read to find a total, if it was asked for. -/
def totalCourses : Option CountType → List (List Reading)
  | none => [[]]
  | some count => count.courses

/-- What is read for a page: its rows, and then the total. -/
def pageCourses (count : Option CountType) : List (List Reading) :=
  (totalCourses count).map (.rows :: ·)

theorem totalCourses_ne_nil (count : Option CountType) :
    totalCourses count ≠ [] := by
  rcases count with _ | _ | _ | _ <;> exact List.cons_ne_nil _ _

/-- A request that is not valid has no statement. -/
theorem Result.OnlyRefuses.unbuilt {x : Result α} (h : OnlyRefuses x) :
    FailsOnly Unbuilt x :=
  h.failsOnly .invalid

namespace Engine

open Sql (Builder)
open TableGate.Task (Transacts)

theorem totalPlan_failsOnly {P : Error → Prop}
    (hInvalid : ∀ cause, P (.invalid cause)) (table : Table) {params : Params}
    (hUnshown : Sql.TestsUnshown params.filters →
      P (.unexpected .integerTooLong)) :
    FailsOnly P (params.count.mapM (countPlan table params)) := by
  cases params.count with
  | none => exact .ok none
  | some count =>
      exact (countPlan_failsOnly hInvalid table hUnshown count).map some

theorem totalPlan_unbuilt (table : Table) (params : Params) :
    FailsOnly Unbuilt (params.count.mapM (countPlan table params)) :=
  totalPlan_failsOnly .invalid table fun _ => .notShowable

variable (engine : Engine δ) {table : Table} {params : Params}

theorem runCount_reads {count : CountType} {plan : CountPlan}
    (h : countPlan table params count = .ok plan) :
    Reads engine count.courses (engine.runCount plan) := by
  cases count with
  | exact =>
      obtain ⟨count, -, h⟩ := Result.bind_eq_ok.1 h
      rw [← Result.pure_eq_ok.1 h]
      exact Reads.ask (r := count) Reading.fits_count
  | planned =>
      obtain ⟨explain, -, h⟩ := Result.bind_eq_ok.1 h
      rw [← Result.pure_eq_ok.1 h]
      exact Reads.ask (r := explain) Reading.fits_estimate
  | estimated =>
      obtain ⟨count, -, h⟩ := Result.bind_eq_ok.1 h
      obtain ⟨explain, -, h⟩ := Result.bind_eq_ok.1 h
      rw [← Result.pure_eq_ok.1 h]
      have hNext : ∀ planned, Reads engine [[], [.count]]
          (if planned < engine.config.estimatedCountThreshold
            then engine.exactCount count else pure planned) := by
        intro planned
        split
        · exact (Reads.ask (r := count) Reading.fits_count).mono (by simp)
        · exact .pure planned List.mem_cons_self
      exact Reads.ask_bind (r := explain) Reading.fits_estimate
        (List.cons_ne_nil _ _) hNext

/-- A total that may be asked for is found as it would be if it is. -/
theorem total_reads {count : Option CountType} {plan : Option CountPlan}
    (h : count.mapM (countPlan table params) = .ok plan) :
    Reads engine (totalCourses count) (plan.mapM engine.runCount) := by
  cases count with
  | none =>
      rw [← Result.pure_eq_ok.1 h]
      exact .pure none List.mem_cons_self
  | some count =>
      rw [Option.mapM_some] at h
      cases hPlan : countPlan table params count with
      | error e =>
          rw [hPlan] at h
          cases h
      | ok chosen =>
          rw [hPlan] at h
          rw [← Except.ok.inj h, Option.mapM_some]
          exact (engine.runCount_reads hPlan).map some

theorem select_transacts (table : Table) (params : Params) :
    Transacts engine (pageCourses params.count)
      (engine.select table params) := by
  refine .lift_bind (params.validate_onlyRefuses table).unbuilt fun _ _ =>
    .build_bind (Builder.select_eq table params)
      (Sql.select_unbuilt table params) fun r => ?_
  refine .lift_bind (totalPlan_unbuilt table params)
    fun plan hPlan => .transaction ?_
  refine Reads.ask_bind (r := r) Reading.fits_rows (totalCourses_ne_nil _)
    fun rows => ?_
  have h := (engine.total_reads hPlan).map fun total => ReadResult.mk rows total
  rwa [map_eq_pure_bind] at h

theorem get_transacts (table : Table) (key : Value) (params : Option Params) :
    Transacts engine [[.rows]] (engine.get table key params) := by
  cases params
  on_goal 2 =>
    refine Transacts.lift_bind
      (Params.validate_onlyRefuses _ table).unbuilt fun _ _ => ?_
  all_goals
    refine Transacts.build_bind (Builder.selectByKey_eq table _ _)
      (Sql.selectByKey_unbuilt table _ _) fun r => ?_
    exact .mutate_bind (fun row _ _ => ⟨row, rfl⟩) fun _ => rfl

theorem mutate_transacts (r : Rendered) :
    Transacts engine [[.rows]] (engine.mutate r) :=
  .transaction (Reads.ask (r := r) Reading.fits_rows)

theorem mutate_requireRow_transacts (r : Rendered) (table : Table)
    (key : Value) :
    Transacts engine [[.rows]] (engine.mutate r >>= requireRow table key) :=
  .mutate_bind (fun row rows _ => ⟨row :: rows, rfl⟩) fun _ => rfl

theorem insert_transacts (table : Table) (body : Value)
    (upsert : Option Upsert) :
    Transacts engine [[.rows]] (engine.insert table body upsert) :=
  .build_bind (insertStatement_eq table body upsert)
    (insertion_unbuilt table body upsert) engine.mutate_transacts

theorem updateByKey_transacts (table : Table) (key : Value)
    (values : Fields) :
    Transacts engine [[.rows]] (engine.updateByKey table key values) :=
  .build_bind (Builder.updateByKey_eq table _ values)
    (Sql.updateByKey_unbuilt table _ values) fun r =>
      engine.mutate_requireRow_transacts r table key

theorem update_transacts (table : Table) (values : Fields)
    (params : Params) :
    Transacts engine [[.rows]] (engine.update table values params) :=
  .lift_bind (params.validate_onlyRefuses table).unbuilt fun _ _ =>
    .build_bind (Builder.update_eq table values params)
      (Sql.update_unbuilt table values params) engine.mutate_transacts

theorem deleteByKey_transacts (table : Table) (key : Value) :
    Transacts engine [[.rows]] (engine.deleteByKey table key) :=
  .build_bind (Builder.deleteByKey_eq table _)
    (Sql.deleteByKey_unbuilt table _) fun r =>
      engine.mutate_requireRow_transacts r table key

theorem delete_transacts (table : Table) (params : Params) :
    Transacts engine [[.rows]] (engine.delete table params) :=
  .lift_bind (params.validate_onlyRefuses table).unbuilt fun _ _ =>
    .build_bind (Builder.delete_eq table params)
      (Sql.delete_unbuilt table params) engine.mutate_transacts

/-- Whatever an operation is given and whatever the database answers, the
operation opens no transaction and fails, or it opens one, sends all its
statements there and ends it by their answers. A table that is not in the
catalog is found missing before that. -/
theorem operations_transact (engine : Engine δ) (table : Table) :
    (∀ params, Transacts engine (pageCourses params.count)
      (engine.select table params)) ∧
    (∀ key params, Transacts engine [[.rows]]
      (engine.get table key params)) ∧
    (∀ body upsert, Transacts engine [[.rows]]
      (engine.insert table body upsert)) ∧
    (∀ key values, Transacts engine [[.rows]]
      (engine.updateByKey table key values)) ∧
    (∀ values params, Transacts engine [[.rows]]
      (engine.update table values params)) ∧
    (∀ key, Transacts engine [[.rows]]
      (engine.deleteByKey table key)) ∧
    (∀ params, Transacts engine [[.rows]]
      (engine.delete table params)) ∧
    ∀ {α : Type} (schema name : String) (operation : Table → Task δ α) world,
      engine.catalog.get? schema name = none →
        (Task.lift (engine.catalog.resolve schema name) >>=
            operation).run.run world =
          (.error (.tableNotFound schema name), world) := by
  refine ⟨engine.select_transacts table, engine.get_transacts table,
    engine.insert_transacts table, engine.updateByKey_transacts table,
    engine.update_transacts table, engine.deleteByKey_transacts table,
    engine.delete_transacts table, fun schema name operation world h => ?_⟩
  rw [Catalog.resolve, h]
  rfl

/-- A database without rows that tires: of every second answer nothing can be
read, the fifth statement is not committed, and after nine no transaction is
opened. -/
def tiring : Database Nat where
  connect := fun _ => none
  opens := fun sent => if sent < 9 then none else some "closed"
  commits := fun sent => if sent = 5 then some "conflict" else none
  execute := fun sent _ =>
    (.ok {
      scalar := if sent % 2 = 0 then .ok .null else .error (.driver "gone") },
      sent + 1)

/-- An engine that serves items from it. -/
def tiringItems : Engine Nat where
  catalog := { tables := [Sql.items] }
  config := { projectName := "items" }
  database := tiring

/-- A counted list of items: the rows arrive, the count breaks off, and all is
rolled back. An item that is deleted is found missing after the commit, if the
commit does not fail and a transaction is opened at all. -/
theorem operations_transact_items :
    (∃ xs, Transacted tiringItems (pageCourses (some .exact)) ⟨{}, 0, []⟩
      ((tiringItems.select Sql.items { count := some .exact }).run.run
        ⟨{}, 0, []⟩).2
      ((tiringItems.select Sql.items { count := some .exact }).run.run
        ⟨{}, 0, []⟩).1 xs .rollback) ∧
    (∃ xs, Transacted tiringItems [[.rows]] ⟨{}, 0, []⟩
      ((tiringItems.deleteByKey Sql.items (.int 7)).run.run ⟨{}, 0, []⟩).2
      ((tiringItems.deleteByKey Sql.items (.int 7)).run.run ⟨{}, 0, []⟩).1
      xs .commit) ∧
    (∃ xs, Transacted tiringItems [[.rows]] ⟨{}, 4, []⟩
      ((tiringItems.deleteByKey Sql.items (.int 7)).run.run ⟨{}, 4, []⟩).2
      ((tiringItems.deleteByKey Sql.items (.int 7)).run.run ⟨{}, 4, []⟩).1
      xs .rollback) ∧
    Unopened tiringItems ⟨{}, 9, []⟩
      ((tiringItems.deleteByKey Sql.items (.int 7)).run.run ⟨{}, 9, []⟩).2
      ((tiringItems.deleteByKey Sql.items (.int 7)).run.run ⟨{}, 9, []⟩).1 ∧
    (Task.lift (tiringItems.catalog.resolve "public" "orders") >>=
        fun table => tiringItems.deleteByKey table (.int 7)).run.run
          ⟨{}, 0, []⟩ =
      (.error (.tableNotFound "public" "orders"), ⟨{}, 0, []⟩) := by
  obtain ⟨hSelect, -, -, -, -, hDelete, -, hUnknown⟩ :=
    operations_transact tiringItems Sql.items
  have hOpened : ∀ {α : Type} {courses : List (List Reading)}
      {before after : World Nat} {outcome : Result α} {ending : Event},
      (Unopened tiringItems before after outcome ∨ ∃ xs ending,
        Transacted tiringItems courses before after outcome xs ending) →
      after.events.getLast? = some ending → before.events = [] →
      ∃ xs, Transacted tiringItems courses before after outcome xs ending := by
    rintro α courses before after outcome ending (hNone | ⟨xs, other, hOne⟩)
      hLast hBefore
    · rw [hNone.events, hBefore] at hLast
      cases hLast
    · rw [hOne.getLast?_events] at hLast
      exact ⟨xs, Option.some.inj hLast ▸ hOne⟩
  refine ⟨hOpened (hSelect { count := some .exact } ⟨{}, 0, []⟩) rfl rfl,
    hOpened (hDelete (.int 7) ⟨{}, 0, []⟩) rfl rfl,
    hOpened (hDelete (.int 7) ⟨{}, 4, []⟩) rfl rfl, ?_,
    hUnknown "public" "orders" _ _ (by decide)⟩
  exact (hDelete (.int 7) ⟨{}, 9, []⟩).resolve_right
    fun ⟨_, _, hOne⟩ => by cases hOne.opens

end Engine

end TableGate
