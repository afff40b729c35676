import TableGate.Proofs.Sql.Refusal
import TableGate.Proofs.Task

/-!
# What passes between a task and a database

Nothing is assumed about a database. What it answers depends on its state, and
`Database.replay` works out those answers from the statements alone. An
`Exchange` is a statement with its answer and with what a task reads off it; a
statement whose values the log cannot show is not sent and has no answer. A
course is the list of readings that a task makes when nothing fails; a task
may choose among several by what it has read.

`Reads` says that a task does nothing to a database but to send statements,
and that it goes through one of its courses or fails at its last exchange.

## Main results

* `Reads.ask_bind`: a task that asks and goes on makes one exchange more, or
  fails with it.
* `Reading.fits_rows` and the like: rows, counts and estimates are read as the
  readings say.
-/

namespace TableGate

open Sql (PreparedStatement)
open Result (FailsOnly OnlyRefuses)

variable {δ α β : Type}

/-! ## What passes between a task and a database -/

/-- What a database answers to statements one after the other, and the state
it is left in. -/
def Database.replay (database : Database δ) :
    δ → List PreparedStatement → List (Except Refusal QueryResult) × δ
  | state, [] => ([], state)
  | state, p :: rest =>
      let first := database.execute state p
      let others := database.replay first.2 rest
      (first.1 :: others.1, others.2)

/-- What an operation reads off the answer to a statement. -/
inductive Reading
  | rows
  | count
  | estimate
deriving DecidableEq

/-- It is read without a failure: all rows arrive, the count is there and is a
number, the plan is there and holds an estimate. -/
def Reading.Succeeds : Reading → QueryResult → Prop
  | rows, result => result.failure = none
  | count, result => ∃ scalar n,
      result.scalar = .ok scalar ∧ exactTotal scalar = .ok n
  | estimate, result => ∃ scalar n,
      result.scalar = .ok scalar ∧ plannedTotal scalar = .ok n

/-- A statement with the answer to it, if it was sent, and with what is read
off the answer. -/
structure Exchange where
  prepared : PreparedStatement
  answer : Option (Except Refusal QueryResult)
  reading : Reading

namespace Exchange

/-- The event of sending the statement. -/
def event? (x : Exchange) : Option Event :=
  x.answer.map fun _ => .statement x.prepared

/-- The statement was executed, and what was wanted of it was read. -/
def Succeeds (x : Exchange) : Prop :=
  ∃ result, x.answer = some (.ok result) ∧ x.reading.Succeeds result

end Exchange

/-- The answers are those of a database from one state to another. -/
inductive Held (database : Database δ) : δ → List Exchange → δ → Prop
  | nil (state : δ) : Held database state [] state
  | sent {before after : δ} {xs : List Exchange} (prepared : PreparedStatement)
      (reading : Reading)
      (h : Held database (database.execute before prepared).2 xs after) :
      Held database before
        (⟨prepared, some (database.execute before prepared).1, reading⟩ :: xs)
        after
  | unsent {before after : δ} {xs : List Exchange}
      (prepared : PreparedStatement) (reading : Reading)
      (h : Held database before xs after) :
      Held database before (⟨prepared, none, reading⟩ :: xs) after

/-- A task went through one of its courses, or it failed on the way: at the
last exchange, and at none before it. -/
inductive Went (courses : List (List Reading)) :
    List Exchange → Result α → Prop
  | through {xs : List Exchange} {a : α}
      (hCourse : xs.map (·.reading) ∈ courses)
      (hRead : ∀ x ∈ xs, x.Succeeds) : Went courses xs (.ok a)
  | failed {xs : List Exchange} {x : Exchange} {e : Error}
      (hCourse : ∃ course ∈ courses,
        (xs ++ [x]).map (·.reading) <+: course)
      (hRead : ∀ y ∈ xs, y.Succeeds) (hLast : ¬x.Succeeds)
      (hStatus : e.status = 500) : Went courses (xs ++ [x]) (.error e)

namespace Went

variable {courses others : List (List Reading)} {xs : List Exchange}
  {outcome : Result α}

theorem mono (h : Went courses xs outcome) (hSubset : courses ⊆ others) :
    Went others xs outcome := by
  cases h with
  | through hCourse hRead => exact .through (hSubset hCourse) hRead
  | failed hCourse hRead hLast hStatus =>
      obtain ⟨course, hMem, hPart⟩ := hCourse
      exact .failed ⟨course, hSubset hMem, hPart⟩ hRead hLast hStatus

/-- A task may fail at its first exchange. -/
theorem failed_first {x : Exchange} {e : Error}
    (hCourse : ∃ course ∈ courses, [x.reading] <+: course)
    (hLast : ¬x.Succeeds) (hStatus : e.status = 500) :
    Went courses [x] (.error e : Result α) := by
  rw [← List.nil_append [x]]
  exact .failed hCourse (fun _ hy => absurd hy List.not_mem_nil) hLast hStatus

/-- One exchange more before the others. -/
theorem cons {x : Exchange} (hFirst : x.Succeeds)
    (h : Went courses xs outcome) :
    Went (courses.map (x.reading :: ·)) (x :: xs) outcome := by
  have hAll : ∀ {ys : List Exchange}, (∀ y ∈ ys, y.Succeeds) →
      ∀ y ∈ x :: ys, y.Succeeds := by
    intro ys hRead y hy
    rcases List.mem_cons.1 hy with rfl | hOther
    · exact hFirst
    · exact hRead y hOther
  cases h with
  | through hCourse hRead =>
      exact .through (List.mem_map.2 ⟨_, hCourse, rfl⟩) (hAll hRead)
  | @failed before last e hCourse hRead hLast hStatus =>
      obtain ⟨course, hMem, hPart⟩ := hCourse
      rw [← List.cons_append]
      refine .failed ⟨_, List.mem_map.2 ⟨course, hMem, rfl⟩, ?_⟩ (hAll hRead)
        hLast hStatus
      exact List.cons_prefix_cons.2 ⟨rfl, hPart⟩

theorem map (h : Went courses xs outcome) (f : α → β) :
    Went courses xs (outcome.map f) := by
  cases h with
  | through hCourse hRead => exact .through hCourse hRead
  | failed hCourse hRead hLast hStatus =>
      exact .failed hCourse hRead hLast hStatus

theorem error {e : Error} (h : Went courses xs (.error e : Result α)) :
    Went courses xs (.error e : Result β) := by
  cases h with
  | failed hCourse hRead hLast hStatus =>
      exact .failed hCourse hRead hLast hStatus

end Went

namespace Task

theorem bind_run_ok {task : Task δ α} {f : α → Task δ β}
    {world after : World δ} {a : α} (h : task.run.run world = (.ok a, after)) :
    (task >>= f).run.run world = (f a).run.run after := by
  rw [ExceptT.run_bind, StateT.run_bind, h]
  rfl

theorem bind_run_error {task : Task δ α} {f : α → Task δ β}
    {world after : World δ} {e : Error}
    (h : task.run.run world = (.error e, after)) :
    (task >>= f).run.run world = (.error e, after) := by
  rw [ExceptT.run_bind, StateT.run_bind, h]
  rfl

/-- What a statement binds cannot be shown in the log, where it should be. -/
def Unshown (engine : Engine δ) (p : PreparedStatement) : Prop :=
  engine.config.logSql = true ∧
    (Value.list (p.params.map (·.2))).isShowable = false

/-- Whatever the world, all that a task does to a database is to send
statements, and it goes by their answers through one of its courses. Only a
statement that cannot be shown is not sent. -/
def Reads (engine : Engine δ) (courses : List (List Reading))
    (task : Task δ α) : Prop :=
  ∀ world, ∃ xs : List Exchange,
    (task.run.run world).2.events =
        world.events ++ xs.filterMap Exchange.event? ∧
      Held engine.database world.database xs (task.run.run world).2.database ∧
      (∀ x ∈ xs, x.answer = none → Unshown engine x.prepared) ∧
      Went courses xs (task.run.run world).1

namespace Reads

variable {engine : Engine δ} {courses others : List (List Reading)}
  {task : Task δ α}

theorem mono (h : Reads engine courses task) (hSubset : courses ⊆ others) :
    Reads engine others task := by
  intro world
  obtain ⟨xs, hEvents, hHeld, hUnsent, hWent⟩ := h world
  exact ⟨xs, hEvents, hHeld, hUnsent, hWent.mono hSubset⟩

theorem pure (a : α) (h : [] ∈ courses) :
    Reads engine courses (Pure.pure a : Task δ α) :=
  fun world => ⟨[], (List.append_nil world.events).symm, .nil _,
    fun _ hx => absurd hx List.not_mem_nil,
    .through h fun _ hx => absurd hx List.not_mem_nil⟩

theorem map (h : Reads engine courses task) (f : α → β) :
    Reads engine courses (f <$> task) := by
  intro world
  obtain ⟨xs, hEvents, hHeld, hUnsent, hWent⟩ := h world
  have hRun : (f <$> task).run.run world =
      ((task.run.run world).1.map f, (task.run.run world).2) := by
    rw [map_eq_pure_bind, ExceptT.run_bind, StateT.run_bind]
    rcases task.run.run world with ⟨_ | _, after⟩ <;> rfl
  rw [hRun]
  exact ⟨xs, hEvents, hHeld, hUnsent, hWent.map f⟩

end Reads

end Task

/-! ## Asking -/

/-- The failure that a refusal of the database becomes. -/
def Refusal.error : Refusal → Error
  | driver message => .statementFailed message
  | other message => .unexpected (.raised message)

theorem Refusal.status_error (refusal : Refusal) :
    refusal.error.status = 500 := by
  cases refusal <;> rfl

/-- A function reads an answer in this way: it fails where the reading does,
and then the fault is not the client's. -/
def Reading.Fits (reading : Reading) (read : QueryResult → Result α) : Prop :=
  ∀ result, (∀ a, read result = .ok a → reading.Succeeds result) ∧
    ∀ e, read result = .error e → ¬reading.Succeeds result ∧ e.status = 500

theorem Reading.fits_rows : Reading.rows.Fits QueryResult.decodeRows := by
  intro result
  unfold QueryResult.decodeRows
  cases hFailure : result.failure with
  | none =>
      constructor
      · exact fun _ _ => hFailure
      · intro e h
        cases h
  | some refusal =>
      have hNot : ¬Reading.rows.Succeeds result := fun hNone => by
        cases hFailure.symm.trans hNone
      cases refusal <;>
      · constructor
        · intro rows h
          cases h
        · intro e h
          cases h
          exact ⟨hNot, rfl⟩

/-- A total read off the single value of an answer. -/
theorem Reading.fits_total {reading : Reading} {total : Value → Result Int}
    (hReading : ∀ result, reading.Succeeds result ↔
      ∃ scalar n, result.scalar = .ok scalar ∧ total scalar = .ok n)
    (hStatus : ∀ scalar, FailsOnly (·.status = 500) (total scalar)) :
    reading.Fits fun result => result.single >>= total := by
  intro result
  rw [hReading]
  unfold QueryResult.single
  dsimp only
  cases hScalar : result.scalar with
  | error refusal =>
      constructor
      · intro n h
        cases h
      · intro e h
        cases h
        refine ⟨?_, rfl⟩
        rintro ⟨scalar, n, hSame, -⟩
        cases hSame
  | ok scalar =>
      refine ⟨fun n h => ⟨scalar, n, rfl, h⟩, fun e h =>
        ⟨?_, hStatus _ e h⟩⟩
      rintro ⟨other, n, hSame, hOk⟩
      obtain rfl := Except.ok.inj hSame
      cases h.symm.trans hOk

theorem exactTotal_status (scalar : Value) :
    FailsOnly (·.status = 500) (exactTotal scalar) := by
  unfold exactTotal
  split
  · exact .ok _
  · split
    · exact .ok _
    · exact .error rfl

theorem planRefusal_status (plan : Value) :
    (planRefusal plan).status = 500 := by
  unfold planRefusal
  split <;> rfl

theorem plannedTotal_status (scalar : Value) :
    FailsOnly (·.status = 500) (plannedTotal scalar) := by
  have hPlan : FailsOnly (·.status = 500) (readPlan scalar) := by
    unfold readPlan
    dsimp only
    split
    · exact .ok _
    · split
      · split
        · exact .ok _
        · exact .error rfl
      · exact .error rfl
    · split
      · exact .ok _
      · exact .error rfl
    · exact .ok _
  refine hPlan.bind fun plan => ?_
  split
  · exact .error (planRefusal_status plan)
  · split
    · exact .ok _
    · exact .error rfl
    · exact .error (planRefusal_status plan)

theorem Reading.fits_count : Reading.count.Fits QueryResult.count :=
  Reading.fits_total (fun _ => Iff.rfl) exactTotal_status

theorem Reading.fits_estimate : Reading.estimate.Fits QueryResult.estimate :=
  Reading.fits_total (fun _ => Iff.rfl) plannedTotal_status

namespace Engine

open Sql (Rendered)
open TableGate.Task (Unshown)

variable (engine : Engine δ) {r : Rendered}

theorem params_prepare (r : Rendered) :
    r.prepare.params.map (·.2) = r.args := by
  show ((r.args.zipIdx.map fun arg =>
    ("p" ++ Text.natText (arg.2 + 1), arg.1)).map (·.2)) = r.args
  rw [List.map_map]
  exact List.zipIdx_map_fst 0 r.args

/-- A statement that cannot be shown is not sent. -/
theorem execute_run_of_unshown (h : Unshown engine r.prepare)
    (world : World δ) :
    (engine.execute r).run.run world =
      (.error (.unexpected .integerTooLong), world) := by
  obtain ⟨hLog, hHidden⟩ := h
  rw [params_prepare] at hHidden
  unfold execute
  rw [if_pos hLog]
  have hLine : statementLine r = .error (.unexpected .integerTooLong) :=
    if_neg (by simp [hHidden])
  rw [hLine]
  rfl

/-- Running any other statement sends it, and a refusal of the database
becomes a failure. -/
theorem execute_run (h : ¬Unshown engine r.prepare) (world : World δ) :
    ∃ logger, (engine.execute r).run.run world =
      ((engine.database.execute world.database r.prepare).1.mapError
          Refusal.error,
        { logger
          database := (engine.database.execute world.database r.prepare).2
          events := world.events ++ [.statement r.prepare] }) := by
  obtain ⟨logger, database, events⟩ := world
  have hSent : ∀ logger : Logger,
      (Task.send engine.database r.prepare).run.run
          ⟨logger, database, events⟩ =
        (.ok (engine.database.execute database r.prepare).1,
          { logger
            database := (engine.database.execute database r.prepare).2
            events := events ++ [.statement r.prepare] }) := fun _ => rfl
  have hLogged : ∀ write : Logger → Logger,
      (Task.log write : Task δ Unit).run.run ⟨logger, database, events⟩ =
        (.ok (), ⟨write logger, database, events⟩) := fun _ => rfl
  -- With or without the log line the statement is sent to the same state.
  unfold execute
  split
  on_goal 1 =>
    rename_i hLog
    have hShown : (Value.list r.args).isShowable = true := by
      rw [← params_prepare]
      exact Bool.of_not_eq_false fun hHidden => h ⟨hLog, hHidden⟩
    have hLine : (Task.lift (statementLine r) : Task δ String).run.run
        ⟨logger, database, events⟩ = (.ok (Palette.sql.paint
          (escapeMarkup r.sql) ++ " " ++
            escapeMarkup (Value.list r.args).quoted),
        ⟨logger, database, events⟩) := by
      rw [statementLine, if_pos hShown]
      rfl
    rw [Task.bind_run_ok hLine, Task.bind_run_ok (hLogged _)]
  all_goals
    dsimp only
    rw [Task.bind_run_ok (hSent _)]
    rcases (engine.database.execute database r.prepare).1 with
      (message | message) | result
    all_goals exact ⟨_, rfl⟩

/-- Run a statement and read its answer. -/
def ask (r : Rendered) (read : QueryResult → Result α) : Task δ α := do
  Task.lift (read (← engine.execute r))

theorem ask_run_of_unshown (h : Unshown engine r.prepare)
    (read : QueryResult → Result α) (world : World δ) :
    (engine.ask r read).run.run world =
      (.error (.unexpected .integerTooLong), world) :=
  Task.bind_run_error (engine.execute_run_of_unshown h world)

/-- Asking sends one statement, and what comes of it is decided by the answer
and by how it is read. -/
theorem ask_run (h : ¬Unshown engine r.prepare)
    (read : QueryResult → Result α) (world : World δ) :
    ∃ logger, (engine.ask r read).run.run world =
      ((engine.database.execute world.database r.prepare).1.mapError
          Refusal.error >>= read,
        { logger
          database := (engine.database.execute world.database r.prepare).2
          events := world.events ++ [.statement r.prepare] }) := by
  obtain ⟨logger, hRun⟩ := engine.execute_run h world
  refine ⟨logger, ?_⟩
  rw [ask, ExceptT.run_bind, StateT.run_bind, hRun]
  cases (engine.database.execute world.database r.prepare).1 with
  | error refusal => rfl
  | ok result => rfl

/-- A transaction of one statement that writes. -/
theorem mutate_run {world : World δ}
    (hOpens : engine.database.opens world.database = none)
    (h : ¬Unshown engine r.prepare) :
    ∃ logger, (engine.mutate r).run.run world =
      let answer := engine.database.execute world.database r.prepare
      let outcome := engine.database.commit answer.2
        (answer.1.mapError Refusal.error >>= QueryResult.decodeRows)
      (outcome,
        { logger
          database := answer.2
          events := world.events ++
            [.begin, .statement r.prepare, Task.ending outcome] }) := by
  obtain ⟨logger, hRun⟩ := engine.ask_run h QueryResult.decodeRows
    { world with events := world.events ++ [.begin] }
  have hFetch : engine.fetch r = engine.ask r QueryResult.decodeRows := rfl
  refine ⟨logger, ?_⟩
  rw [mutate, Task.transaction_run hOpens, hFetch, hRun]
  simp only [List.append_assoc, List.cons_append, List.nil_append]

end Engine

/-- How an answer is read decides whether the exchange succeeds. -/
theorem Reading.Fits.exchange {reading : Reading}
    {read : QueryResult → Result α} (h : reading.Fits read)
    (prepared : PreparedStatement) (answer : Except Refusal QueryResult) :
    (∀ a, answer.mapError Refusal.error >>= read = .ok a →
      Exchange.Succeeds ⟨prepared, some answer, reading⟩) ∧
    ∀ e, answer.mapError Refusal.error >>= read = .error e →
      ¬Exchange.Succeeds ⟨prepared, some answer, reading⟩ ∧
        e.status = 500 := by
  cases answer with
  | error refusal =>
      constructor
      · intro a hRead
        cases hRead
      · intro e hRead
        cases hRead
        refine ⟨?_, refusal.status_error⟩
        rintro ⟨result, hAnswer, -⟩
        cases hAnswer
  | ok result =>
      constructor
      · intro a hRead
        exact ⟨result, rfl, (h result).1 a hRead⟩
      · intro e hRead
        obtain ⟨hNot, hStatus⟩ := (h result).2 e hRead
        refine ⟨?_, hStatus⟩
        rintro ⟨result', hAnswer, hReading⟩
        cases hAnswer
        exact hNot hReading

/-- One exchange is gone through, or it fails. -/
theorem Reading.Fits.went {reading : Reading} {read : QueryResult → Result α}
    (h : reading.Fits read) (prepared : PreparedStatement)
    (answer : Except Refusal QueryResult) :
    Went [[reading]] [⟨prepared, some answer, reading⟩]
      (answer.mapError Refusal.error >>= read) := by
  obtain ⟨hOk, hError⟩ := h.exchange prepared answer
  cases hOutcome : answer.mapError Refusal.error >>= read with
  | error e =>
      obtain ⟨hNot, hStatus⟩ := hError e hOutcome
      exact .failed_first ⟨_, List.mem_cons_self, List.prefix_rfl⟩ hNot hStatus
  | ok a =>
      exact .through List.mem_cons_self (by simpa using hOk a hOutcome)

/-- What is not sent does not succeed. -/
theorem Went.unsent {courses : List (List Reading)} {reading : Reading}
    (h : ∃ course ∈ courses, [reading] <+: course)
    (prepared : PreparedStatement) :
    Went courses [⟨prepared, none, reading⟩]
      (.error (.unexpected .integerTooLong) : Result α) := by
  refine .failed_first h ?_ rfl
  rintro ⟨result, hAnswer, -⟩
  cases hAnswer

namespace Task.Reads

variable {engine : Engine δ} {r : Sql.Rendered} {reading : Reading}
  {read : QueryResult → Result α} {courses : List (List Reading)}

/-- A statement that cannot be shown ends what a task does. -/
theorem unsent (h : Unshown engine r.prepare) {task : Task δ α}
    (hRun : ∀ world, task.run.run world =
      (.error (.unexpected .integerTooLong), world))
    (hCourse : ∃ course ∈ courses, [reading] <+: course) :
    Reads engine courses task := by
  intro world
  rw [hRun]
  exact ⟨[⟨r.prepare, none, reading⟩], (List.append_nil _).symm,
    .unsent _ _ (.nil _), by simpa using h, .unsent hCourse _⟩

/-- A task that asks and goes on makes one exchange more, or fails with it. -/
theorem ask_bind {f : α → Task δ β} (hFits : reading.Fits read)
    (hCourses : courses ≠ [])
    (hNext : ∀ a, Reads engine courses (f a)) :
    Reads engine (courses.map (reading :: ·)) (engine.ask r read >>= f) := by
  obtain ⟨course, others, hSome⟩ := List.exists_cons_of_ne_nil hCourses
  have hCourse : ∃ course ∈ courses.map (reading :: ·),
      [reading] <+: course := by
    rw [hSome]
    exact ⟨reading :: course, List.mem_cons_self, course, rfl⟩
  by_cases hShown : Unshown engine r.prepare
  · exact unsent hShown (fun world =>
      bind_run_error (engine.ask_run_of_unshown hShown read world)) hCourse
  intro world
  obtain ⟨logger, hRun⟩ := engine.ask_run hShown read world
  rw [ExceptT.run_bind, StateT.run_bind, hRun]
  obtain ⟨hOk, hError⟩ := hFits.exchange r.prepare
    (engine.database.execute world.database r.prepare).1
  cases hOutcome : (engine.database.execute world.database
      r.prepare).1.mapError Refusal.error >>= read with
  | error e =>
      obtain ⟨hNot, hStatus⟩ := hError e hOutcome
      exact ⟨[⟨r.prepare, _, reading⟩], rfl, .sent _ _ (.nil _), by simp,
        .failed_first hCourse hNot hStatus⟩
  | ok a =>
      obtain ⟨xs, hEvents, hHeld, hUnsent, hWent⟩ := hNext a
        { logger
          database := (engine.database.execute world.database r.prepare).2
          events := world.events ++ [.statement r.prepare] }
      refine ⟨⟨r.prepare, _, reading⟩ :: xs, ?_, .sent _ _ hHeld,
        List.forall_mem_cons.2 ⟨nofun, hUnsent⟩, hWent.cons (hOk a hOutcome)⟩
      refine hEvents.trans ?_
      rw [List.append_assoc]
      rfl

/-- A task that only asks makes one exchange. -/
theorem ask (hFits : reading.Fits read) :
    Reads engine [[reading]] (engine.ask r read) := by
  by_cases hShown : Unshown engine r.prepare
  · exact unsent hShown (engine.ask_run_of_unshown hShown read)
      ⟨_, List.mem_cons_self, List.prefix_rfl⟩
  intro world
  obtain ⟨logger, hRun⟩ := engine.ask_run hShown read world
  rw [hRun]
  exact ⟨[⟨r.prepare, _, reading⟩], rfl, .sent _ _ (.nil _), by simp,
    hFits.went _ _⟩

end Task.Reads

end TableGate
