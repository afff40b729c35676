import TableGate.Proofs.Exchange

/-!
# What comes of a task

A task gives a result or fails, and which of the two depends on what the
database answers. `Ends` says of every run of a task: if the statements that
it sends are answered in a certain manner, what it gives has a property and
its failures are of a kind. Like `Sends` it is closed under the ways in which
tasks are put together, so what an operation gives is followed from the
answers to its statements.

## Main results

* `Database.answers_append`: statements are answered one after the other.
* `Task.Ends.bind`: a task that goes on ends as its parts do.
* `Engine.mutate_ends`: a statement that writes gives what its rows are read
  as.
* `Engine.select_ends` and the like: so does an operation.
-/

namespace TableGate

open Sql (PreparedStatement)
open Result (FailsOnly)
open TableGate.Task (Unshown)

variable {δ α β : Type} {P : α → Prop} {Q : β → Prop} {E : Error → Prop}

/-! ## Statements and their answers -/

/-- The statements among events. -/
def sent (events : List Event) : List PreparedStatement :=
  events.filterMap fun event =>
    match event with
    | .statement p => some p
    | _ => none

theorem sent_append (before after : List Event) :
    sent (before ++ after) = sent before ++ sent after :=
  List.filterMap_append

theorem sent_ending (outcome : Result α) : sent [Task.ending outcome] = [] := by
  cases outcome <;> rfl

/-- How statements are answered. -/
abbrev Manner := PreparedStatement → Except Refusal QueryResult → Prop

namespace Database

variable (database : Database δ)

/-- Where a transaction cannot be opened or committed, the failure is of a
kind. -/
structure Settles (E : Error → Prop) : Prop where
  opens : ∀ {state message}, database.opens state = some message →
    E (.unexpected (.raised message))
  commits : ∀ {state message}, database.commits state = some message →
    E (.unexpected (.raised message))

/-- Statements that are sent one after the other, each with its answer. -/
def answers (before : δ) (ps : List PreparedStatement) :
    List (PreparedStatement × Except Refusal QueryResult) :=
  ps.zip (database.replay before ps).1

theorem replay_append (before : δ) (ps qs : List PreparedStatement) :
    (database.replay before (ps ++ qs)).2 =
      (database.replay (database.replay before ps).2 qs).2 := by
  induction ps generalizing before with
  | nil => rfl
  | cons p ps ih => exact ih _

theorem answers_append (before : δ) (ps qs : List PreparedStatement) :
    database.answers before (ps ++ qs) = database.answers before ps ++
      database.answers (database.replay before ps).2 qs := by
  induction ps generalizing before with
  | nil => rfl
  | cons p ps ih => exact congrArg (List.cons _) (ih _)

/-- Every answer is given in some state. -/
theorem exists_of_mem_answers {before : δ} {ps : List PreparedStatement}
    {x : PreparedStatement × Except Refusal QueryResult}
    (h : x ∈ database.answers before ps) :
    ∃ state, x.2 = (database.execute state x.1).1 := by
  induction ps generalizing before with
  | nil => exact absurd h List.not_mem_nil
  | cons p ps ih =>
      rcases List.mem_cons.1 h with rfl | hLater
      · exact ⟨before, rfl⟩
      · exact ih hLater

end Database

/-! ## Results -/

/-- What a result gives has a property, and its failures are of a kind. -/
structure Result.Ends (P : α → Prop) (E : Error → Prop) (x : Result α) :
    Prop where
  gives : ∀ a, x = .ok a → P a
  fails : FailsOnly E x

namespace Result.Ends

variable {x : Result α}

theorem ok {a : α} (h : P a) : Ends P E (.ok a : Result α) := by
  refine ⟨fun b hb => ?_, .ok a⟩
  rwa [← Except.ok.inj hb]

theorem error {e : Error} (h : E e) : Ends P E (.error e : Result α) := by
  refine ⟨fun a ha => ?_, .error h⟩
  cases ha

/-- What is given by steps that end in a known way. -/
theorem of_eq_ok {a : α} (hGiven : x = .ok a) (h : P a) : Ends P E x := by
  rw [hGiven]
  exact .ok h

end Result.Ends

/-! ## Tasks -/

/-- Whatever the world: given the premise `H`, and if every statement that a
task sends is answered in the manner `A`, what the task gives has the property
`P`, and its failures are of the kind `E`. -/
def Task.Ends (database : Database δ) (A : Manner) (H : Prop) (P : α → Prop)
    (E : Error → Prop) (task : Task δ α) : Prop :=
  ∀ world, ∃ new,
    (task.run.run world).2.events = world.events ++ new ∧
    (task.run.run world).2.database =
      (database.replay world.database (sent new)).2 ∧
    (H → (∀ x ∈ database.answers world.database (sent new), A x.1 x.2) →
      Result.Ends P E (task.run.run world).1)

namespace Task.Ends

variable {database : Database δ} {A : Manner} {H : Prop}

/-- A task that leaves the trace and the database alone. -/
theorem of_outcome {task : Task δ α} (outcome : Result α)
    (hRun : ∀ world, task.run.run world = (outcome, world))
    (h : H → Result.Ends P E outcome) : Ends database A H P E task := by
  intro world
  rw [hRun]
  exact ⟨[], (List.append_nil _).symm, rfl, fun hPremise _ => h hPremise⟩

theorem pure {a : α} (h : H → P a) :
    Ends database A H P E (Pure.pure a : Task δ α) :=
  .of_outcome (.ok a) (fun _ => rfl) fun hPremise => .ok (h hPremise)

theorem throw {e : Error} (h : H → E e) :
    Ends database A H P E (MonadExcept.throw e : Task δ α) :=
  .of_outcome (.error e) (fun _ => rfl) fun hPremise => .error (h hPremise)

theorem lift {x : Result α} (h : H → Result.Ends P E x) :
    Ends database A H P E (Task.lift x : Task δ α) :=
  .of_outcome x (fun _ => rfl) h

/-- A task that goes on ends as its parts do: what the first gives is the
premise of the second. -/
theorem bind {task : Task δ α} {f : α → Task δ β}
    (h : Ends database A H P E task)
    (hNext : ∀ a, Ends database A (P a) Q E (f a)) :
    Ends database A H Q E (task >>= f) := by
  intro world
  obtain ⟨first, hEvents, hDatabase, hFirst⟩ := h world
  rcases hRun : task.run.run world with ⟨outcome, after⟩
  rw [hRun] at hEvents hDatabase hFirst
  cases outcome with
  | error e =>
      rw [bind_run_error hRun]
      exact ⟨first, hEvents, hDatabase, fun hPremise hAnswers =>
        .error ((hFirst hPremise hAnswers).fails e rfl)⟩
  | ok a =>
      rw [bind_run_ok hRun]
      obtain ⟨second, hMore, hLast, hSecond⟩ := hNext a after
      have hAnswered :
          database.answers world.database (sent (first ++ second)) =
            database.answers world.database (sent first) ++
              database.answers after.database (sent second) := by
        rw [sent_append, Database.answers_append, hDatabase]
      refine ⟨first ++ second, ?_, ?_, fun hPremise hAnswers => ?_⟩
      · rw [hMore, hEvents, List.append_assoc]
      · rw [hLast, hDatabase, sent_append, Database.replay_append]
      · rw [hAnswered] at hAnswers
        obtain ⟨hBefore, hAfter⟩ := List.forall_mem_append.1 hAnswers
        exact hSecond ((hFirst hPremise hBefore).gives a rfl) hAfter

theorem map {task : Task δ α} {f : α → β} (h : Ends database A H P E task)
    (hImage : ∀ a, P a → Q (f a)) : Ends database A H Q E (f <$> task) := by
  rw [map_eq_pure_bind]
  exact h.bind fun a => .pure (hImage a)

/-- The premise of a task still holds after it. -/
theorem keep {task : Task δ α} (h : Ends database A H P E task) :
    Ends database A H (fun a => H ∧ P a) E task := by
  intro world
  obtain ⟨new, hEvents, hDatabase, hEnds⟩ := h world
  refine ⟨new, hEvents, hDatabase, fun hPremise hAnswers => ?_⟩
  have hOutcome := hEnds hPremise hAnswers
  exact ⟨fun a ha => ⟨hPremise, hOutcome.gives a ha⟩, hOutcome.fails⟩

/-- What follows a plain result may depend on that result. -/
theorem lift_bind {x : Result α} {f : α → Task δ β} (h : FailsOnly E x)
    (hNext : ∀ a, x = .ok a → Ends database A H Q E (f a)) :
    Ends database A H Q E (Task.lift x >>= f) := by
  cases x with
  | error e => exact .throw fun _ => h e rfl
  | ok a => exact hNext a rfl

theorem commit (hSettles : database.Settles E) {outcome : Result α}
    (h : Result.Ends P E outcome) (state : δ) :
    Result.Ends P E (database.commit state outcome) := by
  cases outcome with
  | error e => exact .error (h.fails e rfl)
  | ok a =>
      cases hCommits : database.commits state with
      | some message =>
          rw [Database.commit_of_some hCommits]
          exact .error (hSettles.commits hCommits)
      | none =>
          rw [Database.commit_of_none hCommits]
          exact .ok (h.gives a rfl)

theorem transaction {task : Task δ α} (hSettles : database.Settles E)
    (h : Ends database A H P E task) :
    Ends database A H P E (Task.transaction database task) := by
  intro world
  cases hOpens : database.opens world.database with
  | some message =>
      rw [transaction_run_of_opens hOpens]
      exact ⟨[], (List.append_nil _).symm, rfl, fun _ _ =>
        .error (hSettles.opens hOpens)⟩
  | none =>
      have hInner := h { world with events := world.events ++ [.begin] }
      rw [transaction_run hOpens]
      dsimp only
      rcases hRun : task.run.run
        { world with events := world.events ++ [.begin] } with ⟨outcome, after⟩
      rw [hRun] at hInner
      obtain ⟨new, hEvents, hDatabase, hEnds⟩ := hInner
      have hSent : sent (.begin :: (new ++
          [ending (database.commit after.database outcome)])) = sent new := by
        rw [← List.singleton_append, sent_append, sent_append, sent_ending,
          List.append_nil]
        rfl
      refine ⟨.begin :: (new ++
        [ending (database.commit after.database outcome)]), ?_, ?_, ?_⟩
      · rw [hEvents]
        simp only [List.append_assoc, List.cons_append, List.nil_append]
      · rw [hSent]
        exact hDatabase
      · rw [hSent]
        exact fun hPremise hAnswers =>
          commit hSettles (hEnds hPremise hAnswers) _

end Task.Ends

/-! ## Operations -/

namespace Manner

/-- An answer in this manner is read as something that has the property `P`,
or the failure is of the kind `E`; so is the failure of a statement that is not
sent. -/
structure ReadAs (A : Manner) (engine : Engine δ)
    (read : QueryResult → Result α) (P : α → Prop) (E : Error → Prop)
    (s : Sql.Statement) : Prop where
  unshown : Unshown engine s.prepare → E (.unexpected .integerTooLong)
  answered : ∀ answer, A s.prepare answer →
    Result.Ends P E (answer.mapError Refusal.error >>= read)

variable (A : Manner) (engine : Engine δ)

/-- How the rows of an answer in this manner are read. -/
abbrev RowsAs (R : List Row → Prop) (E : Error → Prop) (s : Sql.Statement) :
    Prop :=
  A.ReadAs engine QueryResult.decodeRows R E s

end Manner

namespace Engine

open Sql (Builder)

variable {engine : Engine δ} {A : Manner} {H : Prop} {R : List Row → Prop}
  {T : Int → Prop} {s : Sql.Statement} {table : Table} {params : Params}
  {key : Value}

theorem ask_ends {read : QueryResult → Result α}
    (h : A.ReadAs engine read P E s) :
    Task.Ends engine.database A H P E (engine.ask s.rendered read) := by
  intro world
  by_cases hUnshown : Unshown engine s.rendered.prepare
  · rw [engine.ask_run_of_unshown hUnshown]
    exact ⟨[], (List.append_nil _).symm, rfl, fun _ _ =>
      .error (h.unshown hUnshown)⟩
  · obtain ⟨logger, hRun⟩ := engine.ask_run hUnshown read world
    rw [hRun]
    exact ⟨[.statement s.prepare], rfl, rfl, fun _ hAnswers =>
      h.answered _ (hAnswers _ List.mem_cons_self)⟩

theorem fetch_ends (h : A.RowsAs engine R E s) :
    Task.Ends engine.database A H R E (engine.fetch s.rendered) := ask_ends h

theorem mutate_ends (hSettles : engine.database.Settles E)
    (h : A.RowsAs engine R E s) :
    Task.Ends engine.database A H R E (engine.mutate s.rendered) :=
  (fetch_ends h).transaction hSettles

/-- What follows a statement that was built may depend on its pieces. -/
theorem build_bind_ends {built : Result Sql.Rendered}
    {statement : Result Sql.Statement} {f : Sql.Rendered → Task δ α}
    (hSame : built = statement.map Sql.Statement.rendered)
    (hBuilt : FailsOnly E statement)
    (h : ∀ s, statement = .ok s →
      Task.Ends engine.database A H P E (f s.rendered)) :
    Task.Ends engine.database A H P E (Task.lift built >>= f) := by
  refine .lift_bind (hSame ▸ hBuilt.map _) fun r hr => ?_
  obtain ⟨s, hs, rfl⟩ := Sql.exists_statement hSame hr
  exact h s hs

/-! ### Reading -/

section Totals

variable
  (hCount : ∀ s, Sql.count table params = .ok s →
    A.ReadAs engine QueryResult.count T E s)
  (hExplain : ∀ s, Sql.explain table params = .ok s →
    A.ReadAs engine QueryResult.estimate T E s)

include hCount hExplain

theorem runCount_ends {count : CountType} {plan : CountPlan}
    (h : countPlan table params count = .ok plan) :
    Task.Ends engine.database A H T E (engine.runCount plan) := by
  have hCounts : ∀ {H : Prop} {r}, Builder.count table params = .ok r →
      Task.Ends engine.database A H T E (engine.exactCount r) := by
    intro H r hr
    obtain ⟨s, hs, rfl⟩ :=
      Sql.exists_statement (Builder.count_eq table params) hr
    exact ask_ends (hCount s hs)
  have hExplains : ∀ {r}, Builder.explain table params = .ok r →
      Task.Ends engine.database A H T E (engine.plannedCount r) := by
    intro r hr
    obtain ⟨s, hs, rfl⟩ :=
      Sql.exists_statement (Builder.explain_eq table params) hr
    exact ask_ends (hExplain s hs)
  cases count with
  | exact =>
      obtain ⟨r, hr, h⟩ := Result.bind_eq_ok.1 h
      rw [← Result.pure_eq_ok.1 h]
      exact hCounts hr
  | planned =>
      obtain ⟨r, hr, h⟩ := Result.bind_eq_ok.1 h
      rw [← Result.pure_eq_ok.1 h]
      exact hExplains hr
  | estimated =>
      obtain ⟨r, hr, h⟩ := Result.bind_eq_ok.1 h
      obtain ⟨explain, hAsk, h⟩ := Result.bind_eq_ok.1 h
      rw [← Result.pure_eq_ok.1 h]
      refine (hExplains hAsk).bind fun planned => ?_
      split
      · exact hCounts hr
      · exact .pure id

/-- A total that may be asked for is found as it would be if it is. -/
theorem total_ends {plan : Option CountPlan}
    (h : params.count.mapM (countPlan table params) = .ok plan) :
    Task.Ends engine.database A H (fun total => ∀ n ∈ total, T n) E
      (plan.mapM engine.runCount) := by
  cases hAsked : params.count with
  | none =>
      rw [hAsked] at h
      rw [← Result.pure_eq_ok.1 h]
      exact .pure fun _ => nofun
  | some count =>
      rw [hAsked, Option.mapM_some] at h
      cases hPlan : countPlan table params count with
      | error e =>
          rw [hPlan] at h
          cases h
      | ok chosen =>
          rw [hPlan] at h
          rw [← Except.ok.inj h, Option.mapM_some]
          refine (runCount_ends hCount hExplain hPlan).map fun n hn m hm => ?_
          exact Option.some.inj hm ▸ hn

theorem select_ends (hSettles : engine.database.Settles E)
    (hValid : FailsOnly E (params.validate table))
    (hBuilt : FailsOnly E (Sql.select table params))
    (hPlan : FailsOnly E (params.count.mapM (countPlan table params)))
    (h : ∀ s, Sql.select table params = .ok s → A.RowsAs engine R E s) :
    Task.Ends engine.database A H
      (fun page => R page.rows ∧ ∀ n ∈ page.total, T n) E
      (engine.select table params) :=
  .lift_bind hValid fun _ _ =>
    build_bind_ends (Builder.select_eq table params) hBuilt fun s hs =>
      .lift_bind hPlan fun _ hTotal => Task.Ends.transaction hSettles <|
        (fetch_ends (h s hs)).bind fun _ =>
          (total_ends hCount hExplain hTotal).keep.bind fun _ => .pure id

end Totals

variable (hSettles : engine.database.Settles E)

include hSettles

theorem get_ends {params : Option Params}
    (hValid : ∀ asked ∈ params, FailsOnly E (asked.validate table))
    (hBuilt : FailsOnly E
      (Sql.selectByKey table (keyParts key) (params.getD {})))
    (hMissing : E (noRecord table key))
    (h : ∀ s, Sql.selectByKey table (keyParts key) (params.getD {}) = .ok s →
      A.RowsAs engine R E s) :
    Task.Ends engine.database A H (fun row => ∃ others, R (row :: others)) E
      (engine.get table key params) := by
  cases params
  on_goal 2 => refine .lift_bind (hValid _ rfl) fun _ _ => ?_
  all_goals
    refine build_bind_ends (Builder.selectByKey_eq table _ _) hBuilt
      fun s hs => (mutate_ends hSettles (h s hs)).bind fun rows => ?_
    split
    · exact .pure fun hRows => ⟨_, hRows⟩
    · exact .throw fun _ => hMissing

/-! ### Writing -/

omit hSettles in
/-- The rows of one record are those of its statement, or none is found. -/
theorem requireRow_ends {rows : List Row} (hMissing : E (noRecord table key)) :
    Task.Ends engine.database A (R rows) R E
      (requireRow table key rows : Task δ (List Row)) := by
  unfold requireRow
  split
  · exact .throw fun _ => hMissing
  · exact .pure id

theorem insert_ends {body : Value} {upsert : Option Upsert}
    (hBuilt : FailsOnly E (insertion table body upsert))
    (h : ∀ s, insertion table body upsert = .ok s → A.RowsAs engine R E s) :
    Task.Ends engine.database A H R E (engine.insert table body upsert) :=
  build_bind_ends (insertStatement_eq table body upsert) hBuilt fun s hs =>
    mutate_ends hSettles (h s hs)

theorem update_ends {values : Fields}
    (hValid : FailsOnly E (params.validate table))
    (hBuilt : FailsOnly E (Sql.update table values params))
    (h : ∀ s, Sql.update table values params = .ok s →
      A.RowsAs engine R E s) :
    Task.Ends engine.database A H R E (engine.update table values params) :=
  .lift_bind hValid fun _ _ =>
    build_bind_ends (Builder.update_eq table values params) hBuilt fun s hs =>
      mutate_ends hSettles (h s hs)

theorem delete_ends (hValid : FailsOnly E (params.validate table))
    (hBuilt : FailsOnly E (Sql.delete table params))
    (h : ∀ s, Sql.delete table params = .ok s → A.RowsAs engine R E s) :
    Task.Ends engine.database A H R E (engine.delete table params) :=
  .lift_bind hValid fun _ _ =>
    build_bind_ends (Builder.delete_eq table params) hBuilt fun s hs =>
      mutate_ends hSettles (h s hs)

theorem updateByKey_ends {values : Fields}
    (hBuilt : FailsOnly E (Sql.updateByKey table (keyParts key) values))
    (hMissing : E (noRecord table key))
    (h : ∀ s, Sql.updateByKey table (keyParts key) values = .ok s →
      A.RowsAs engine R E s) :
    Task.Ends engine.database A H R E
      (engine.updateByKey table key values) :=
  build_bind_ends (Builder.updateByKey_eq table _ values) hBuilt fun s hs =>
    (mutate_ends hSettles (h s hs)).bind fun _ => requireRow_ends hMissing

theorem deleteByKey_ends
    (hBuilt : FailsOnly E (Sql.deleteByKey table (keyParts key)))
    (hMissing : E (noRecord table key))
    (h : ∀ s, Sql.deleteByKey table (keyParts key) = .ok s →
      A.RowsAs engine R E s) :
    Task.Ends engine.database A H R E (engine.deleteByKey table key) :=
  build_bind_ends (Builder.deleteByKey_eq table _) hBuilt fun s hs =>
    (mutate_ends hSettles (h s hs)).bind fun _ => requireRow_ends hMissing

end Engine
end TableGate
