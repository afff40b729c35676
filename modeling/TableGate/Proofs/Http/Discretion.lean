import TableGate.Proofs.Exchange
import TableGate.Proofs.Http.Addressed

/-!
# The texts of failures stay inside

Two databases that answer alike may still word their failures differently:
what a driver says about a statement, what is said about any other error, and
what is said when rows stop arriving, when a count is missing or when a
transaction cannot be opened or committed. Outside debug mode none of these
words leave. A service over the one database and a service over the other answer
every request with the same status, headers and body, however many statements
the request takes and wherever it fails.

The two runs are followed side by side. `Task.Mirror` says that two tasks, from
worlds whose databases are in related states, end alike and leave the databases
in related states; the logs are not compared, since the words do go there.

## Main results

* `Engine.Twins.handle`: a request is handled alike, at every route.
* `Engine.responses_discreet`: the responses to a request are the same, and the
  databases are left in related states.
* `Engine.Twins.serve`: so are the responses to requests one after the other.
-/

namespace TableGate

open Http (Request Response)
open Sql (PreparedStatement)

variable {δ δ' α β α' β' : Type}

/-! ## Answers that are alike -/

/-- What two databases raise differs in its text at most. -/
inductive Refusal.Alike : Refusal → Refusal → Prop
  | driver (message other : String) : Alike (.driver message) (.driver other)
  | other (message other : String) : Alike (.other message) (.other other)

/-- Single values that differ in the text of a failure at most. -/
inductive ScalarsAlike : Except Refusal Value → Except Refusal Value → Prop
  | ok (value : Value) : ScalarsAlike (.ok value) (.ok value)
  | error {a b : Refusal} (h : a.Alike b) : ScalarsAlike (.error a) (.error b)

/-- Results that differ in the text of a failure at most. -/
structure QueryResult.Alike (a b : QueryResult) : Prop where
  keys : a.keys = b.keys
  rows : a.rows = b.rows
  scalar : ScalarsAlike a.scalar b.scalar
  failure : Option.Rel Refusal.Alike a.failure b.failure

/-- Answers that differ in texts at most. -/
inductive AnswersAlike :
    Except Refusal QueryResult → Except Refusal QueryResult → Prop
  | ok {a b : QueryResult} (h : a.Alike b) : AnswersAlike (.ok a) (.ok b)
  | error {a b : Refusal} (h : a.Alike b) : AnswersAlike (.error a) (.error b)

/-- Two databases behave the same, step by step, but for the texts of their
failures: in related states they open and commit a transaction both or neither,
they answer a statement alike, and are left in related states. -/
structure Database.Mirrors (R : δ → δ' → Prop) (a : Database δ)
    (b : Database δ') : Prop where
  opens : ∀ s t, R s t → (a.opens s).isSome = (b.opens t).isSome
  commits : ∀ s t, R s t → (a.commits s).isSome = (b.commits t).isSome
  execute : ∀ (s : δ) (t : δ') (p : PreparedStatement), R s t →
    AnswersAlike (a.execute s p).1 (b.execute t p).1 ∧
      R (a.execute s p).2 (b.execute t p).2

/-! ## Outcomes that are alike -/

/-- Failures that differ in the text of a database at most. -/
inductive Error.Alike : Error → Error → Prop
  | same (e : Error) : Alike e e
  | statementFailed (message other : String) :
      Alike (.statementFailed message) (.statementFailed other)
  | rowsUnreadable (message other : String) :
      Alike (.rowsUnreadable message) (.rowsUnreadable other)
  | raised (message other : String) :
      Alike (.unexpected (.raised message)) (.unexpected (.raised other))

/-- Outcomes that are alike: related results, or failures that are alike. -/
inductive Result.Alike (Q : α → β → Prop) : Result α → Result β → Prop
  | ok {a : α} {b : β} (h : Q a b) : Alike Q (.ok a) (.ok b)
  | error {e f : Error} (h : e.Alike f) : Alike Q (.error e) (.error f)

namespace Result.Alike

theorem refl (x : Result α) : Alike Eq x x := by
  cases x with
  | error e => exact .error (.same e)
  | ok a => exact .ok rfl

theorem bind {Q : α → β → Prop} {P : α' → β' → Prop} {x : Result α}
    {y : Result β} {f : α → Result α'} {g : β → Result β'} (h : Alike Q x y)
    (hNext : ∀ a b, Q a b → Alike P (f a) (g b)) :
    Alike P (x >>= f) (y >>= g) := by
  cases h with
  | ok h => exact hNext _ _ h
  | error h => exact .error h

end Result.Alike

/-- The refusals of two databases become failures that are alike. -/
theorem AnswersAlike.mapError {x y : Except Refusal QueryResult}
    (h : AnswersAlike x y) :
    Result.Alike QueryResult.Alike (x.mapError Refusal.error)
      (y.mapError Refusal.error) := by
  cases h with
  | ok h => exact .ok h
  | error h =>
      cases h with
      | driver message other => exact .error (.statementFailed message other)
      | other message other => exact .error (.raised message other)

namespace QueryResult.Alike

variable {a b : QueryResult}

/-- Rows are decoded alike. -/
theorem decodeRows (h : a.Alike b) :
    Result.Alike Eq a.decodeRows b.decodeRows := by
  have hFailure := h.failure
  unfold QueryResult.decodeRows
  rw [← h.keys, ← h.rows]
  generalize a.failure = x at hFailure ⊢
  generalize b.failure = y at hFailure ⊢
  cases hFailure with
  | none => exact .ok rfl
  | some hRefusal =>
      cases hRefusal with
      | driver message other => exact .error (.rowsUnreadable message other)
      | other message other => exact .error (.raised message other)

/-- Totals that are read off the single value are alike. -/
theorem single_bind (h : a.Alike b) (total : Value → Result Int) :
    Result.Alike Eq (a.single >>= total) (b.single >>= total) := by
  have hScalar := h.scalar
  unfold QueryResult.single
  generalize a.scalar = x at hScalar ⊢
  generalize b.scalar = y at hScalar ⊢
  cases hScalar with
  | ok value => exact .refl (total value)
  | error hRefusal => exact .error (.raised _ _)

end QueryResult.Alike

/-! ## Tasks side by side -/

/-- From worlds whose databases are in related states two tasks end alike, and
leave their databases in related states. -/
def Task.Mirror (R : δ → δ' → Prop) (Q : α → β → Prop) (task : Task δ α)
    (other : Task δ' β) : Prop :=
  ∀ (v : World δ) (w : World δ'), R v.database w.database →
    Result.Alike Q (task.run.run v).1 (other.run.run w).1 ∧
      R (task.run.run v).2.database (other.run.run w).2.database

namespace Task.Mirror

variable {R : δ → δ' → Prop} {Q : α → β → Prop} {P : α' → β' → Prop}

theorem pure {a : α} {b : β} (h : Q a b) :
    Mirror R Q (Pure.pure a : Task δ α) (Pure.pure b : Task δ' β) :=
  fun _ _ hStates => ⟨.ok h, hStates⟩

theorem lift {x : Result α} {y : Result β} (h : Result.Alike Q x y) :
    Mirror R Q (Task.lift x : Task δ α) (Task.lift y : Task δ' β) :=
  fun _ _ hStates => ⟨h, hStates⟩

/-- The same is read in both runs. -/
theorem same (x : Result α) :
    Mirror R Eq (Task.lift x : Task δ α) (Task.lift x : Task δ' α) :=
  lift (.refl x)

theorem throw (e : Error) :
    Mirror R Q (MonadExcept.throw e : Task δ α)
      (MonadExcept.throw e : Task δ' β) :=
  fun _ _ hStates => ⟨.error (.same e), hStates⟩

theorem bind {task : Task δ α} {other : Task δ' β} {f : α → Task δ α'}
    {g : β → Task δ' β'} (h : Mirror R Q task other)
    (hNext : ∀ a b, Q a b → Mirror R P (f a) (g b)) :
    Mirror R P (task >>= f) (other >>= g) := by
  intro v w hStates
  obtain ⟨hOutcome, hAfter⟩ := h v w hStates
  rcases hTask : task.run.run v with ⟨x, after⟩
  rcases hOther : other.run.run w with ⟨y, otherAfter⟩
  rw [hTask, hOther] at hOutcome hAfter
  cases hOutcome with
  | ok hResult =>
      rw [bind_run_ok hTask, bind_run_ok hOther]
      exact hNext _ _ hResult after otherAfter hAfter
  | error hError =>
      rw [bind_run_error hTask, bind_run_error hOther]
      exact ⟨.error hError, hAfter⟩

/-- Two runs that have the same result so far go on side by side. -/
theorem same_bind {task : Task δ α} {other : Task δ' α} {f : α → Task δ α'}
    {g : α → Task δ' β'} (h : Mirror R Eq task other)
    (hNext : ∀ a, Mirror R P (f a) (g a)) :
    Mirror R P (task >>= f) (other >>= g) :=
  h.bind fun a _ hSame => hSame ▸ hNext a

/-- Two outcomes are committed alike. -/
theorem commit {a : Database δ} {b : Database δ'} (hMirrors : a.Mirrors R b)
    {v : δ} {w : δ'} (hStates : R v w) {x : Result α} {y : Result β}
    (h : Result.Alike Q x y) :
    Result.Alike Q (a.commit v x) (b.commit w y) := by
  refine h.bind fun c d hResult => ?_
  have hBoth := hMirrors.commits v w hStates
  cases ha : a.commits v <;> cases hb : b.commits w <;> rw [ha, hb] at hBoth
  · exact .ok hResult
  · cases hBoth
  · cases hBoth
  · exact .error (.raised _ _)

theorem transaction {a : Database δ} {b : Database δ'}
    (hMirrors : a.Mirrors R b) {task : Task δ α} {other : Task δ' β}
    (h : Mirror R Q task other) :
    Mirror R Q (Task.transaction a task) (Task.transaction b other) := by
  intro v w hStates
  have hBoth := hMirrors.opens _ _ hStates
  cases ha : a.opens v.database <;> cases hb : b.opens w.database <;>
    rw [ha, hb] at hBoth
  · rw [transaction_run ha, transaction_run hb]
    obtain ⟨hOutcome, hAfter⟩ := h { v with events := v.events ++ [.begin] }
      { w with events := w.events ++ [.begin] } hStates
    exact ⟨commit hMirrors hAfter hOutcome, hAfter⟩
  · cases hBoth
  · cases hBoth
  · rw [transaction_run_of_opens ha, transaction_run_of_opens hb]
    exact ⟨.error (.raised _ _), hStates⟩

end Task.Mirror

/-! ## Engines over two databases -/

namespace Engine

open TableGate.Task (Mirror)

/-- Two engines that serve the same tables in the same way, over databases that
behave the same but for their texts. -/
structure Twins (R : δ → δ' → Prop) (engine : Engine δ) (twin : Engine δ') :
    Prop where
  catalog : engine.catalog = twin.catalog
  config : engine.config = twin.config
  database : engine.database.Mirrors R twin.database

variable {R : δ → δ' → Prop} {engine : Engine δ} {twin : Engine δ'}

namespace Twins

/-- What is read off alike answers in the same way is the same. -/
theorem ask (h : Twins R engine twin) (r : Sql.Rendered)
    {read : QueryResult → Result α}
    (hRead : ∀ a b : QueryResult, a.Alike b →
      Result.Alike Eq (read a) (read b)) :
    Mirror R Eq (engine.ask r read) (twin.ask r read) := by
  intro v w hStates
  have hSame : Task.Unshown twin r.prepare ↔ Task.Unshown engine r.prepare := by
    rw [Task.Unshown, Task.Unshown, h.config]
  by_cases hUnshown : Task.Unshown engine r.prepare
  · rw [engine.ask_run_of_unshown hUnshown,
      twin.ask_run_of_unshown (hSame.2 hUnshown)]
    exact ⟨.error (.same _), hStates⟩
  · obtain ⟨logger, hRun⟩ := engine.ask_run hUnshown read v
    obtain ⟨twinLogger, hTwin⟩ := twin.ask_run (mt hSame.1 hUnshown) read w
    obtain ⟨hAnswers, hAfter⟩ := h.database.execute _ _ r.prepare hStates
    rw [hRun, hTwin]
    exact ⟨hAnswers.mapError.bind hRead, hAfter⟩

theorem fetch (h : Twins R engine twin) (r : Sql.Rendered) :
    Mirror R Eq (engine.fetch r) (twin.fetch r) :=
  h.ask r fun _ _ hAlike => hAlike.decodeRows

theorem mutate (h : Twins R engine twin) (r : Sql.Rendered) :
    Mirror R Eq (engine.mutate r) (twin.mutate r) :=
  (h.fetch r).transaction h.database

theorem exactCount (h : Twins R engine twin) (r : Sql.Rendered) :
    Mirror R Eq (engine.exactCount r) (twin.exactCount r) :=
  h.ask r fun _ _ hAlike => hAlike.single_bind exactTotal

theorem plannedCount (h : Twins R engine twin) (r : Sql.Rendered) :
    Mirror R Eq (engine.plannedCount r) (twin.plannedCount r) :=
  h.ask r fun _ _ hAlike => hAlike.single_bind plannedTotal

theorem runCount (h : Twins R engine twin) (plan : CountPlan) :
    Mirror R Eq (engine.runCount plan) (twin.runCount plan) := by
  cases plan with
  | exact count => exact h.exactCount count
  | planned explain => exact h.plannedCount explain
  | estimated count explain =>
      refine (h.plannedCount explain).same_bind fun planned => ?_
      rw [h.config]
      split
      · exact h.exactCount count
      · exact .pure rfl

theorem total (h : Twins R engine twin) (plan : Option CountPlan) :
    Mirror R Eq (plan.mapM engine.runCount) (plan.mapM twin.runCount) := by
  cases plan with
  | none => exact .pure rfl
  | some plan =>
      rw [Option.mapM_some, Option.mapM_some, map_eq_pure_bind,
        map_eq_pure_bind]
      exact (h.runCount plan).same_bind fun _ => .pure rfl

/-! ## Operations -/

theorem select (h : Twins R engine twin) (table : Table) (params : Params) :
    Mirror R Eq (engine.select table params) (twin.select table params) :=
  (Mirror.same _).same_bind fun _ => (Mirror.same _).same_bind fun s =>
    (Mirror.same _).same_bind fun plan => .transaction h.database <|
      (h.fetch s).same_bind fun _ => (h.total plan).same_bind fun _ => .pure rfl

theorem get (h : Twins R engine twin) (table : Table) (key : Value)
    (params : Option Params) :
    Mirror R Eq (engine.get table key params) (twin.get table key params) := by
  cases params
  on_goal 2 => refine (Mirror.same _).same_bind fun _ => ?_
  all_goals
    refine (Mirror.same _).same_bind fun s =>
      (h.mutate s).same_bind fun rows => ?_
    cases rows with
    | nil => exact .throw _
    | cons row rows => exact .pure rfl

theorem requireRow (table : Table) (key : Value) (rows : List Row) :
    Mirror R Eq (Engine.requireRow table key rows : Task δ (List Row))
      (Engine.requireRow table key rows : Task δ' (List Row)) := by
  unfold Engine.requireRow
  split
  · exact .throw _
  · exact .pure rfl

theorem insert (h : Twins R engine twin) (table : Table) (body : Value)
    (upsert : Option Upsert) :
    Mirror R Eq (engine.insert table body upsert)
      (twin.insert table body upsert) :=
  (Mirror.same _).same_bind fun s => h.mutate s

theorem updateByKey (h : Twins R engine twin) (table : Table) (key : Value)
    (values : Fields) :
    Mirror R Eq (engine.updateByKey table key values)
      (twin.updateByKey table key values) :=
  (Mirror.same _).same_bind fun s => (h.mutate s).same_bind
    fun rows => requireRow table key rows

theorem update (h : Twins R engine twin) (table : Table) (values : Fields)
    (params : Params) :
    Mirror R Eq (engine.update table values params)
      (twin.update table values params) :=
  (Mirror.same _).same_bind fun _ => (Mirror.same _).same_bind
    fun s => h.mutate s

theorem deleteByKey (h : Twins R engine twin) (table : Table) (key : Value) :
    Mirror R Eq (engine.deleteByKey table key) (twin.deleteByKey table key) :=
  (Mirror.same _).same_bind fun s => (h.mutate s).same_bind
    fun rows => requireRow table key rows

theorem delete (h : Twins R engine twin) (table : Table) (params : Params) :
    Mirror R Eq (engine.delete table params) (twin.delete table params) :=
  (Mirror.same _).same_bind fun _ => (Mirror.same _).same_bind
    fun s => h.mutate s

/-! ## Requests -/

theorem answerPage (h : Twins R engine twin) (table : Table)
    (request : Request) (read : Request → Result Params) :
    Mirror R Eq (engine.answerPage table request read)
      (twin.answerPage table request read) := by
  unfold Engine.answerPage
  rw [h.config]
  exact (Mirror.same _).same_bind fun _ => (h.select table _).same_bind
    fun _ => .same _

/-- At every route two requests are answered side by side. -/
theorem answer (h : Twins R engine twin) (route : Route) (segment : String)
    (request : Request) :
    Mirror R Eq (engine.answer route segment request)
      (twin.answer route segment request) := by
  obtain ⟨table, action⟩ := route
  cases action with
  | list => exact h.answerPage table request _
  | query => exact h.answerPage table request _
  | create =>
      exact (Mirror.same _).same_bind fun _ => (Mirror.same _).same_bind
        fun _ => (h.insert table _ _).same_bind fun _ => .same _
  | update =>
      exact (Mirror.same _).same_bind fun _ => (Mirror.same _).same_bind
        fun _ => (h.update table _ _).same_bind fun _ => .same _
  | delete =>
      exact (Mirror.same _).same_bind fun _ =>
        (h.delete table _).same_bind fun _ => .same _
  | getOne =>
      exact (Mirror.same _).same_bind fun _ =>
        (h.get table _ _).same_bind fun _ => .same _
  | updateOne =>
      exact (Mirror.same _).same_bind fun _ =>
        (h.updateByKey table _ _).same_bind fun _ => .same _
  | deleteOne => exact (h.deleteByKey table _).same_bind fun _ => .same _

theorem handle (h : Twins R engine twin) (request : Request) :
    Mirror R Eq (engine.handle request) (twin.handle request) := by
  unfold Engine.handle
  rw [h.catalog]
  split
  · exact h.answer _ _ request
  · exact .pure rfl
  · exact .pure rfl

/-- Failures that are alike are answered with the same response. -/
theorem failure (h : Twins R engine twin)
    (hDebug : engine.config.debugMode = false) (request : Request)
    {e f : Error} (hAlike : e.Alike f) :
    engine.failure request e = twin.failure request f := by
  unfold Engine.failure
  rw [← h.config, hDebug]
  cases hAlike with
  | same e => rfl
  | statementFailed message other => rfl
  | rowsUnreadable message other => rfl
  | raised message other => rfl

/-- One request gets the same response from both, and their databases stay
related. -/
theorem respond (h : Twins R engine twin)
    (hDebug : engine.config.debugMode = false) (request : Request)
    {v : World δ} {w : World δ'} (hStates : R v.database w.database) :
    ((engine.respond request).run v).1 = ((twin.respond request).run w).1 ∧
      R ((engine.respond request).run v).2.database
        ((twin.respond request).run w).2.database := by
  cases hPreflight : Http.preflight? request with
  | some response =>
      rw [engine.respond_preflight hPreflight,
        twin.respond_preflight hPreflight]
      exact ⟨rfl, hStates⟩
  | none =>
      obtain ⟨hOutcome, hAfter⟩ := h.handle request v w hStates
      rw [Engine.respond, Engine.respond, hPreflight]
      dsimp only
      rw [StateT.run_bind, StateT.run_bind]
      rcases hRun : (engine.handle request).run.run v with ⟨x, after⟩
      rcases hTwin : (twin.handle request).run.run w with ⟨y, twinAfter⟩
      rw [hRun, hTwin] at hOutcome hAfter
      cases hOutcome with
      | ok hSame =>
          subst hSame
          exact ⟨rfl, hAfter⟩
      | error hAlike => exact ⟨h.failure hDebug request hAlike, hAfter⟩

/-- However many requests are answered one after the other, each gets the same
response from both. -/
theorem serve (h : Twins R engine twin)
    (hDebug : engine.config.debugMode = false) (requests : List Request)
    {v : World δ} {w : World δ'} (hStates : R v.database w.database) :
    ((engine.serve requests).run v).1 = ((twin.serve requests).run w).1 ∧
      R ((engine.serve requests).run v).2.database
        ((twin.serve requests).run w).2.database := by
  induction requests generalizing v w with
  | nil => exact ⟨rfl, hStates⟩
  | cons request others ih =>
      obtain ⟨hResponse, hAfter⟩ := h.respond hDebug request hStates
      obtain ⟨hOthers, hEnd⟩ := ih hAfter
      rw [serve_cons, serve_cons]
      exact ⟨congrArg₂ List.cons hResponse hOthers, hEnd⟩

end Twins

/-- Outside debug mode a response does not depend on the words of a database:
over two databases that behave the same but for those, every request gets the
same response, and the next one finds them in related states again. -/
theorem responses_discreet {a : Database δ} {b : Database δ'}
    (hMirrors : a.Mirrors R b) (catalog : Catalog) (config : Config)
    (hDebug : config.debugMode = false) (request : Request) {v : World δ}
    {w : World δ'} (hStates : R v.database w.database) :
    (((Engine.mk catalog config a).respond request).run v).1 =
        (((Engine.mk catalog config b).respond request).run w).1 ∧
      R (((Engine.mk catalog config a).respond request).run v).2.database
        (((Engine.mk catalog config b).respond request).run w).2.database :=
  have hTwins : Twins R (Engine.mk catalog config a)
      (Engine.mk catalog config b) := ⟨rfl, rfl, hMirrors⟩
  hTwins.respond hDebug request hStates

/-- A database that counts what it is sent, and fails at each statement in
words of its own. -/
def failing (words : Nat → String) : Database Nat where
  connect := fun _ => none
  execute := fun n _ => (.error (.driver (words n)), n + 1)

/-- An engine that serves items from a database that fails. -/
def failingItems (words : Nat → String) : Engine Nat where
  catalog := { tables := [Sql.items] }
  config := { projectName := "items" }
  database := failing words

/-- A request for items. -/
def askItems : Request where
  method := "GET"
  path := "/public/items"

/-- Whether a database complains of a table or of a column, the items are not
to be had for the same reason. -/
theorem responses_discreet_failing :
    (failing fun _ => "no such table").Mirrors Eq
        (failing fun n => "no such column: " ++ toString n) ∧
      (((failingItems fun _ => "no such table").respond askItems).run
          ⟨{}, 0, []⟩).1 =
        (((failingItems fun n => "no such column: " ++ toString n).respond
          askItems).run ⟨{}, 0, []⟩).1 ∧
      (((failingItems fun _ => "no such table").respond askItems).run
          ⟨{}, 0, []⟩).1.status = 500 := by
  have hMirrors : (failing fun _ => "no such table").Mirrors Eq
      (failing fun n => "no such column: " ++ toString n) := by
    refine ⟨fun _ _ _ => rfl, fun _ _ _ => rfl, ?_⟩
    rintro n _ p rfl
    exact ⟨.error (.driver _ _), rfl⟩
  obtain ⟨hSame, -⟩ := responses_discreet hMirrors { tables := [Sql.items] }
    { projectName := "items" } rfl askItems (v := ⟨{}, 0, []⟩)
    (w := ⟨{}, 0, []⟩) rfl
  exact ⟨hMirrors, hSame, by decide +kernel⟩

end Engine
end TableGate
