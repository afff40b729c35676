import TableGate.Proofs.Http.Service
import TableGate.Proofs.Transaction

/-!
# A refused request never reaches the database

A request is answered with the status 400 only for what the client got wrong,
and that is found out while the request is read and its statements are built.
Once a transaction is open nothing is the client's fault any more: a database
that fails, a record that is missing and a row that cannot be written as JSON
all have another status.

## Main results

* `Engine.answer_refusesFirst`: at every route, what is refused is refused
  before anything is sent.
* `Engine.respond_badRequest`: a response with the status 400 leaves the
  database alone.
-/

namespace TableGate

open Result (FailsOnly OnlyRefuses)
open TableGate.Task (Transacts)

variable {δ α β : Type}

/-! ## Replies -/

namespace Http

/-- A reply that is put together in steps has no status 400 when no step has
one. -/
theorem replyStatus_bind {x : Result α} {f : α → Result Response}
    (hFirst : FailsOnly (·.status = 500) x)
    (hNext : ∀ a, replyStatus (f a) ≠ 400) : replyStatus (x >>= f) ≠ 400 := by
  cases x with
  | error e =>
      have hStatus : e.status = 500 := hFirst e rfl
      show e.status ≠ 400
      rw [hStatus]
      decide
  | ok a => exact hNext a

theorem plainScalar_status (s : Scalar) :
    FailsOnly (·.status = 500) (plainScalar s) := by
  have hDecimal : ∀ d, FailsOnly (·.status = 500) (plainDecimal d) := by
    intro d
    unfold plainDecimal
    split
    · exact .error rfl
    · dsimp only
      split
      · exact .ok _
      · exact .ok _
    · exact .ok _
  have hBuffer : ∀ kind bytes,
      FailsOnly (·.status = 500) (plainBuffer kind bytes) := by
    intro kind bytes
    unfold plainBuffer
    split
    · split
      · exact .ok _
      · exact .error rfl
    all_goals
      split
      · exact .ok _
      · exact .error rfl
  unfold plainScalar
  split
  · exact hDecimal _
  · exact hBuffer _ _
  all_goals exact .ok _

mutual

theorem plain_status : ∀ value, FailsOnly (·.status = 500) (plain value)
  | .scalar s => by
      rw [plain]
      exact plainScalar_status s
  | .list items => by
      rw [plain]
      exact (plainItems_status items).bind fun _ => .ok _
  | .tuple items => by
      rw [plain]
      exact (plainItems_status items).bind fun _ => .ok _
  | .object fields => by
      rw [plain]
      exact (plainFields_status fields).bind fun _ => .ok _

theorem plainItems_status :
    ∀ items, FailsOnly (·.status = 500) (plainItems items)
  | [] => by
      rw [plainItems]
      exact .ok _
  | item :: items => by
      rw [plainItems]
      exact (plain_status item).bind fun _ =>
        (plainItems_status items).bind fun _ => .ok _

theorem plainFields_status :
    ∀ fields, FailsOnly (·.status = 500) (plainFields fields)
  | [] => by
      rw [plainFields]
      exact .ok _
  | field :: fields => by
      rw [plainFields]
      exact (plainField_status field).bind fun _ =>
        (plainFields_status fields).bind fun _ => .ok _

theorem plainField_status :
    ∀ field, FailsOnly (·.status = 500) (plainField field)
  | (name, value) => by
      rw [plainField]
      split
      · exact .ok _
      · exact (plain_status value).bind fun _ => .ok _

end

theorem encodeDocument_status (layout : Json.Layout) (value : Value) :
    FailsOnly (·.status = 500) (encodeDocument layout value) := by
  unfold encodeDocument
  split
  · exact .ok _
  · exact .error rfl

theorem Response.ofValue_replyStatus {status : Nat} (headers : Headers)
    (value : Value) (h : status ≠ 400) :
    replyStatus (Response.ofValue status headers value) ≠ 400 :=
  replyStatus_bind (plain_status value) fun _ =>
    replyStatus_bind (encodeDocument_status _ _) fun _ => h

theorem headerNumber_failsOnly (i : Int) :
    FailsOnly (· = .unexpected .integerTooLong) (headerNumber i) := by
  unfold headerNumber
  split
  · exact .ok _
  · exact .error rfl

/-- A range fails only for a number that is too long. -/
theorem contentRange_failsOnly (offset : Option Int) (count : Int)
    (total : Option Int) :
    FailsOnly (· = .unexpected .integerTooLong)
      (contentRange offset count total) := by
  unfold contentRange
  dsimp only
  cases total with
  | none =>
      exact (FailsOnly.ok _).bind fun _ => (headerNumber_failsOnly _).bind
        fun _ => (headerNumber_failsOnly _).bind fun _ => .ok _
  | some total =>
      exact (headerNumber_failsOnly _).bind fun _ =>
        (headerNumber_failsOnly _).bind fun _ =>
          (headerNumber_failsOnly _).bind fun _ => .ok _

theorem pageHeaders_status (params : Params) (result : ReadResult) :
    FailsOnly (·.status = 500) (pageHeaders params result) := by
  have hRange : FailsOnly (·.status = 500)
      (contentRange params.offset result.rows.length result.total) := by
    refine (contentRange_failsOnly _ _ _).mono ?_
    rintro _ rfl
    rfl
  refine hRange.bind fun range => ?_
  split
  · exact .ok _
  · exact ((encodeDocument_status _ _).bind fun _ => .ok _).bind
      fun _ => .ok _

theorem pageReply_replyStatus (params : Params) (result : ReadResult) :
    replyStatus (pageReply params result) ≠ 400 :=
  replyStatus_bind (pageHeaders_status params result) fun _ =>
    Response.ofValue_replyStatus _ _ (by decide)

theorem writeReply_replyStatus (operation : Operation) (mode : ReturnMode)
    (single : Bool) (rows : List Row) :
    replyStatus (writeReply operation mode single rows) ≠ 400 := by
  have hStatus : operation.status mode ≠ 400 := by
    cases operation <;> cases mode <;> decide
  unfold writeReply
  dsimp only
  split
  · exact Response.ofValue_replyStatus _ _ hStatus
  · exact hStatus

end Http

open Http (Request Response replyStatus)

/-! ## Requests that are read -/

namespace Http

theorem items_onlyRefuses (request : Request) : OnlyRefuses request.items := by
  have hText : ∀ cs, OnlyRefuses (Items.decodeText cs) := by
    intro cs
    unfold Items.decodeText
    split
    · exact .ok _
    · exact .refuse _
  unfold Request.items
  split
  · unfold Items.ofQueryString
    split
    · exact OnlyRefuses.mapM (fun item => (hText _).bind fun _ =>
        (hText _).bind fun _ => .ok _) _
    · exact .refuse _
  · exact .refuse _

theorem params_onlyRefuses (request : Request) :
    OnlyRefuses request.params :=
  (items_onlyRefuses request).bind Items.compile_onlyRefuses

theorem document_onlyRefuses (request : Request) :
    OnlyRefuses request.document := by
  unfold Request.document
  split
  · exact .refuse _
  · split
    · exact .ok _
    · exact .refuse _

theorem documentParams_onlyRefuses (request : Request) :
    OnlyRefuses (documentParams request) := by
  refine (document_onlyRefuses request).bind fun value => ?_
  split
  · exact Document.compile_onlyRefuses _
  · exact .refuse _

theorem fields_onlyRefuses (request : Request) :
    OnlyRefuses request.fields := by
  refine (document_onlyRefuses request).bind fun _ => ?_
  split
  · exact .ok _
  · exact .refuse _

end Http

/-! ## Tasks that answer -/

/-- Whatever the world, a task that answers with the status 400 left the
database alone. -/
def Task.RefusesFirst (task : Task δ Response) : Prop :=
  ∀ world, replyStatus (task.run.run world).1 = 400 →
    (task.run.run world).2.events = world.events ∧
      (task.run.run world).2.database = world.database

namespace Task.RefusesFirst

theorem pure (response : Response) :
    RefusesFirst (Pure.pure response : Task δ Response) :=
  fun _ _ => ⟨rfl, rfl⟩

/-- What is refused while a request is read is refused first. -/
theorem lift_bind {result : Result α} {f : α → Task δ Response}
    (h : ∀ a, RefusesFirst (f a)) :
    RefusesFirst (Task.lift result >>= f) := by
  cases result with
  | error e => exact fun _ _ => ⟨rfl, rfl⟩
  | ok a => exact h a

/-- An operation is followed by a reply, which refuses nothing. -/
theorem of_transacts {engine : Engine δ} {courses : List (List Reading)}
    {task : Task δ α} {reply : α → Result Response}
    (h : Transacts engine courses task)
    (hReply : ∀ a, replyStatus (reply a) ≠ 400) :
    RefusesFirst (task >>= fun a => Task.lift (reply a)) := by
  intro world hStatus
  rcases hRun : task.run.run world with ⟨outcome, after⟩
  have hWent := h world
  rw [hRun] at hWent
  cases outcome with
  | ok a =>
      rw [bind_run_ok hRun] at hStatus
      exact absurd hStatus (hReply a)
  | error e =>
      rw [bind_run_error hRun] at hStatus ⊢
      -- A failure with this status is a refusal, and no transaction ends
      -- with one.
      rcases hWent with hNone | ⟨xs, ending, hOne⟩
      · exact ⟨hNone.events, hNone.database⟩
      · obtain ⟨cause, rfl⟩ := Error.status_eq_400_iff.1 hStatus
        exact absurd rfl (hOne.valid cause)

end Task.RefusesFirst

open TableGate.Task (RefusesFirst)

/-! ## Requests -/

namespace Engine

/-- At every route, what is refused is refused before anything is sent. -/
theorem answer_refusesFirst (engine : Engine δ) (route : Route)
    (segment : String) (request : Request) :
    RefusesFirst (engine.answer route segment request) := by
  obtain ⟨table, action⟩ := route
  have hPage : ∀ read : Request → Result Params,
      RefusesFirst (engine.answerPage table request read) := fun read =>
    .lift_bind fun _ => .of_transacts (engine.select_transacts table _)
      fun _ => Http.pageReply_replyStatus _ _
  cases action with
  | list => exact hPage _
  | query => exact hPage _
  | create =>
      exact .lift_bind fun _ => .lift_bind fun _ =>
        .of_transacts (engine.insert_transacts table _ _)
          fun _ => Http.writeReply_replyStatus _ _ _ _
  | update =>
      exact .lift_bind fun _ => .lift_bind fun _ =>
        .of_transacts (engine.update_transacts table _ _)
          fun _ => Http.writeReply_replyStatus _ _ _ _
  | delete =>
      exact .lift_bind fun _ =>
        .of_transacts (engine.delete_transacts table _)
          fun _ => Http.writeReply_replyStatus _ _ _ _
  | getOne =>
      exact .lift_bind fun _ =>
        .of_transacts (engine.get_transacts table _ _)
          fun _ => Http.Response.ofValue_replyStatus _ _ (by decide)
  | updateOne =>
      exact .lift_bind fun _ =>
        .of_transacts (engine.updateByKey_transacts table _ _)
          fun _ => Http.writeReply_replyStatus _ _ _ _
  | deleteOne =>
      exact .of_transacts (engine.deleteByKey_transacts table _)
        fun _ => Http.writeReply_replyStatus _ _ _ _

theorem handle_refusesFirst (engine : Engine δ) (request : Request) :
    RefusesFirst (engine.handle request) := by
  unfold handle
  split
  · exact answer_refusesFirst engine _ _ request
  · exact .pure _
  · exact .pure _

/-- Answering a request does to the database what handling it does. -/
theorem respond_refusesFirst (engine : Engine δ) (request : Request)
    (world : World δ)
    (h : ((engine.respond request).run world).1.status = 400) :
    ((engine.respond request).run world).2.events = world.events ∧
      ((engine.respond request).run world).2.database = world.database := by
  cases hPreflight : Http.preflight? request with
  | some response =>
      rw [engine.respond_preflight hPreflight]
      exact ⟨rfl, rfl⟩
  | none =>
      obtain ⟨hStatus, hEvents, hDatabase⟩ :=
        engine.respond_run hPreflight world
      rw [hEvents, hDatabase]
      exact handle_refusesFirst engine request world (hStatus.symm.trans h)

/-- Whatever the tables, the configuration, the database and the request, a
response with the status 400 leaves the database alone: no transaction was
opened and no statement sent. So where a statement was sent, the response has
another status. -/
theorem respond_badRequest (engine : Engine δ) (request : Request)
    (world : World δ) :
    (((engine.respond request).run world).1.status = 400 →
      ((engine.respond request).run world).2.events = world.events ∧
        ((engine.respond request).run world).2.database = world.database) ∧
    ∀ new p, ((engine.respond request).run world).2.events =
        world.events ++ new → .statement p ∈ new →
      ((engine.respond request).run world).1.status ≠ 400 := by
  refine ⟨respond_refusesFirst engine request world, ?_⟩
  intro new p hEvents hSent hStatus
  obtain ⟨hSame, -⟩ := respond_refusesFirst engine request world hStatus
  have hNone : new = [] :=
    List.append_right_eq_self.1 (hEvents.symm.trans hSame)
  rw [hNone] at hSent
  exact absurd hSent List.not_mem_nil

/-- A request for a page of negative length. -/
def negativePage : Request where
  method := "GET"
  path := "/public/items"
  query := Encoding.Utf8.encode "limit=-1".toList

/-- A request to delete one item. -/
def deleteOne : Request where
  method := "DELETE"
  path := "/public/items/7"

/-- The statement that it is answered with. -/
def itemDeleted : Sql.PreparedStatement where
  sql := "DELETE FROM \"public\".\"items\" WHERE \"id\" = :p1 " ++
    "RETURNING \"id\", \"data\""
  params := [("p1", .text "7")]

/-- A page that cannot be had is refused before the database is asked; an item
that is not there is found missing afterwards. -/
theorem respond_badRequest_items :
    ((tiringItems.respond negativePage).run ⟨{}, 0, []⟩).1.status = 400 ∧
      ((tiringItems.respond negativePage).run ⟨{}, 0, []⟩).2.events = [] ∧
      ((tiringItems.respond deleteOne).run ⟨{}, 0, []⟩).1.status ≠ 400 := by
  have hStatus :
      ((tiringItems.respond negativePage).run ⟨{}, 0, []⟩).1.status = 400 := by
    decide +kernel
  have hDeleted : .statement itemDeleted ∈
      ((tiringItems.respond deleteOne).run ⟨{}, 0, []⟩).2.events := by
    decide +kernel
  obtain ⟨hNone, -⟩ := respond_badRequest tiringItems negativePage ⟨{}, 0, []⟩
  obtain ⟨-, hSent⟩ := respond_badRequest tiringItems deleteOne ⟨{}, 0, []⟩
  exact ⟨hStatus, (hNone hStatus).1,
    hSent _ itemDeleted (List.nil_append _).symm hDeleted⟩

end Engine

end TableGate
