import TableGate.Proofs.Ends
import TableGate.Proofs.Http.Refusal
import TableGate.Proofs.Http.Shown
import TableGate.Proofs.Sql.Opening

/-!
# Routes that write

The routes that write have their course in common: what the client sent is
read, one statement is sent in a transaction, and its rows become the reply.
`Engine.write` is what such a route does before it replies; it does not look
at what the client wants back.

## Main results

* `Engine.answer_eq_write`: a write is answered with the reply to its rows.
* `Engine.write_ends`: a write gives what the rows of its statement are read
  as.
-/

namespace TableGate

open Http (Operation Request writeReply)

variable {δ : Type}

/-- The actions that write. -/
def Action.isWrite (action : Action) : Bool :=
  [create, update, delete, updateOne, deleteOne].contains action

/-- What an action does to the rows of a table. -/
def Action.operation : Action → Operation
  | create => .create
  | update | updateOne => .update
  | delete | deleteOne => .delete
  | list | query | getOne => .read

theorem Http.Operation.status_lt (operation : Operation) (mode : ReturnMode) :
    operation.status mode < 400 := by
  cases operation <;> cases mode <;> decide

/-! ## Bodies -/

/-- What a body holds can be bound as a document. -/
theorem Http.Request.writeFault?_document {request : Request} {value : Value}
    (h : request.document = .ok value) :
    value.writeFault? .spaced = none := by
  unfold Request.document at h
  split at h
  · exact absurd h Result.refuse_ne_ok
  · split at h
    · next hRead =>
        rw [← Except.ok.inj h]
        exact Json.writeFault?_readBytes rfl hRead
    · exact absurd h Result.refuse_ne_ok

/-- The values of an object without fault can be bound. -/
theorem Sql.BindsIn.of_object {P : Error → Prop} {record : Fields}
    (h : (Value.object record).writeFault? .spaced = none) (table : Table) :
    BindsIn P table record := by
  rw [Value.writeFault?] at h
  exact .of_fieldsFault? (Json.fieldsFault?_eq_none.1 h) table

/-- The values of a body that is an object can be bound. -/
theorem Http.Request.bindsIn_fields {P : Error → Prop} {request : Request}
    {values : Fields} (h : request.fields = .ok values) (table : Table) :
    Sql.BindsIn P table values := by
  obtain ⟨body, hBody, h⟩ := Result.bind_eq_ok.1 h
  have hFault := request.writeFault?_document hBody
  split at h
  · rw [Result.pure_eq_ok.1 h] at hFault
    exact .of_object hFault table
  · exact absurd h Result.refuse_ne_ok

/-! ## Writes -/

namespace Engine

section Write

variable (engine : Engine δ) {route : Route}

/-- What a write does, with the rows that it answers with. -/
def write (route : Route) (segment : String) (request : Request) :
    Task δ (List Row) := do
  let table := route.table
  match route.action with
  | .create =>
      let items ← Task.lift request.items
      let body ← Task.lift request.document
      engine.insert table body (Http.upsert? items request.preferences)
  | .update =>
      let params ← Task.lift request.params
      let values ← Task.lift request.fields
      engine.update table values params
  | .delete =>
      let params ← Task.lift request.params
      engine.delete table params
  | .updateOne =>
      let values ← Task.lift request.fields
      engine.updateByKey table (.text segment) values
  | .deleteOne => engine.deleteByKey table (.text segment)
  | .list | .query | .getOne => return []

/-- A write is answered with the reply to its rows. -/
theorem answer_eq_write (h : route.action.isWrite = true)
    (segment : String) (request : Request) :
    engine.answer route segment request =
      engine.write route segment request >>= fun rows =>
        Task.lift (writeReply route.action.operation
          request.preferences.returnMode route.action.isSingle rows) := by
  obtain ⟨table, action⟩ := route
  cases action with
  | create =>
      simp only [answer, answerCreate, write, bind_assoc]
      rfl
  | update =>
      simp only [answer, answerUpdate, write, bind_assoc]
      rfl
  | delete =>
      simp only [answer, answerDelete, write, bind_assoc]
      rfl
  | updateOne =>
      simp only [answer, answerUpdateOne, write, bind_assoc]
      rfl
  | deleteOne =>
      simp only [answer, answerDeleteOne, write]
      rfl
  | list | query | getOne => exact absurd h Bool.false_ne_true

end Write

variable {engine : Engine δ}

/-- If the answers to its statement are read as rows with a property, a write
gives such rows. It fails as reading them does, or because its transaction
does, because it is refused or because it finds no record. Its statement can
be shown. -/
theorem write_ends {A : Manner} {H : Prop} {R : List Row → Prop}
    {E : Error → Prop} {route : Route} (hWrite : route.action.isWrite = true)
    (segment : String) (request : Request)
    (hSettles : engine.database.Settles E)
    (hInvalid : ∀ cause, E (.invalid cause))
    (hMissing : ∀ table key, E (.recordNotFound table key))
    (hRows : ∀ s w, s.Opens w → w ∈ Sql.openings → s.IsShown →
      A.RowsAs engine R E s) :
    Task.Ends engine.database A H R E (engine.write route segment request) := by
  obtain ⟨table, action⟩ := route
  have hKey : ∀ v ∈ keyParts (.text segment), v.isShowable = true :=
    List.forall_mem_singleton.2 rfl
  have hNone : E (noRecord table (.text segment)) := hMissing _ _
  cases action with
  | create =>
      refine .lift_bind ((Http.items_onlyRefuses request).failsOnly hInvalid)
        fun _ _ => .lift_bind
          ((Http.document_onlyRefuses request).failsOnly hInvalid)
          fun body hBody => ?_
      have hFault := Request.writeFault?_document hBody
      refine insert_ends hSettles (insertion_failsOnly hInvalid table ?_ ?_ _)
        fun s hs => hRows s _ (insertion_opens hs) (by decide)
          (insertion_isShown (Http.isShowable_document hBody) hs)
      · rintro record rfl
        exact .of_object hFault table
      · rintro records record rfl hRecord
        rw [Value.writeFault?] at hFault
        exact .of_object (Json.itemFault?_eq_none.1 hFault _ hRecord) table
  | update =>
      refine .lift_bind ((Http.params_onlyRefuses request).failsOnly hInvalid)
        fun params hParams => .lift_bind
          ((Http.fields_onlyRefuses request).failsOnly hInvalid)
          fun values hValues => ?_
      have hShown := Http.isShown_params hParams
      exact update_ends hSettles
        ((params.validate_onlyRefuses table).failsOnly hInvalid)
        (Sql.update_failsOnly hInvalid (Request.bindsIn_fields hValues table)
          fun hTests => absurd hTests (Sql.not_testsUnshown hShown.filters))
        fun s hs => hRows s _ (Sql.update_opens hs) (by decide)
          (Sql.update_isShown (Http.isShowable_fields hValues) hShown hs)
  | delete =>
      refine .lift_bind ((Http.params_onlyRefuses request).failsOnly hInvalid)
        fun params hParams => ?_
      have hShown := Http.isShown_params hParams
      exact delete_ends hSettles
        ((params.validate_onlyRefuses table).failsOnly hInvalid)
        (Sql.delete_failsOnly hInvalid table
          fun hTests => absurd hTests (Sql.not_testsUnshown hShown.filters))
        fun s hs => hRows s _ (Sql.delete_opens hs) (by decide)
          (Sql.delete_isShown hShown hs)
  | updateOne =>
      exact .lift_bind ((Http.fields_onlyRefuses request).failsOnly hInvalid)
        fun _ hValues => updateByKey_ends hSettles
          (Sql.updateByKey_failsOnly hInvalid
            (Request.bindsIn_fields hValues table) _) hNone
          fun s hs => hRows s _ (Sql.updateByKey_opens hs) (by decide)
            (Sql.updateByKey_isShown hKey (Http.isShowable_fields hValues) hs)
  | deleteOne =>
      exact deleteByKey_ends hSettles
        (Sql.deleteByKey_failsOnly hInvalid table _) hNone
        fun s hs => hRows s _ (Sql.deleteByKey_opens hs) (by decide)
          (Sql.deleteByKey_isShown hKey hs)
  | list | query | getOne => exact absurd hWrite Bool.false_ne_true

end Engine
end TableGate
