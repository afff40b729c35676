import TableGate.Http.Service
import TableGate.Proofs.Sql.Command
import TableGate.Proofs.Task

/-!
# Answering is handling

To answer a request is to handle it, unless it only asks whether another may be
sent. What is added to the handling is a line in the log and headers for the
origin of the request, so the status and what was done to the database are
those of the handling.

## Main results

* `Engine.answer_sends`: at a route nothing is sent but statements of its
  table.
* `Engine.respond_run`: what answering a request leaves of its handling.
-/

namespace TableGate

open Http (Request Response)
open Sql (Command PreparedStatement)
open TableGate.Task (Sends)

variable {δ : Type} {Q : PreparedStatement → Prop}

/-- The status of a reply: that of the response, or that of the failure. -/
def Http.replyStatus : Result Response → Nat
  | .ok response => response.status
  | .error e => e.status

open Http (replyStatus)

/-! ## Routes that are found -/

/-- A route that is found is one of the catalog, and takes the path and the
method. -/
theorem Catalog.fits_of_find {catalog : Catalog} {method path segment : String}
    {route : Route} (h : catalog.find method path = .route route segment) :
    route ∈ catalog.routes ∧ method ∈ route.action.methods ∧
      route.segment? path = some segment := by
  unfold find at h
  split at h
  · next hFound =>
      obtain ⟨rfl, rfl⟩ := Destination.route.inj h
      exact findRoute?_fits hFound
  · split at h <;> exact Destination.noConfusion h

/-- A request that has a route is no question whether another may be sent. -/
theorem Catalog.preflight?_of_find {catalog : Catalog} {request : Request}
    {route : Route} {segment : String}
    (h : catalog.find request.method request.path = .route route segment) :
    Http.preflight? request = none := by
  have hMethod := (fits_of_find h).2.1
  refine Http.preflight?_eq_none fun hOptions => ?_
  rw [hOptions] at hMethod
  cases hAction : route.action <;> rw [hAction] at hMethod <;>
    exact absurd hMethod (by decide)

namespace Engine

/-- At a route the statements that are sent are those of commands to its
table. -/
theorem answer_sends (engine : Engine δ) (route : Route) (segment : String)
    (request : Request)
    (h : ∀ (command : Command) s,
      command.statement route.table = .ok s → Q s.prepare) :
    Sends Q (engine.answer route segment request) := by
  obtain ⟨table, action⟩ := route
  have hPage : ∀ read : Request → Result Params,
      Sends Q (engine.answerPage table request read) := fun read =>
    (Sends.lift _).bind fun params => (engine.select_sends
      (fun s hs => h (.select _) s hs) (fun s hs => hs.elim
        (fun hCount => h (.count _) s hCount)
        (fun hExplain => h (.explain _) s hExplain))).bind fun _ => .lift _
  cases action with
  | list => exact hPage _
  | query => exact hPage _
  | create =>
      refine (Sends.lift _).bind fun _ => (Sends.lift _).bind fun body =>
        (engine.insert_sends fun s hs => ?_).bind fun _ => .lift _
      obtain ⟨-, -, hs⟩ := Result.bind_eq_ok.1 hs
      split at hs
      · exact h (.insert _ _) s hs
      · exact h (.insertBatch _ _) s hs
      · exact absurd hs Result.refuse_ne_ok
  | update =>
      exact (Sends.lift _).bind fun params => (Sends.lift _).bind
        fun values => (engine.update_sends
          fun s hs => h (.update values params) s hs).bind fun _ => .lift _
  | delete =>
      exact (Sends.lift _).bind fun params => (engine.delete_sends
        fun s hs => h (.delete params) s hs).bind fun _ => .lift _
  | getOne =>
      exact (Sends.lift _).bind fun params => (engine.get_sends
        fun s hs => h (.selectByKey _ _) s hs).bind fun _ => .lift _
  | updateOne =>
      exact (Sends.lift _).bind fun values => (engine.updateByKey_sends
        fun s hs => h (.updateByKey _ values) s hs).bind fun _ => .lift _
  | deleteOne =>
      exact (engine.deleteByKey_sends
        fun s hs => h (.deleteByKey _) s hs).bind fun _ => .lift _

/-! ## The response -/

/-- A request that has a route is answered there. -/
theorem handle_route (engine : Engine δ) {request : Request} {route : Route}
    {segment : String} (h : engine.catalog.find request.method request.path =
      .route route segment) :
    engine.handle request = engine.answer route segment request := by
  rw [handle, h]

/-- Opening a response to its origin keeps the status. -/
theorem status_shareWith (request : Request) (response : Response) :
    (Http.shareWith request response).status = response.status := by
  unfold Http.shareWith
  split
  · rfl
  · rfl

/-- A failure is answered with its status. -/
theorem status_failure (engine : Engine δ) (request : Request) (e : Error) :
    (engine.failure request e).status = e.status := by
  cases e
  case unexpected => rfl
  all_goals exact status_shareWith request _

/-- A request that only asks whether another may be sent is answered at
once. -/
theorem respond_preflight (engine : Engine δ) {request : Request}
    {response : Response} (h : Http.preflight? request = some response)
    (world : World δ) :
    (engine.respond request).run world = (response, world) := by
  rw [respond, h]
  rfl

/-- Any other is handled; the answer adds no more than a line to the log and
headers to the response. -/
theorem respond_run (engine : Engine δ) {request : Request}
    (h : Http.preflight? request = none) (world : World δ) :
    ((engine.respond request).run world).1.status =
        replyStatus ((engine.handle request).run.run world).1 ∧
      ((engine.respond request).run world).2.events =
        ((engine.handle request).run.run world).2.events ∧
      ((engine.respond request).run world).2.database =
        ((engine.handle request).run.run world).2.database := by
  rw [respond, h]
  dsimp only
  rw [StateT.run_bind]
  rcases (engine.handle request).run.run world with ⟨e | response, after⟩
  · exact ⟨engine.status_failure request e, rfl, rfl⟩
  · exact ⟨status_shareWith request response, rfl, rfl⟩

/-- Answering adds nothing to what handling a request sends. -/
theorem respond_sends (engine : Engine δ) {request : Request}
    (h : Sends Q (engine.handle request)) (world : World δ) :
    ∃ new, ((engine.respond request).run world).2.events =
        world.events ++ new ∧ ∀ p, .statement p ∈ new → Q p := by
  cases hPreflight : Http.preflight? request with
  | some response =>
      rw [engine.respond_preflight hPreflight]
      exact ⟨[], (List.append_nil _).symm,
        fun _ hMem => absurd hMem List.not_mem_nil⟩
  | none =>
      rw [(engine.respond_run hPreflight world).2.1]
      exact h world

end Engine
end TableGate
