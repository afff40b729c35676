import TableGate.Http.Failure
import TableGate.Http.Handler
import TableGate.Http.Origin

/-!
# Answering a request

Every request is answered. One that no route takes is answered without the
database; one that fails is answered with the failure, which is logged if it
is not the client's. Responses are opened to the origin of the request, except
where something happened that nobody planned for.
-/

namespace TableGate.Engine

open Http

variable {δ : Type}

/-- What a request leads to: a response, or a failure. -/
def handle (engine : Engine δ) (request : Request) : Task δ Response :=
  match engine.catalog.find request.method request.path with
  | .route route segment => engine.answer route segment request
  | .methodNotAllowed => return routingReply 405 "Method Not Allowed"
  | .notFound => return routingReply 404 "Not Found"

/-- The response to a failure. -/
def failure (engine : Engine δ) (request : Request) (error : Error) :
    Response :=
  let response := failureReply engine.config.debugMode error
  match error with
  | .unexpected _ => response
  | _ => shareWith request response

/-- Answer a request. -/
def respond (engine : Engine δ) (request : Request) :
    StateM (World δ) Response := do
  match preflight? request with
  | some response => return response
  | none =>
      match ← (engine.handle request).run with
      | .ok response => return shareWith request response
      | .error error =>
          modify fun world =>
            { world with logger := error.report world.logger }
          return engine.failure request error

end TableGate.Engine
