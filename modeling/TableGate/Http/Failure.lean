import TableGate.Http.Body
import TableGate.Log

/-!
# Failures as responses

A failure is answered with a JSON object that holds a message and a status. A
fault of the client, and a record or table that does not exist, is told as it
is. What the database or the program did wrong is told only in debug mode, as
the detail beside a fixed message, and is written to the log in any case.

## Main results

* `failureReply_eq_of_isExecution`: outside debug mode failures of the database
  cannot be told apart.
-/

namespace TableGate

/-- Whether a failure is one of running a statement. -/
def Error.isExecution : Error → Bool
  | .statementFailed _ | .rowsUnreadable _ | .planUnexpected _ => true
  | _ => false

/-- The message a failure is answered with. -/
def Error.publicMessage (error : Error) : String :=
  match error with
  | .unexpected _ => "Internal server error"
  | error =>
      if error.isExecution then "Query execution failed" else error.message

/-- The detail a failure is answered with. -/
def Error.detail (debug : Bool) (error : Error) : Value :=
  match error with
  | .unexpected cause => if debug then .text cause.message else .null
  | error => if debug && error.isExecution then .text error.message else .null

/-- Write a failure to the log. -/
def Error.report (error : Error) (logger : Logger) : Logger :=
  match error with
  | .unexpected cause =>
      logger.error ("Unhandled exception: " ++ escapeMarkup cause.message)
  | error =>
      if error.isExecution then
        logger.error ("Execution error: " ++ escapeMarkup error.message)
      else logger

namespace Http

/-- The response to a failed request. -/
def failureReply (debug : Bool) (error : Error) : Response :=
  .ofDocument error.status [] (.object [
    ("error", .bool true),
    ("message", .text error.publicMessage),
    ("detail", error.detail debug),
    ("status_code", .int error.status)])

/-- The response to a request that no route takes. -/
def routingReply (status : Nat) (message : String) : Response :=
  .ofDocument status [] (.object [
    ("error", .bool true),
    ("message", .text message),
    ("status_code", .int status)])

theorem failureReply_eq_of_isExecution {e f : Error}
    (he : e.isExecution = true) (hf : f.isExecution = true) :
    failureReply false e = failureReply false f := by
  cases e <;> cases f <;>
    simp_all [Error.isExecution, failureReply, Error.status,
      Error.publicMessage, Error.detail]

end Http
end TableGate
