import TableGate.Http.Message

/-!
# Requests from other origins

A request that names the origin of its page is answered for that origin: every
origin is allowed, with credentials, and may read the headers that describe a
page or a write. Before a request that is not simple, a browser asks whether
it may be sent; that question is answered here, without a route. A method that
is not known and any request from a public page into a private network are
refused, and the refusal names both if both are asked for.

## Main results

* `preflight?_eq_none`: only `OPTIONS` requests are such questions.
-/

namespace TableGate.Http

/-- The methods that may be asked for. -/
def allowedMethods : List String :=
  ["DELETE", "GET", "HEAD", "OPTIONS", "PATCH", "POST", "PUT", "QUERY"]

/-- The headers that pages of other origins may read. -/
def exposedHeaders : List String :=
  ["Content-Range", "X-Affected-Count", "X-Next-Cursor"]

/-- The headers that allow an origin. -/
def originHeaders (origin : String) : Headers :=
  [("Access-Control-Allow-Origin", origin),
    ("Access-Control-Allow-Credentials", "true")]

/-- The headers that say which methods and headers may be sent; headers that
are asked for are all allowed. -/
def permissionHeaders (asked : Option String) : Headers :=
  ("Access-Control-Allow-Methods", ", ".intercalate allowedMethods) ::
    asked.toList.map fun headers => ("Access-Control-Allow-Headers", headers)

/-- A question whether a request may be sent: the origin of its page, its
method, the headers it will carry, and whether it enters a private network. -/
structure Preflight where
  origin : String
  method : String
  headers : Option String := none
  privateNetwork : Bool := false
deriving Repr

namespace Preflight

/-- The question a request asks, if it asks one. -/
def ofRequest? (request : Request) : Option Preflight := do
  if request.method ≠ "OPTIONS" then none
  return {
    origin := ← request.header? "Origin"
    method := ← request.header? "Access-Control-Request-Method"
    headers := request.header? "Access-Control-Request-Headers"
    privateNetwork :=
      (request.header? "Access-Control-Request-Private-Network").isSome }

/-- What is refused about a question. -/
def refusals (question : Preflight) : List String :=
  (if allowedMethods.contains question.method then [] else ["method"]) ++
    (if question.privateNetwork then ["private-network"] else [])

/-- The answer to a question. -/
def answer (question : Preflight) : Response :=
  let headers := originHeaders question.origin ++
    permissionHeaders question.headers ++
    [("Content-Type", "text/plain; charset=utf-8")]
  match question.refusals with
  | [] => { status := 200, headers, body := "OK" }
  | refusals =>
      { status := 400, headers
        body := "Disallowed CORS " ++ ", ".intercalate refusals }

end Preflight

/-- The answer to a request that only asks whether another may be sent. -/
def preflight? (request : Request) : Option Response :=
  (Preflight.ofRequest? request).map Preflight.answer

theorem preflight?_eq_none {request : Request}
    (h : request.method ≠ "OPTIONS") : preflight? request = none := by
  simp [preflight?, Preflight.ofRequest?, h]

/-- Open a response to the origin of its request. -/
def shareWith (request : Request) (response : Response) : Response :=
  match request.header? "Origin" with
  | none => response
  | some origin =>
      { response with
        headers := response.headers ++ originHeaders origin ++
          [("Access-Control-Expose-Headers",
            ", ".intercalate exposedHeaders)] }

end TableGate.Http
