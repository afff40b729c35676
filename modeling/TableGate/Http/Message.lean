import TableGate.Json.Reader
import TableGate.Json.Writer
import TableGate.Query.Items

/-!
# Requests and responses

A request has a method, a decoded path, the raw bytes of its query string,
headers and the bytes of its body. Header names are compared without regard to
case, and of several headers of one name the first counts.

What a request carries is read here, each part on its own: the items of the
query string, the document of the body, and the fields of a body that must be
an object.

## Main results

* `Request.header?_setHeader`: a header that is set is read back.
-/

namespace TableGate.Http

/-- Headers, in order. -/
abbrev Headers := List (String × String)

/-- A request. -/
structure Request where
  method : String
  path : String
  query : Bytes := []
  headers : Headers := []
  body : Bytes := []
deriving DecidableEq

/-- A response. -/
structure Response where
  status : Nat
  headers : Headers := []
  body : String := ""
deriving DecidableEq, Repr

namespace Request

/-- Header names that are the same. -/
def sameName (a b : String) : Bool :=
  a.toList.map Char.toLower == b.toList.map Char.toLower

/-- The first header of a name. -/
def header? (request : Request) (name : String) : Option String :=
  (request.headers.find? fun header => sameName header.1 name).map (·.2)

/-- The request with one header of a name, in front of the others. -/
def setHeader (request : Request) (name value : String) : Request :=
  { request with
    headers :=
      (name, value) :: request.headers.filter fun header =>
        !sameName header.1 name }

theorem header?_setHeader (request : Request) (name value : String) :
    (request.setHeader name value).header? name = some value := by
  simp [header?, setHeader, sameName]

/-- The items of the query string. -/
def items (request : Request) : Result Items :=
  match Encoding.Utf8.decode request.query with
  | .ok raw => Items.ofQueryString (.ofList raw)
  | .error _ => refuse .queryString

/-- The request that the query string asks for. -/
def params (request : Request) : Result Params := do
  (← request.items).compile

/-- A byte that counts as nothing in a body. -/
def isBlankByte (b : UInt8) : Bool :=
  b == 0x20 || (0x09 ≤ b && b ≤ 0x0d)

/-- The document of the body. -/
def document (request : Request) : Result Value :=
  if request.body.all isBlankByte then refuse .bodyEmpty
  else
    match Json.readBytes true request.body with
    | .ok value => .ok value
    | .error error => refuse (.bodyMalformed error)

/-- The fields of a body, which must be an object. -/
def fields (request : Request) : Result Fields := do
  match ← request.document with
  | .object fields => return fields
  | _ => refuse .bodyNotObject

end Request
end TableGate.Http
