import TableGate.Http.Message

/-!
# Response bodies

A body is a JSON document without blanks. Cells that JSON does not know leave
in a form that it does: identifiers, dates and timestamps as texts, a decimal
without places as an integer and any other as the nearest double, bytes inside
a tuple as the text they hold. Fields whose name starts with `_sa` are left
out. A number that is not finite has no form, and then there is no body.
-/

namespace TableGate.Http

/-- The form of a decimal. -/
def plainDecimal : Number.Decimal → Result Value
  | .nan _ true _ =>
      .error (.unexpected (.raised "cannot convert signaling NaN to float"))
  | .finite negative coefficient exponent =>
      let d := Number.Decimal.finite negative coefficient exponent
      if 0 ≤ exponent then .ok (.int (d.truncate?.getD 0))
      else .ok (.float d.toBinary64)
  | d => .ok (.float d.toBinary64)

/-- The form of a byte buffer. -/
def plainBuffer (kind : BufferKind) (bytes : Bytes) : Result Value :=
  match kind with
  | .fixed =>
      match Encoding.Utf8.decode bytes with
      | .ok cs => .ok (.text (.ofList cs))
      | .error fault => .error (.unexpected (.undecodableText ⟨.utf8, fault⟩))
  | .growable | .view =>
      if bytes.isEmpty then .ok (.object [])
      else .error (.unexpected .notEncodable)

/-- The form of a value without parts. -/
def plainScalar : Scalar → Result Value
  | .decimal d => plainDecimal d
  | .buffer kind bytes => plainBuffer kind bytes
  | .uuid u => .ok (.text u.text)
  | .timestamp t => .ok (.text (t.textWith "T"))
  | .date d => .ok (.text d.text)
  | s => .ok (.scalar s)

/-- Whether a field is left out of responses. -/
def isHidden (name : String) : Bool := Text.startsWith name.toList "_sa".toList

mutual

/-- The form in which a value leaves. -/
def plain : Value → Result Value
  | .scalar s => plainScalar s
  | .list items => do return .list (← plainItems items)
  | .tuple items => do return .list (← plainItems items)
  | .object fields => do return .object (← plainFields fields)
termination_by structural value => value

/-- The forms of the items of a sequence. -/
def plainItems : List Value → Result (List Value)
  | [] => .ok []
  | item :: items => do
      let item ← plain item
      return item :: (← plainItems items)
termination_by structural items => items

/-- The fields of an object that leave, each in its form. -/
def plainFields : Fields → Result Fields
  | [] => .ok []
  | field :: fields => do
      let shown ← plainField field
      return shown ++ (← plainFields fields)
termination_by structural fields => fields

/-- A field in its form, or nothing if it is left out. -/
def plainField : String × Value → Result Fields
  | (name, value) =>
      if isHidden name then .ok [] else do return [(name, ← plain value)]
termination_by structural field => field

end

namespace Response

/-- The header that announces a document. -/
def documentType : String × String := ("Content-Type", "application/json")

/-- A response with a document that JSON knows. -/
def ofDocument (status : Nat) (headers : Headers) (document : Value) :
    Response where
  status
  headers := headers ++ [documentType]
  body := Json.write .compact document

/-- A response with the form of a value. -/
def ofValue (status : Nat) (headers : Headers) (value : Value) :
    Result Response := do
  let body ← encodeDocument .compact (← plain value)
  return { status, headers := headers ++ [documentType], body }

end Response
end TableGate.Http
