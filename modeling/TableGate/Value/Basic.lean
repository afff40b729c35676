import TableGate.Number.Decimal
import TableGate.Value.Calendar
import TableGate.Value.Uuid

/-!
# Values

Cells of a result, values bound to a statement, the parts of a JSON document
and the values of a filter are all values of one dynamic type. A `Scalar` has
no parts; a `Value` is a scalar, a list, a tuple (a fixed sequence, told apart
from a list because sixteen small integers in a tuple stand for an
identifier), or an object whose fields are kept in order. Equality of values
is decidable at every depth.
-/

namespace TableGate

open Number (Binary64 Decimal)

/-- Bytes, as lists. -/
abbrev Bytes := List UInt8

/-- How the driver hands over a byte buffer. -/
inductive BufferKind
  | fixed
  | growable
  | view
deriving DecidableEq, Repr

/-- A value without parts. -/
inductive Scalar
  | null
  | bool (b : Bool)
  | int (i : Int)
  | float (x : Binary64)
  | decimal (d : Decimal)
  | text (s : String)
  | buffer (kind : BufferKind) (bytes : Bytes)
  | uuid (u : Uuid)
  | timestamp (t : Timestamp)
  | date (d : Date)
deriving DecidableEq, Repr

/-- A scalar, a sequence of values, or an object with ordered fields. -/
inductive Value
  | scalar (s : Scalar)
  | list (items : List Value)
  | tuple (items : List Value)
  | object (fields : List (String × Value))

/-- The fields of an object, a record or a row, in order. That no name stands
twice in an object cannot be part of the type, since the object is a value that
its fields are made of; it holds of all that is read (`Fields.ofPairs`), and is
asked for where it matters. -/
abbrev Fields := List (String × Value)

namespace Value

@[match_pattern] abbrev null : Value := .scalar .null
@[match_pattern] abbrev bool (b : Bool) : Value := .scalar (.bool b)
@[match_pattern] abbrev int (i : Int) : Value := .scalar (.int i)
@[match_pattern] abbrev float (x : Binary64) : Value := .scalar (.float x)
@[match_pattern] abbrev text (s : String) : Value := .scalar (.text s)

instance : Inhabited Value := ⟨null⟩

/-! ## Equality -/

mutual

private def decEqValue : (v w : Value) → Decidable (v = w)
  | .scalar s, .scalar t =>
      if h : s = t then isTrue (h ▸ rfl) else isFalse (by simpa using h)
  | .list xs, .list ys =>
      match decEqItems xs ys with
      | isTrue h => isTrue (h ▸ rfl)
      | isFalse h => isFalse (by simpa using h)
  | .tuple xs, .tuple ys =>
      match decEqItems xs ys with
      | isTrue h => isTrue (h ▸ rfl)
      | isFalse h => isFalse (by simpa using h)
  | .object fs, .object gs =>
      match decEqFields fs gs with
      | isTrue h => isTrue (h ▸ rfl)
      | isFalse h => isFalse (by simpa using h)
  | .scalar _, .list _ | .scalar _, .tuple _ | .scalar _, .object _
  | .list _, .scalar _ | .list _, .tuple _ | .list _, .object _
  | .tuple _, .scalar _ | .tuple _, .list _ | .tuple _, .object _
  | .object _, .scalar _ | .object _, .list _ | .object _, .tuple _ =>
      isFalse (by simp)
termination_by structural v => v

private def decEqItems : (xs ys : List Value) → Decidable (xs = ys)
  | [], [] => isTrue rfl
  | x :: xs, y :: ys =>
      match decEqValue x y, decEqItems xs ys with
      | isTrue hHead, isTrue hTail => isTrue (by rw [hHead, hTail])
      | isFalse h, _ => isFalse (by simp [h])
      | _, isFalse h => isFalse (by simp [h])
  | [], _ :: _ | _ :: _, [] => isFalse (by simp)
termination_by structural xs => xs

private def decEqFields : (fs gs : Fields) → Decidable (fs = gs)
  | [], [] => isTrue rfl
  | f :: fs, g :: gs =>
      match decEqField f g, decEqFields fs gs with
      | isTrue hHead, isTrue hTail => isTrue (by rw [hHead, hTail])
      | isFalse h, _ => isFalse (by simp [h])
      | _, isFalse h => isFalse (by simp [h])
  | [], _ :: _ | _ :: _, [] => isFalse (by simp)
termination_by structural fs => fs

private def decEqField : (f g : String × Value) → Decidable (f = g)
  | (k, v), (l, w) =>
      match decEq k l, decEqValue v w with
      | isTrue hKey, isTrue hValue => isTrue (by rw [hKey, hValue])
      | isFalse h, _ => isFalse (by simp [h])
      | _, isFalse h => isFalse (by simp [h])
termination_by structural f => f

end

instance : DecidableEq Value := decEqValue

/-! ## Kinds -/

/-- The name messages give the kind of a value. -/
def kindName : Value → String
  | .scalar .null => "NoneType"
  | .scalar (.bool _) => "bool"
  | .scalar (.int _) => "int"
  | .scalar (.float _) => "float"
  | .scalar (.decimal _) => "Decimal"
  | .scalar (.text _) => "str"
  | .scalar (.buffer .fixed _) => "bytes"
  | .scalar (.buffer .growable _) => "bytearray"
  | .scalar (.buffer .view _) => "memoryview"
  | .scalar (.uuid _) => "UUID"
  | .scalar (.timestamp _) => "datetime"
  | .scalar (.date _) => "date"
  | .list _ => "list"
  | .tuple _ => "tuple"
  | .object _ => "dict"

end Value

end TableGate
