import TableGate.Text.Quoted
import TableGate.Value.Basic

/-!
# Values as messages show them

`Value.quoted` shows a value the way source code would write it: texts and
bytes between quotes, sequences between brackets, an object as pairs between
braces. `Value.display` differs from it only for a value that is itself a
text, a decimal, an identifier or a time, which is then shown bare.

An integer of too many digits has no source form, and neither has a value that
holds one at any depth: `Value.isShowable` tells. Where a message about a
value must be told from a failure to word it, it is asked first.
-/

namespace TableGate

open Text (intText quoted quotedBytes)

/-- The source form of a buffer. -/
def quotedBuffer (kind : BufferKind) (bytes : Bytes) : String :=
  match kind with
  | .fixed => quotedBytes bytes
  | .growable => "bytearray(" ++ quotedBytes bytes ++ ")"
  | .view => "<memory>"

/-- The word for a truth value. -/
def boolWord (b : Bool) : String := if b then "True" else "False"

/-- The source form of a value without parts. -/
def Scalar.quoted : Scalar → String
  | .null => "None"
  | .bool b => boolWord b
  | .int i => intText i
  | .float x => x.text
  | .decimal d => "Decimal('" ++ d.text ++ "')"
  | .text s => Text.quoted s
  | .buffer kind bytes => quotedBuffer kind bytes
  | .uuid u => "UUID('" ++ u.text ++ "')"
  | .timestamp t => t.quoted
  | .date d => d.quoted

/-- Whether a value without parts has a source form. -/
def Scalar.isShowable : Scalar → Bool
  | .int i => Text.isWritable i
  | _ => true

/-- A value without parts, bare. -/
def Scalar.display : Scalar → String
  | .decimal d => d.text
  | .text s => s
  | .uuid u => u.text
  | .timestamp t => t.textWith " "
  | .date d => d.text
  | s => s.quoted

namespace Value

mutual

/-- The source form of a value. -/
def quoted : Value → String
  | .scalar s => s.quoted
  | .list items => "[" ++ ", ".intercalate (quotedItems items) ++ "]"
  | .tuple items =>
      match quotedItems items with
      | [item] => "(" ++ item ++ ",)"
      | items => "(" ++ ", ".intercalate items ++ ")"
  | .object fields =>
      "\x7b" ++ ", ".intercalate (quotedFields fields) ++ "\x7d"
termination_by structural v => v

/-- The source forms of the items of a sequence. -/
def quotedItems : List Value → List String
  | [] => []
  | item :: items => quoted item :: quotedItems items
termination_by structural items => items

/-- The source forms of the fields of an object. -/
def quotedFields : Fields → List String
  | [] => []
  | field :: fields => quotedField field :: quotedFields fields
termination_by structural fields => fields

/-- The source form of one field. -/
def quotedField : String × Value → String
  | (name, value) => Text.quoted name ++ ": " ++ quoted value
termination_by structural field => field

end

mutual

/-- Whether a value has a source form: no integer in it has too many
digits. -/
def isShowable : Value → Bool
  | .scalar s => s.isShowable
  | .list items => areShowable items
  | .tuple items => areShowable items
  | .object fields => fieldsShowable fields
termination_by structural v => v

/-- Whether the items of a sequence have source forms. -/
def areShowable : List Value → Bool
  | [] => true
  | item :: items => isShowable item && areShowable items
termination_by structural items => items

/-- Whether the fields of an object have source forms. -/
def fieldsShowable : Fields → Bool
  | [] => true
  | field :: fields => fieldShowable field && fieldsShowable fields
termination_by structural fields => fields

/-- Whether one field has a source form. -/
def fieldShowable : String × Value → Bool
  | (_, value) => isShowable value
termination_by structural field => field

end

/-- A value as it is shown on its own. -/
def display : Value → String
  | .scalar s => s.display
  | value => value.quoted

end Value
end TableGate
