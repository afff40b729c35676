import TableGate.Proofs.Nesting

/-!
# Boolean expressions as group texts

A group text stands for a Boolean expression: its leaves are triples
`column.operator.value`, its inner nodes are nested `or` and `and` groups. This
module has the expressions, their texts with every freedom a writer has
(capital or small keywords, blanks around each member), and their truth.

An `and` group anywhere inside an `or` group has no flat form; `Flattens` is
the condition that there is none.
-/

namespace TableGate

open Text (isBlank trimChars)

/-! ## Expressions -/

/-- A filter as it is written: `column.operator.value`. -/
structure Triple where
  column : List Char
  token : List Char
  value : List Char
  column_plain : ∀ c ∈ column, c ≠ '.' ∧ c ≠ ',' ∧ c ≠ '(' ∧ c ≠ ')' := by
    simp
  column_trimmed : trimChars column = column := by decide
  token_plain : ∀ c ∈ token, c ≠ '.' ∧ c ≠ ',' ∧ c ≠ '(' ∧ c ≠ ')' := by
    simp
  value_segment : Group.IsSegment value := by decide
  value_end : ∀ c ∈ value.getLast?, isBlank c = false := by simp; decide

/-- A run of blanks, possibly empty. -/
structure Blanks where
  chars : List Char := []
  blank : ∀ c ∈ chars, isBlank c = true := by simp <;> decide

theorem isBlank_of_mem_nil : ∀ c ∈ [], isBlank c = true :=
  List.forall_mem_nil _

/-- No blanks. -/
def Blanks.none : Blanks := ⟨[], isBlank_of_mem_nil⟩

/-- A text with blanks around it. -/
def Blanks.around (before : Blanks) (core : List Char) (after : Blanks) :
    List Char :=
  before.chars ++ core ++ after.chars

/-- The start of a nested group, `or(` or `and(`, in any mix of capital and
small letters. -/
structure Keyword (connective : Connective) where
  letters : List Char
  small : letters.map Char.toLower = connective.opening := by decide

mutual

/-- A triple or a nested group, with the blanks around it. -/
inductive Expression
  | triple (before : Blanks) (triple : Triple) (after : Blanks)
  | group (before : Blanks) (connective : Connective)
      (keyword : Keyword connective) (members : Members) (after : Blanks)

/-- The members of a group, of which there is at least one. -/
inductive Members
  | one (member : Expression)
  | cons (member : Expression) (others : Members)

end

/-- The text of a triple. -/
def Triple.text (t : Triple) : List Char :=
  t.column ++ '.' :: (t.token ++ '.' :: t.value)

/-- A keyword, the inside of a group and the parenthesis that ends it. -/
def Keyword.around {connective : Connective} (keyword : Keyword connective)
    (inner : List Char) : List Char :=
  keyword.letters ++ inner ++ [')']

mutual

/-- The text of an expression. -/
def Expression.text : Expression → List Char
  | .triple before t after => before.chars ++ t.text ++ after.chars
  | .group before _ keyword members after =>
      before.chars ++ keyword.around (Text.joinWith [','] members.texts) ++
        after.chars

/-- The texts of the members of a group. -/
def Members.texts : Members → List (List Char)
  | .one member => [member.text]
  | .cons member others => member.text :: others.texts

end

/-- The text of a group: its members with commas between them. -/
def Members.text (members : Members) : List Char :=
  Text.joinWith [','] members.texts

mutual

/-- The triples of an expression, in the order of its text. -/
def Expression.triples : Expression → List Triple
  | .triple _ t _ => [t]
  | .group _ _ _ members _ => members.triples

/-- The triples of the members of a group. -/
def Members.triples : Members → List Triple
  | .one member => member.triples
  | .cons member others => member.triples ++ others.triples

end

/-- What a connective makes of two truth values. -/
def Connective.join : Connective → Bool → Bool → Bool
  | or, a, b => a || b
  | and, a, b => a && b

mutual

/-- The truth of an expression whose first triple is the one numbered `first`,
under an assignment of truth to the triples by their place in the text. -/
def Expression.eval (truth : Nat → Bool) : Nat → Expression → Bool
  | first, .triple _ _ _ => truth first
  | first, .group _ connective _ members _ =>
      members.eval truth connective first

/-- The truth of the members of a group of a connective. -/
def Members.eval (truth : Nat → Bool) (connective : Connective) :
    Nat → Members → Bool
  | first, .one member => member.eval truth first
  | first, .cons member others =>
      connective.join (member.eval truth first)
        (others.eval truth connective (first + member.triples.length))

end

mutual

/-- No `and` group stands anywhere inside an `or` group, the expression itself
standing inside one or not. -/
def Expression.Flattens : Bool → Expression → Prop
  | _, .triple _ _ _ => True
  | _, .group _ .or _ members _ => members.Flattens true
  | insideOr, .group _ .and _ members _ =>
      insideOr = false ∧ members.Flattens false

/-- The same for the members of a group. -/
def Members.Flattens : Bool → Members → Prop
  | insideOr, .one member => member.Flattens insideOr
  | insideOr, .cons member others =>
      member.Flattens insideOr ∧ others.Flattens insideOr

end

end TableGate
