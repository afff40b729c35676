import TableGate.Proofs.Integer
import TableGate.Sql.Statement

/-!
# The characters of a statement

A statement is written twice: with placeholders `$1`, `$2`, … for its values,
and with names `:p1`, `:p2`, …. Both texts are the characters of the pieces
with a mark for every value, and differ only in the marks.

## Main results

* `toList_textFrom`: the text with placeholders.
-/

namespace TableGate

/-! ## Characters of names and numbers -/

theorem isNamePart_of_isNameStart {c : Char} (h : isNameStart c = true) :
    isNamePart c = true := by
  rw [isNameStart, Bool.or_eq_true] at h
  rw [isNamePart, Char.isAlphanum, Bool.or_eq_true, Bool.or_eq_true]
  rcases h with hAlpha | hLine
  · exact Or.inl (Or.inl hAlpha)
  · exact Or.inr hLine

theorem isNamePart_of_isDigit {c : Char} (h : c.isDigit = true) :
    isNamePart c = true := by
  rw [isNamePart, Char.isAlphanum, h, Bool.or_true, Bool.true_or]

theorem isNamePart_of_mem_isName {cs : List Char} (h : isName cs = true) :
    ∀ c ∈ cs, isNamePart c = true := by
  cases cs with
  | nil => exact absurd h (by decide)
  | cons first rest =>
      rw [isName, Bool.and_eq_true, List.all_eq_true] at h
      intro c hc
      rcases List.mem_cons.1 hc with rfl | hRest
      · exact isNamePart_of_isNameStart h.1
      · exact h.2 c hRest

theorem ne_of_isNamePart {c d : Char} (hc : isNamePart c = true)
    (hd : isNamePart d = false) : c ≠ d := by
  rintro rfl
  rw [hc] at hd
  exact absurd hd (by decide)

theorem notMem_natDigits {c : Char} (h : c.isDigit = false) (n : Nat) :
    c ∉ Text.natDigits n := by
  intro hc
  rw [Text.isDigit_of_mem_natDigits hc] at h
  exact absurd h (by decide)

theorem isDigits_natDigits (n : Nat) : isDigits (Text.natDigits n) = true := by
  rw [isDigits, Bool.and_eq_true, List.all_eq_true]
  refine ⟨?_, fun _ => Text.isDigit_of_mem_natDigits⟩
  obtain ⟨c, rest, hDigits, -⟩ := Text.exists_natDigits_eq n
  rw [hDigits]
  rfl

theorem isDigit_of_mem_isDigits {cs : List Char} (h : isDigits cs = true) :
    ∀ c ∈ cs, c.isDigit = true := by
  rw [isDigits, Bool.and_eq_true, List.all_eq_true] at h
  exact h.2

namespace Sql

/-! ## All words -/

/-- All words. -/
def Word.all : List Word :=
  [select, selectOne, selectCount, explain, insertInto, update, deleteFrom,
    fromTable, asName, whereAll, .and, .or, groupBy, orderBy, asc, desc,
    nullsFirst, nullsLast, limit, offset, defaultValues, openColumns, values,
    onConflict, doNothing, doUpdate, assign, excluded, assignNull, returning,
    set, star, comma, openParen, closeParen, asNumeric, false, isNull,
    isNotNull, isTrue, isFalse, openList, arrow .json, arrow .text] ++
      Operator.all.map compare ++ AggregateFunction.all.map function

/-- What is checked for the listed words holds for every word. -/
theorem Word.mem_all (w : Word) : w ∈ Word.all := by
  cases w with
  | compare operator => cases operator <;> decide
  | function f => cases f <;> decide
  | arrow a => cases a <;> decide
  | _ => decide

/-! ## Texts of pieces -/

theorem toList_quoted (id : Identifier) :
    id.quoted.toList = '\x22' :: id.text.toList ++ ['\x22'] :=
  String.toList_ofList

theorem toList_table (schema name : Identifier) :
    (Piece.table schema name).text.toList =
      schema.quoted.toList ++ '.' :: name.quoted.toList := by
  rw [Piece.text, String.toList_append, String.toList_append, List.append_assoc]
  rfl

theorem toList_field (name : Identifier) :
    (Piece.field name).text.toList =
      '\x27' :: name.text.toList ++ ['\x27'] := by
  rw [Piece.text, String.toList_append, String.toList_append]
  rfl

/-! ## The two texts -/

/-- The number of values in a piece. -/
def Piece.values : Piece → Nat
  | .bind _ => 1
  | _ => 0

/-- The characters of a piece; a value is written as the mark. -/
def Piece.chars (mark : List Char) : Piece → List Char
  | .bind _ => mark
  | piece => piece.text.toList

theorem Piece.values_cases (piece : Piece) :
    piece.values = 0 ∨ ∃ value, piece = .bind value := by
  cases piece with
  | bind value => exact Or.inr ⟨value, rfl⟩
  | _ => exact Or.inl rfl

theorem Piece.chars_eq {piece : Piece} (h : piece.values = 0)
    (mark : List Char) : piece.chars mark = piece.text.toList := by
  cases piece with
  | bind value => exact absurd h Nat.one_ne_zero
  | _ => rfl

/-- The characters of pieces, with a mark for each value and its number. -/
def charsWith (mark : Nat → List Char) : Nat → Fragment → List Char
  | _, [] => []
  | count, piece :: rest =>
      piece.chars (mark (count + 1)) ++
        charsWith mark (count + piece.values) rest

/-- The placeholder of a value. -/
def dollar (n : Nat) : List Char := '$' :: Text.natDigits n

/-- The name of a value, as it stands in a text. -/
def named (n : Nat) : List Char := ':' :: 'p' :: Text.natDigits n

theorem toList_textFrom (count : Nat) (fragment : Fragment) :
    (textFrom count fragment).toList = charsWith dollar count fragment := by
  induction fragment generalizing count with
  | nil => rfl
  | cons piece rest ih =>
      cases piece with
      | bind value =>
          have hDigits : (Text.natText (count + 1)).toList =
              Text.natDigits (count + 1) := String.toList_ofList
          rw [textFrom, charsWith, String.toList_append,
            String.toList_append, ih, hDigits]
          rfl
      | _ =>
          rw [textFrom, charsWith, String.toList_append, ih]
          · rfl
          · exact fun _ => Piece.noConfusion

end Sql
end TableGate
