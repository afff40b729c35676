import Mathlib.Tactic.SplitIfs
import TableGate.Proofs.Result
import TableGate.Sql.Where

/-!
# The shapes of a rendered filter

Whatever a filter holds, its rendering has one of four shapes: the word FALSE,
or a column with its JSON path, possibly cast to a number, followed by a test,
by an operator and one bound value, or by a list of bound values.

## Main results

* `filterFragment_shape`: every rendered filter has one of the shapes.
-/

namespace TableGate.Sql

open Result (bind_eq_ok pure_eq_ok refuse_ne_ok)

/-- A column with the steps of a JSON path. -/
inductive IsPath : Fragment → Prop
  | intro (name : Identifier) (steps : List Step) :
      IsPath (.column name :: steps.flatMap stepPieces)

/-- What a filter compares: a path, or the number in it. -/
inductive IsOperand : Fragment → Prop
  | plain {path : Fragment} (h : IsPath path) : IsOperand path
  | number {path : Fragment} (h : IsPath path) :
      IsOperand (.word .openParen :: path ++ [.word .asNumeric])

/-- The words that test a column without a value. -/
def Word.isTest : Word → Bool
  | isNull | isNotNull | isTrue | isFalse => true
  | _ => Bool.false

/-- The four shapes of a rendered filter. -/
inductive IsComparison : Fragment → Prop
  | never : IsComparison [.word .false]
  | test {operand : Fragment} {word : Word} (h : IsOperand operand)
      (hWord : word.isTest = true) : IsComparison (operand ++ [.word word])
  | compare {operand : Fragment} (h : IsOperand operand) (operator : Operator)
      (value : Value) :
      IsComparison (operand ++ [.word (.compare operator), .bind value])
  | oneOf {path : Fragment} (h : IsPath path) (value : Value)
      (others : List Value) :
      IsComparison (path ++ .word .openList ::
        commaList ((value :: others).map fun item => [.bind item]) ++
          [.word .closeParen])

theorem column_eq_ok {name : String} {piece : Piece}
    (h : column name = .ok piece) : ∃ quoted, piece = .column quoted := by
  obtain ⟨quoted, -, hPiece⟩ := bind_eq_ok.1 h
  exact ⟨quoted, (pure_eq_ok.1 hPiece).symm⟩

theorem pathFragment_shape {path : ColumnPath} {fragment : Fragment}
    (h : pathFragment path = .ok fragment) : IsPath fragment := by
  obtain ⟨piece, hColumn, hPath⟩ := bind_eq_ok.1 h
  obtain ⟨name, rfl⟩ := column_eq_ok hColumn
  rw [← pure_eq_ok.1 hPath]
  exact .intro name path.steps

/-- The number in a path is only taken where an operator compares by size. -/
theorem comparedColumn_shape {path : ColumnPath} {operator : Operator}
    {fragment : Fragment} (h : comparedColumn path operator = .ok fragment) :
    IsOperand fragment ∧ (operator.isNumeric = false → IsPath fragment) := by
  obtain ⟨column, hPath, hCast⟩ := bind_eq_ok.1 h
  have hColumn := pathFragment_shape hPath
  split at hCast
  · next hNumeric =>
      rw [← pure_eq_ok.1 hCast]
      rw [Bool.and_eq_true] at hNumeric
      refine ⟨.number hColumn, fun hNot => ?_⟩
      rw [hNumeric.2] at hNot
      exact absurd hNot (by decide)
  · rw [← pure_eq_ok.1 hCast]
    exact ⟨.plain hColumn, fun _ => hColumn⟩

theorem membership_shape {column : Fragment} (h : IsPath column)
    (items : List Value) : IsComparison (membership column items) := by
  cases items with
  | nil => exact .never
  | cons value others => exact .oneOf h value others

theorem isKeyword?_isTest {text : String} {word : Word}
    (h : isKeyword? text = some word) : word.isTest = true := by
  unfold isKeyword? at h
  split_ifs at h <;>
    · obtain rfl := Option.some.inj h
      rfl

theorem isWord_isTest {value : FilterValue} {word : Word}
    (h : isWord value = .ok word) : word.isTest = true := by
  cases value with
  | null =>
      obtain rfl := Except.ok.inj h
      rfl
  | bool b =>
      cases b with
      | true =>
          obtain rfl := Except.ok.inj h
          rfl
      | false =>
          obtain rfl := Except.ok.inj h
          rfl
  | text s =>
      unfold isWord at h
      cases hKeyword : isKeyword? (Text.lower (Text.trim s)) with
      | none =>
          simp only [hKeyword] at h
          cases h
      | some found =>
          simp only [hKeyword] at h
          have hFound := congrArg some (Except.ok.inj h)
          exact isKeyword?_isTest (hKeyword.trans hFound)
  | _ => cases h

theorem comparison_shape {f : Filter} {operator : Operator}
    {column fragment : Fragment} (hColumn : IsOperand column)
    (h : comparison f operator column = .ok fragment) :
    IsComparison fragment := by
  unfold comparison at h
  split at h
  · split_ifs at h
    · cases h
      exact .test hColumn rfl
    · cases h
      exact .test hColumn rfl
    · cases h
  · cases h
  · cases h
    exact .compare hColumn operator _

/-- Every rendered filter has one of the four shapes. -/
theorem filterFragment_shape {f : Filter} {fragment : Fragment}
    (h : filterFragment f = .ok fragment) : IsComparison fragment := by
  unfold filterFragment at h
  split at h
  · cases h
  · next operator _ =>
      obtain ⟨path, -, h⟩ := bind_eq_ok.1 h
      obtain ⟨column, hColumn, h⟩ := bind_eq_ok.1 h
      obtain ⟨hOperand, hPath⟩ := comparedColumn_shape hColumn
      split at h
      · obtain ⟨word, hWord, h⟩ := bind_eq_ok.1 h
        rw [← pure_eq_ok.1 h]
        exact .test hOperand (isWord_isTest hWord)
      · split at h
        · cases h
        · rw [← pure_eq_ok.1 h]
          exact membership_shape (hPath rfl) _
        · rw [← pure_eq_ok.1 h]
          exact membership_shape (hPath rfl) _
      · exact comparison_shape hOperand h

end TableGate.Sql
