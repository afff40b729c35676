import TableGate.Proofs.Sql.Composed
import TableGate.Proofs.Sql.Placeholders
import TableGate.Proofs.Sql.Refusal

/-!
# Two runs with other values

The builders are run twice, on requests that differ in nothing but the values
they hold, and the runs are followed side by side. `Result.Agree` says that
both runs give related results or fail alike; a failure may be excused, and
then nothing is said of the other run. Fragments are `Alike` when they differ
in nothing but bound values, and those are related.

Each builder takes related inputs to alike fragments. The parts that are
composed without values are the same in both runs.

## Main results

* `Alike.charsWith_eq`, `Alike.args`: alike fragments have one text, and
  related arguments.
* `whereClause_agree`: alike filters give alike clauses.
-/

namespace TableGate

variable {α β γ ζ : Type}

/-! ## The results of two runs -/

/-- Both runs give related results, or they fail in the same way, or one fails
in a way that is excused. -/
inductive Result.Agree (Excused : Error → Prop) (P : α → β → Prop) :
    Result α → Result β → Prop
  | ok {a : α} {b : β} (h : P a b) : Agree Excused P (.ok a) (.ok b)
  | error (e : Error) : Agree Excused P (.error e) (.error e)
  | first {e : Error} {y : Result β} (h : Excused e) :
      Agree Excused P (.error e) y
  | second {x : Result α} {e : Error} (h : Excused e) :
      Agree Excused P x (.error e)

namespace Result.Agree

variable {Excused : Error → Prop} {P : α → β → Prop} {Q : γ → ζ → Prop}
  {x : Result α} {y : Result β}

theorem bind {f : α → Result γ} {g : β → Result ζ}
    (hFirst : Agree Excused P x y)
    (hNext : ∀ a b, P a b → Agree Excused Q (f a) (g b)) :
    Agree Excused Q (x >>= f) (y >>= g) := by
  cases hFirst with
  | ok h => exact hNext _ _ h
  | error e => exact .error e
  | first h => exact .first h
  | second h => exact .second h

/-- Both runs go through the same step. -/
theorem same_bind {f : α → Result γ} {g : α → Result ζ}
    (hNext : ∀ a, x = .ok a → Agree Excused Q (f a) (g a)) :
    Agree Excused Q (x >>= f) (x >>= g) := by
  cases x with
  | error e => exact .error e
  | ok a => exact hNext a rfl

/-- Both runs check the same condition. -/
theorem check {c : Prop} [Decidable c] (cause : Invalid)
    {f g : Unit → Result γ} {R : γ → γ → Prop}
    (h : ¬c → Agree Excused R (f ()) (g ())) :
    Agree Excused R (if c then refuse cause >>= f else f ())
      (if c then refuse cause >>= g else g ()) := by
  split
  · exact .error _
  · next hNot => exact h hNot

theorem mapM {R : α → β → Prop} {xs : List α} {ys : List β}
    (hItems : List.Forall₂ R xs ys) {f : α → Result γ} {g : β → Result ζ}
    (h : ∀ a b, R a b → Agree Excused Q (f a) (g b)) :
    Agree Excused (List.Forall₂ Q) (xs.mapM f) (ys.mapM g) := by
  induction hItems with
  | nil => exact .ok .nil
  | cons hItem _ ih =>
      rw [List.mapM_cons, List.mapM_cons]
      exact (h _ _ hItem).bind fun _ _ hFirst =>
        ih.bind fun _ _ hOthers => .ok (.cons hFirst hOthers)

theorem of_ok {a : α} {b : β} (h : Agree Excused P (.ok a) (.ok b)) :
    P a b := by
  cases h with
  | ok h => exact h

theorem mono {S : α → β → Prop} (h : Agree Excused P x y)
    (hWeaker : ∀ a b, P a b → S a b) : Agree Excused S x y := by
  cases h with
  | ok h => exact .ok (hWeaker _ _ h)
  | error e => exact .error e
  | first h => exact .first h
  | second h => exact .second h

/-- Two steps that fail in no way but an excused one. -/
theorem of_failsOnly (hx : FailsOnly Excused x) (hy : FailsOnly Excused y)
    (h : ∀ a b, x = .ok a → y = .ok b → P a b) : Agree Excused P x y := by
  cases x with
  | error e => exact .first (hx e rfl)
  | ok a =>
      cases y with
      | error e => exact .second (hy e rfl)
      | ok b => exact .ok (h a b rfl rfl)

end Result.Agree

namespace Sql

open Result (Agree FailsOnly)

variable {R : Value → Value → Prop} {Excused : Error → Prop}

/-! ## Fragments -/

/-- The same piece without a value, or two values that are related. -/
inductive Piece.Alike (R : Value → Value → Prop) : Piece → Piece → Prop
  | same {piece : Piece} (h : piece.values = 0) : Alike R piece piece
  | bind {v w : Value} (h : R v w) : Alike R (.bind v) (.bind w)

/-- Fragments that differ in nothing but their values, which are related. -/
abbrev Alike (R : Value → Value → Prop) : Fragment → Fragment → Prop :=
  List.Forall₂ (Piece.Alike R)

/-- Statements that differ in nothing but their values. -/
def Statement.Alike (R : Value → Value → Prop) (s t : Statement) : Prop :=
  Sql.Alike R s.pieces t.pieces

/-- Statements with one text whose arguments are related one by one. -/
def Statement.OneText (R : Value → Value → Prop) (s t : Statement) : Prop :=
  s.sql = t.sql ∧ List.Forall₂ R s.args t.args

namespace Alike

variable {a b c d : Fragment}

theorem append (hFirst : Alike R a b) (hSecond : Alike R c d) :
    Alike R (a ++ c) (b ++ d) :=
  List.rel_append hFirst hSecond

theorem one {v w : Value} (h : R v w) : Alike R [.bind v] [.bind w] :=
  .cons (.bind h) .nil

/-- What is composed without values is alike to itself. -/
theorem of_composed {table : Table} {columns : String → Prop}
    (h : Composed table columns False a) : Alike R a a := by
  induction h with
  | nil => exact .nil
  | @plain piece _ h _ ih =>
      refine .cons (.same ?_) ih
      cases piece with
      | bind value => exact absurd h Bool.false_ne_true
      | _ => rfl
  | target _ _ _ ih => exact .cons (.same rfl) ih
  | column _ _ ih => exact .cons (.same rfl) ih
  | named _ ih => exact .cons (.same rfl) (.cons (.same rfl) ih)
  | bind h => exact h.elim

theorem word (w : Word) (h : Alike R a b) :
    Alike R (.word w :: a) (.word w :: b) :=
  .cons (.same rfl) h

theorem last (w : Word) : Alike R [.word w] [.word w] :=
  .word w .nil

theorem join (between : Word) {parts others : List Fragment}
    (h : List.Forall₂ (Alike R) parts others) :
    Alike R (joinFragments between parts) (joinFragments between others) := by
  induction h with
  | nil => exact .nil
  | @cons part other rest more hFirst hRest ih =>
      cases hRest with
      | nil => exact hFirst
      | cons => exact hFirst.append (ih.word between)

/-- Alike fragments have one text. -/
theorem charsWith_eq (h : Alike R a b) (mark : Nat → List Char) (count : Nat) :
    charsWith mark count a = charsWith mark count b := by
  induction h generalizing count with
  | nil => rfl
  | cons hPiece _ ih =>
      cases hPiece with
      | same => rw [charsWith, charsWith, ih]
      | bind =>
          rw [charsWith, charsWith, ih]
          rfl

/-- Alike fragments have related arguments. -/
theorem args (h : Alike R a b) :
    List.Forall₂ R (argsOf a) (argsOf b) := by
  induction h with
  | nil => exact .nil
  | cons hPiece _ ih =>
      cases hPiece with
      | same hNone => rwa [argsOf_cons hNone, argsOf_cons hNone]
      | bind hValue => exact .cons hValue ih

end Alike

theorem Statement.Alike.oneText {s t : Statement} (h : s.Alike R t) :
    s.OneText R t := by
  refine ⟨String.toList_inj.1 ?_, Sql.Alike.args h⟩
  rw [Statement.sql, Statement.sql, toList_textFrom, toList_textFrom,
    Sql.Alike.charsWith_eq h]

end Sql

/-! ## Filters -/

/-- A value that is compared as one. -/
def FilterValue.isSingle : FilterValue → Bool
  | null | sequence _ => false
  | _ => true

/-- Filter values that are treated alike: both null, or as many items that are
related, or both compared as one and related. -/
inductive FilterValue.Alike (R : Value → Value → Prop) :
    FilterValue → FilterValue → Prop
  | null : Alike R .null .null
  | sequence {items others : List Scalar}
      (h : List.Forall₂ R (items.map .scalar) (others.map .scalar)) :
      Alike R (.sequence items) (.sequence others)
  | single {v w : FilterValue} (hv : v.isSingle = true)
      (hw : w.isSingle = true) (h : R v.toValue w.toValue) : Alike R v w

/-- Filters that differ in nothing but their values, which are treated alike;
after IS they are the same. -/
structure Filter.Alike (R : Value → Value → Prop) (f g : Filter) : Prop where
  column : f.column = g.column
  operator : f.operator = g.operator
  isOr : f.isOr = g.isOr
  group : f.group = g.group
  value : FilterValue.Alike R f.value g.value
  literal : f.operator = some .is → f.value = g.value

namespace Sql

open Result (Agree FailsOnly)

variable {R : Value → Value → Prop} {Excused : Error → Prop}

theorem comparison_single {f : Filter} (h : f.value.isSingle = true)
    (operator : Operator) (column : Fragment) :
    comparison f operator column =
      .ok (column ++ [.word (.compare operator), .bind f.value.toValue]) := by
  unfold comparison
  cases hValue : f.value with
  | null =>
      rw [hValue] at h
      cases h
  | sequence items =>
      rw [hValue] at h
      cases h
  | _ => rfl

theorem comparison_agree {f g : Filter} (h : f.Alike R g)
    (operator : Operator) {column : Fragment}
    (hColumn : Alike R column column) :
    Agree Excused (Alike R) (comparison f operator column)
      (comparison g operator column) := by
  obtain ⟨v, hv⟩ : ∃ v, f.value = v := ⟨_, rfl⟩
  obtain ⟨w, hw⟩ : ∃ w, g.value = w := ⟨_, rfl⟩
  have hValue := h.value
  rw [hv, hw] at hValue
  cases hValue with
  | null =>
      unfold comparison
      rw [hv, hw, h.column]
      dsimp only
      split_ifs
      · exact .ok (hColumn.append (.last _))
      · exact .ok (hColumn.append (.last _))
      · exact .error _
  | sequence hItems =>
      unfold comparison
      rw [hv, hw, h.column]
      exact .error _
  | single hf hg hRelated =>
      rw [← hv] at hf hRelated
      rw [← hw] at hg hRelated
      rw [comparison_single hf, comparison_single hg]
      exact .ok (hColumn.append ((Alike.one hRelated).word _))

theorem membership_alike {column : Fragment} (hColumn : Alike R column column)
    {items others : List Value} (h : List.Forall₂ R items others) :
    Alike R (membership column items) (membership column others) := by
  have hList : Alike R (commaList (items.map fun item => [.bind item]))
      (commaList (others.map fun item => [.bind item])) := by
    refine .join _ ?_
    rw [List.forall₂_map_left_iff, List.forall₂_map_right_iff]
    exact h.imp fun _ _ => Alike.one
  cases h with
  | nil => exact .last _
  | cons hFirst hRest =>
      exact (hColumn.append (hList.word .openList)).append (.last _)

theorem comparedColumn_alike {path : ColumnPath} {operator : Operator}
    {column : Fragment} (h : comparedColumn path operator = .ok column) :
    Alike R column column := by
  have hColumn : Composed ⟨"", "", [], []⟩ (fun _ => True) False column :=
    composed_comparedColumn h trivial
  exact .of_composed hColumn

theorem filterFragment_in_single {f : Filter}
    (hOperator : f.operator = some .in) (h : f.value.isSingle = true) :
    filterFragment f = (do
      let path ← ColumnPath.ofColumn f.column
      let column ← comparedColumn path .in
      return membership column [f.value.toValue]) := by
  unfold filterFragment
  rw [hOperator]
  cases hValue : f.value with
  | null =>
      rw [hValue] at h
      cases h
  | sequence items =>
      rw [hValue] at h
      cases h
  | _ => rfl

theorem filterFragment_in_agree {f g : Filter} (h : f.Alike R g)
    (hOperator : g.operator = some .in) :
    Agree Excused (Alike R) (filterFragment f) (filterFragment g) := by
  obtain ⟨v, hv⟩ : ∃ v, f.value = v := ⟨_, rfl⟩
  obtain ⟨w, hw⟩ : ∃ w, g.value = w := ⟨_, rfl⟩
  have hValue := h.value
  rw [hv, hw] at hValue
  cases hValue with
  | null =>
      unfold filterFragment
      rw [h.operator, hOperator, h.column, hv, hw]
      exact .same_bind fun path _ => .same_bind fun column _ => .error _
  | sequence hItems =>
      unfold filterFragment
      rw [h.operator, hOperator, h.column, hv, hw]
      exact .same_bind fun path _ => .same_bind fun column hColumn =>
        .ok (membership_alike (comparedColumn_alike hColumn) hItems)
  | single hf hg hRelated =>
      rw [← hv] at hf hRelated
      rw [← hw] at hg hRelated
      rw [filterFragment_in_single (h.operator.trans hOperator) hf,
        filterFragment_in_single hOperator hg, h.column]
      exact .same_bind fun path _ => .same_bind fun column hColumn =>
        .ok (membership_alike (comparedColumn_alike hColumn)
          (.cons hRelated .nil))

theorem filterFragment_agree {f g : Filter} (h : f.Alike R g) :
    Agree Excused (Alike R) (filterFragment f) (filterFragment g) := by
  cases hOperator : g.operator with
  | none =>
      unfold filterFragment
      rw [h.operator, hOperator, h.column]
      exact .error _
  | some operator =>
      -- IN is apart: a single value is compared as a list of one.
      by_cases hIn : operator = .in
      · exact filterFragment_in_agree h (hIn ▸ hOperator)
      · unfold filterFragment
        rw [h.operator, hOperator, h.column]
        refine .same_bind fun path _ => .same_bind fun column hColumn => ?_
        have hSame := comparedColumn_alike (R := R) hColumn
        cases operator with
        | is =>
            rw [h.literal (h.operator.trans hOperator)]
            exact .same_bind fun word _ =>
              .ok (hSame.append (.last _))
        | «in» => exact absurd rfl hIn
        | _ => exact comparison_agree h _ hSame

/-! ## The WHERE clause -/

/-- Conditions of filters that are alike. -/
inductive Condition.Alike (R : Value → Value → Prop) :
    Condition → Condition → Prop
  | single {f g : Filter} (h : f.Alike R g) : Alike R (.single f) (.single g)
  | anyOf {members others : List Filter}
      (h : List.Forall₂ (Filter.Alike R) members others) :
      Alike R (.anyOf members) (.anyOf others)

/-- Alike filters form alike conditions. -/
theorem conditionsFrom_alike {all others : List Filter}
    (hAll : List.Forall₂ (Filter.Alike R) all others) {fs gs : List Filter}
    (h : List.Forall₂ (Filter.Alike R) fs gs) (settled : List Int) :
    List.Forall₂ (Condition.Alike R) (Filter.conditionsFrom all settled fs)
      (Filter.conditionsFrom others settled gs) := by
  induction h generalizing settled with
  | nil => exact .nil
  | @cons f g fs gs hFirst _ ih =>
      have hGrouped : f.isGrouped = g.isGrouped := by
        rw [Filter.isGrouped, Filter.isGrouped, hFirst.isOr, hFirst.group]
      have hMembers : List.Forall₂ (Filter.Alike R)
          (all.filter (Filter.inGroup g.group))
          (others.filter (Filter.inGroup g.group)) := by
        refine List.rel_filter (fun a b hab => ?_) hAll
        simp only [Filter.inGroup, hab.isOr, hab.group]
      rw [Filter.conditionsFrom, Filter.conditionsFrom, hGrouped, hFirst.group]
      split_ifs
      · exact ih settled
      · exact .cons (.anyOf hMembers) (ih _)
      · exact .cons (.single hFirst) (ih settled)

theorem conditionFragment_agree {c d : Condition} (h : Condition.Alike R c d) :
    Agree Excused (Alike R) (conditionFragment c) (conditionFragment d) := by
  cases h with
  | single h => exact filterFragment_agree h
  | anyOf h =>
      exact (Agree.mapM h fun _ _ => filterFragment_agree).bind
        fun _ _ hParts => .ok (((Alike.join _ hParts).word .openParen).append
          (.last _))

/-- Alike filters give alike clauses. -/
theorem whereClause_agree {fs gs : List Filter}
    (h : List.Forall₂ (Filter.Alike R) fs gs) :
    Agree Excused (Alike R) (whereClause fs) (whereClause gs) := by
  refine (Agree.mapM (conditionsFrom_alike h h [])
    fun _ _ => conditionFragment_agree).bind fun parts others hParts => ?_
  cases hParts with
  | nil => exact .ok .nil
  | cons hFirst hRest =>
      exact .ok ((Alike.join _ (.cons hFirst hRest)).word .whereAll)

end Sql
end TableGate
