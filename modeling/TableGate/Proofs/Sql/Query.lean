import TableGate.Proofs.Sql.Clauses

/-!
# The query a statement asks

A SELECT is read the way SQL is: from its clauses, without knowing how it was
made. `Query` holds what it asks for, and `Query.ofStatement?` reads it off
the pieces of the statement, for statements that select rows of one table one
by one: those with aggregates, groups or an offset are not read.

## Main results

* `ofStatement?_select`: the SELECT of a list request asks for the columns,
  the filters, the order and the limit of the request.
-/

namespace TableGate.Sql

open TableGate.Filter (conjuncts)
open Result (bind_eq_ok pure_eq_ok)

/-- A column of a result: its expression and its name. -/
structure Target where
  expression : Fragment
  label : Identifier

/-- An expression that rows are ordered by, with what is said about the
direction and about nulls. -/
structure SortKey where
  expression : Fragment
  desc : Bool
  nulls : Fragment

/-- What a SELECT asks for. No targets mean all columns of the table; the
conditions are conjuncts with their alternatives. -/
structure Query where
  table : Fragment
  targets : Option (List Target)
  conditions : List (List Fragment)
  order : List SortKey
  limit : Option Int

/-! ## Reading -/

/-- Whether a piece is the name of an aggregate. -/
def Piece.isFunction : Piece → Bool
  | .word (.function _) => true
  | _ => false

/-- Whether a piece is a direction. -/
def Piece.isDirection : Piece → Bool
  | .word .asc | .word .desc => true
  | _ => false

/-- The target of an item of a select list: an expression with a name, or a
column, which keeps its own. -/
def Target.ofFragment? (item : Fragment) : Option Target :=
  let expression := item.takeWhile (· != .word .asName)
  if expression.any Piece.isFunction then none
  else
    match expression, item.dropWhile (· != .word .asName) with
    | _, [.word .asName, .label name] => some ⟨expression, name⟩
    | [.column name], [] => some ⟨expression, name⟩
    | _, _ => none

/-- The sort key of an entry of an ORDER BY clause. -/
def SortKey.ofFragment? (entry : Fragment) : Option SortKey :=
  let expression := entry.takeWhile fun piece => !piece.isDirection
  match entry.dropWhile fun piece => !piece.isDirection with
  | .word .asc :: nulls => some ⟨expression, false, nulls⟩
  | .word .desc :: nulls => some ⟨expression, true, nulls⟩
  | _ => none

/-- The targets of a select list. -/
def targets? : Fragment → Option (Option (List Target))
  | [.word .star] => some none
  | list => do
      let items ← splitAround? .comma 0 list
      return some (← items.mapM Target.ofFragment?)

/-- The sort keys of an ORDER BY clause, if there is one. -/
def order? : Option Fragment → Option (List SortKey)
  | none => some []
  | some list => do (← splitAround? .comma 0 list).mapM SortKey.ofFragment?

/-- The bound of a LIMIT clause, if there is one. -/
def limit? : Option Fragment → Option (Option Int)
  | none => some none
  | some [.bind (.int n)] => some (some n)
  | some _ => none

/-- The query of a statement that has no other clauses than these. -/
def Query.ofStatement? (s : Statement) : Option Query :=
  match clausesOf s.pieces with
  | (.select, list) :: (.fromTable, table) :: others =>
      if others.all fun clause =>
          [.whereAll, .orderBy, .limit].contains clause.1 then do
        let targets ← targets? list
        let conditions ← s.conjuncts?
        let order ← order? (others.lookup .orderBy)
        let limit ← limit? (others.lookup .limit)
        return { table, targets, conditions, order, limit }
      else none
  | _ => none

/-! ## Paths in lists -/

/-- The pieces of columns with JSON paths. -/
def Piece.inPath : Piece → Bool
  | .column _ | .field _ | .index _ | .word (.arrow _) => true
  | _ => false

theorem IsPath.inPath {path : Fragment} (h : IsPath path) :
    ∀ piece ∈ path, piece.inPath = true := by
  obtain ⟨name, steps⟩ := h
  intro piece hPiece
  rcases List.mem_cons.1 hPiece with rfl | hStep
  · rfl
  · obtain ⟨⟨arrow, key⟩, -, hKey⟩ := List.mem_flatMap.1 hStep
    cases key <;> simp [stepPieces] at hKey <;>
      rcases hKey with rfl | rfl <;> rfl

/-- Pieces that neither change the level nor are the word are passed. -/
theorem Passes.of_other {between : Word} {level : Nat} {fragment : Fragment}
    (h : ∀ piece ∈ fragment, piece.isFlat = true ∧ piece ≠ .word between) :
    Passes between level fragment level := by
  induction fragment with
  | nil => exact .nil
  | cons piece rest ih =>
      obtain ⟨hFlat, hOther⟩ := h piece List.mem_cons_self
      have hRest := ih fun other hMem => h other (List.mem_cons_of_mem _ hMem)
      exact .append (.piece (fun hSame => hOther hSame.1)
        (piece.level?_of_isFlat hFlat level)) hRest

theorem other_of_inPath {between : Word}
    (hBetween : ∀ arrow, between ≠ .arrow arrow) {piece : Piece}
    (h : piece.inPath = true) :
    piece.isFlat = true ∧ piece ≠ .word between := by
  cases piece with
  | word w =>
      cases w with
      | arrow a =>
          exact ⟨rfl, fun hSame => hBetween a (Piece.word.inj hSame).symm⟩
      | _ => exact absurd h Bool.false_ne_true
  | column | field | index => exact ⟨rfl, by simp⟩
  | table | label | bind => exact absurd h Bool.false_ne_true

/-! ## Select lists -/

/-- What an item of a request selects: a column under its own name, or a JSON
path under the name of its last field. -/
inductive TargetOf : String → Target → Prop
  | plain (name : Identifier) : TargetOf name.text ⟨[.column name], name⟩
  | path {item : String} {path : ColumnPath} {expression : Fragment}
      {label : Identifier} (hPath : ColumnPath.ofColumn item = .ok path)
      (hSteps : path.isPath = true) (hLabel : label.text = path.outputName) :
      TargetOf item ⟨expression, label⟩

theorem identifier_eq_ok {name : String} {id : Identifier}
    (h : identifier name = .ok id) : id.text = name := by
  unfold identifier at h
  split at h
  · next found hFound =>
      rw [← Except.ok.inj h]
      exact Identifier.text_ofString? hFound
  · exact absurd h Result.refuse_ne_ok

/-- The rendering of a selected item is passed by a cut at commas and read as
its target. -/
theorem ofFragment?_selectColumn {item : String} {part : Fragment}
    (h : selectColumn item = .ok part) :
    (Passes .comma 0 part 0 ∧ Quiet part) ∧
      ∃ target, Target.ofFragment? part = some target ∧
        TargetOf item target := by
  obtain ⟨path, hPath, h⟩ := bind_eq_ok.1 h
  split at h
  · next hSteps =>
    obtain ⟨expression, hExpression, h⟩ := bind_eq_ok.1 h
    obtain ⟨label, hLabel, h⟩ := bind_eq_ok.1 h
    rw [← pure_eq_ok.1 h]
    have hShape := pathFragment_shape hExpression
    have hInPath := hShape.inPath
    refine ⟨⟨?_, ?_⟩, ⟨expression, label⟩, ?_,
      .path hPath hSteps (identifier_eq_ok hLabel)⟩
    · refine .of_other fun piece hPiece => ?_
      rcases List.mem_append.1 hPiece with hMem | hMem
      · exact other_of_inPath (by simp) (hInPath piece hMem)
      · simp only [List.mem_cons, List.not_mem_nil, or_false] at hMem
        rcases hMem with rfl | rfl
        · exact ⟨rfl, by decide⟩
        · exact ⟨rfl, by simp⟩
    · exact hShape.quiet.append (.cons rfl (.one rfl))
    · have hTake : ∀ piece ∈ expression, (piece != .word .asName) = true :=
        fun piece hMem => bne_iff_ne.2
          (other_of_inPath (by simp) (hInPath piece hMem)).2
      have hPlain : expression.any Piece.isFunction = false := by
        rw [List.any_eq_false]
        intro piece hMem hFunction
        have hIn := hInPath piece hMem
        cases piece with
        | word w =>
            cases w with
            | function f => exact absurd hIn Bool.false_ne_true
            | _ => exact absurd hFunction Bool.false_ne_true
        | _ => exact absurd hFunction Bool.false_ne_true
      have hStart : (expression ++ [Piece.word .asName, .label label]).takeWhile
          (· != .word .asName) = expression := by
        rw [List.takeWhile_append_of_pos hTake]
        exact List.append_nil expression
      have hEnd : (expression ++ [Piece.word .asName, .label label]).dropWhile
          (· != .word .asName) = [.word .asName, .label label] := by
        rw [List.dropWhile_append_of_pos hTake]
        rfl
      simp only [Target.ofFragment?, hStart, hEnd, hPlain,
        Bool.false_eq_true, if_false]
  · obtain ⟨piece, hColumn, h⟩ := bind_eq_ok.1 h
    obtain ⟨name, hName, hColumn⟩ := bind_eq_ok.1 hColumn
    rw [← pure_eq_ok.1 h, ← pure_eq_ok.1 hColumn, ← identifier_eq_ok hName]
    refine ⟨⟨.of_other fun piece hPiece => ?_, .one rfl⟩,
      ⟨[.column name], name⟩, rfl, .plain name⟩
    rw [List.mem_singleton.1 hPiece]
    exact ⟨rfl, by simp⟩

/-- What a select list asks for: all columns if no item is named, else the
items. -/
inductive TargetsOf (select : List String) : Option (List Target) → Prop
  | all (h : select.filter (· != "*") = []) : TargetsOf select none
  | items {targets : List Target} (hSome : select.filter (· != "*") ≠ [])
      (h : List.Forall₂ TargetOf (select.filter (· != "*")) targets) :
      TargetsOf select (some targets)

theorem mapM_ofFragment? {items : List String} {parts : List Fragment}
    (h : List.Forall₂ (fun item part => selectColumn item = .ok part) items
      parts) :
    ∃ targets, parts.mapM Target.ofFragment? = some targets ∧
      List.Forall₂ TargetOf items targets := by
  induction h with
  | nil => exact ⟨[], rfl, .nil⟩
  | cons hFirst _ ih =>
      obtain ⟨-, target, hTarget, hOf⟩ := ofFragment?_selectColumn hFirst
      obtain ⟨others, hOthers, hAll⟩ := ih
      refine ⟨target :: others, ?_, .cons hOf hAll⟩
      rw [List.mapM_cons, hTarget, hOthers]
      rfl

/-- The select list of a request without aggregates is read as its items. -/
theorem targets?_selectList {params : Params} {list : Fragment}
    (hPlain : params.aggregations = []) (h : selectList params = .ok list) :
    Quiet list ∧ ∃ targets, targets? list = some targets ∧
      TargetsOf params.select targets := by
  obtain ⟨parts, hParts, h⟩ := bind_eq_ok.1 h
  rw [hPlain] at h
  obtain ⟨aggregates, hNone, h⟩ := bind_eq_ok.1 h
  rw [List.mapM_nil] at hNone
  obtain rfl := pure_eq_ok.1 hNone
  rw [List.append_nil] at h
  have hItems := Result.mapM_eq_ok.1 hParts
  cases parts with
  | nil =>
      rw [← pure_eq_ok.1 h]
      exact ⟨.one rfl, none, rfl, .all (List.forall₂_nil_right_iff.1 hItems)⟩
  | cons part others =>
      have hRead : ∀ other ∈ part :: others,
          Passes .comma 0 other 0 ∧ Quiet other := by
        intro other hOther
        obtain ⟨item, -, hItem⟩ := Result.exists_of_mem_mapM hParts hOther
        exact (ofFragment?_selectColumn hItem).1
      have hNamed : params.select.filter (· != "*") ≠ [] := by
        intro hNone
        rw [hNone] at hItems
        cases hItems
      obtain ⟨targets, hTargets, hAll⟩ := mapM_ofFragment? hItems
      have hSplit := splitAround?_joinFragments fun other hOther =>
        (hRead other hOther).1
      rw [← pure_eq_ok.1 h]
      refine ⟨.commaList fun other hOther => (hRead other hOther).2,
        some targets, ?_, .items hNamed hAll⟩
      have hNotStar : ∀ star, commaList (part :: others) = star →
          star ≠ [.word .star] := by
        rintro star rfl hStar
        rw [commaList] at hStar
        rw [hStar] at hSplit
        have hOnly : [[Piece.word .star]] = part :: others :=
          Option.some.inj hSplit
        rw [← (List.cons.inj hOnly).1, List.mapM_cons] at hTargets
        cases hTargets
      rw [targets?]
      · rw [commaList, hSplit]
        show (do return some (← (part :: others).mapM Target.ofFragment?)) = _
        rw [hTargets]
        rfl
      · exact fun hStar => hNotStar _ rfl hStar

/-! ## Order lists -/

/-- What an entry of an order list orders by: its path, in its direction. -/
def SortKeyOf (entry : OrderBy) (key : SortKey) : Prop :=
  key.desc = entry.desc ∧ ∃ path, ColumnPath.ofColumn entry.column = .ok path ∧
    pathFragment path = .ok key.expression

theorem nullsWords_shape {token : String} {nulls : Fragment}
    (h : nullsWords token = .ok nulls) :
    ∀ piece ∈ nulls, piece = .word .nullsFirst ∨ piece = .word .nullsLast := by
  unfold nullsWords at h
  split_ifs at h
  · rw [← Except.ok.inj h]
    exact fun piece hPiece => absurd hPiece List.not_mem_nil
  · rw [← Except.ok.inj h]
    exact fun piece hPiece => Or.inl (List.mem_singleton.1 hPiece)
  · rw [← Except.ok.inj h]
    exact fun piece hPiece => Or.inr (List.mem_singleton.1 hPiece)
  · exact absurd h Result.refuse_ne_ok

/-- The rendering of an order entry is passed by a cut at commas and read as
its sort key. -/
theorem ofFragment?_orderEntry {entry : OrderBy} {part : Fragment}
    (h : orderEntry entry = .ok part) :
    (Passes .comma 0 part 0 ∧ Quiet part) ∧
      ∃ key, SortKey.ofFragment? part = some key ∧ SortKeyOf entry key := by
  obtain ⟨nulls, hNulls, h⟩ := bind_eq_ok.1 h
  obtain ⟨path, hPath, h⟩ := bind_eq_ok.1 h
  obtain ⟨column, hColumn, h⟩ := bind_eq_ok.1 h
  rw [← pure_eq_ok.1 h]
  have hShape := pathFragment_shape hColumn
  have hInPath := hShape.inPath
  have hWords := nullsWords_shape hNulls
  refine ⟨⟨.of_other fun piece hPiece => ?_, hShape.quiet.append (.cons ?_
    fun piece hPiece => ?_)⟩, ⟨column, entry.desc, nulls⟩, ?_, rfl, path,
      hPath, hColumn⟩
  · rcases List.mem_append.1 hPiece with hMem | hMem
    · exact other_of_inPath (by simp) (hInPath piece hMem)
    · rcases List.mem_cons.1 hMem with rfl | hMem
      · cases entry.desc <;> exact ⟨rfl, by decide⟩
      · rcases hWords piece hMem with rfl | rfl
        all_goals exact ⟨rfl, by decide⟩
  · cases entry.desc <;> rfl
  · rcases hWords piece hPiece with rfl | rfl
    all_goals rfl
  · have hTake : ∀ piece ∈ column, (!piece.isDirection) = true := by
      intro piece hMem
      have hIn := hInPath piece hMem
      cases piece with
      | word w =>
          cases w with
          | asc | desc => exact absurd hIn Bool.false_ne_true
          | _ => rfl
      | _ => rfl
    unfold SortKey.ofFragment?
    simp only [List.takeWhile_append_of_pos hTake,
      List.dropWhile_append_of_pos hTake]
    cases entry.desc with
    | true => simp [Piece.isDirection]
    | false => simp [Piece.isDirection]

theorem mapM_sortKey {order : List OrderBy} {parts : List Fragment}
    (h : List.Forall₂ (fun entry part => orderEntry entry = .ok part) order
      parts) :
    ∃ keys, parts.mapM SortKey.ofFragment? = some keys ∧
      List.Forall₂ SortKeyOf order keys := by
  induction h with
  | nil => exact ⟨[], rfl, .nil⟩
  | cons hFirst _ ih =>
      obtain ⟨-, key, hKey, hOf⟩ := ofFragment?_orderEntry hFirst
      obtain ⟨others, hOthers, hAll⟩ := ih
      refine ⟨key :: others, ?_, .cons hOf hAll⟩
      rw [List.mapM_cons, hKey, hOthers]
      rfl

/-- The clauses of an order list: one if there are entries. -/
def orderClauses : Fragment → List (Word × Fragment)
  | .word .orderBy :: entries => [(.orderBy, entries)]
  | _ => []

/-- The ORDER BY clause of an order list is read as its entries. -/
theorem order?_orderClause {order : List OrderBy} {part : Fragment}
    (h : orderClause order = .ok part) :
    MadeOf part (orderClauses part) ∧
      ∃ keys, order? ((orderClauses part).lookup .orderBy) = some keys ∧
        List.Forall₂ SortKeyOf order keys := by
  unfold orderClause at h
  cases order with
  | nil =>
      rw [← pure_eq_ok.1 h]
      exact ⟨.nil, [], rfl, .nil⟩
  | cons entry others =>
      obtain ⟨parts, hParts, h⟩ := bind_eq_ok.1 h
      rw [← pure_eq_ok.1 h]
      have hItems := Result.mapM_eq_ok.1 hParts
      have hRead : ∀ other ∈ parts, Passes .comma 0 other 0 ∧ Quiet other := by
        intro other hOther
        obtain ⟨item, -, hItem⟩ := Result.exists_of_mem_mapM hParts hOther
        exact (ofFragment?_orderEntry hItem).1
      obtain ⟨keys, hKeys, hAll⟩ := mapM_sortKey hItems
      refine ⟨.one rfl (.commaList fun other hOther =>
        (hRead other hOther).2), keys, ?_, hAll⟩
      obtain ⟨first, later, -, -, rfl⟩ := List.forall₂_cons_left_iff.1 hItems
      have hSplit := splitAround?_joinFragments fun other hOther =>
        (hRead other hOther).1
      show (splitAround? .comma 0 (joinFragments .comma (first :: later))).bind
        _ = _
      rw [hSplit]
      exact hKeys

/-! ## The SELECT of a list request -/

/-- The clauses of a page bound: one if there is a bound. -/
def limitClauses (bound : Option Int) : List (Word × Fragment) :=
  match bound with
  | none => []
  | some n => [(.limit, [.bind (.int n)])]

theorem limit?_limitClauses (bound : Option Int) :
    limit? ((limitClauses bound).lookup .limit) = some bound := by
  cases bound <;> rfl

/-- Only a WHERE clause is looked up in the clauses of one. -/
theorem whereClauses_eq (part : Fragment) :
    ∀ clause ∈ whereClauses part, clause.1 = .whereAll := by
  unfold whereClauses
  split
  · exact fun clause hClause => by rw [List.mem_singleton.1 hClause]
  · exact fun clause hClause => absurd hClause List.not_mem_nil

theorem orderClauses_eq (part : Fragment) :
    ∀ clause ∈ orderClauses part, clause.1 = .orderBy := by
  unfold orderClauses
  split
  · exact fun clause hClause => by rw [List.mem_singleton.1 hClause]
  · exact fun clause hClause => absurd hClause List.not_mem_nil

theorem limitClauses_eq (bound : Option Int) :
    ∀ clause ∈ limitClauses bound, clause.1 = .limit := by
  cases bound with
  | none => exact fun clause hClause => absurd hClause List.not_mem_nil
  | some n => exact fun clause hClause => by rw [List.mem_singleton.1 hClause]

theorem lookup_eq_none {clauses : List (Word × Fragment)} {opened w : Word}
    (h : ∀ clause ∈ clauses, clause.1 = opened) (hOther : opened ≠ w) :
    clauses.lookup w = none := by
  rw [List.lookup_eq_none_iff]
  intro clause hClause
  rw [h clause hClause]
  exact bne_iff_ne.2 hOther.symm

theorem madeOf_limit (bound : Option Int) :
    MadeOf (boundClause .limit bound) (limitClauses bound) := by
  cases bound with
  | none => exact .nil
  | some n => exact .one rfl (.one rfl)

/-- The targets of a request, as its select list is read. -/
def Selects (params : Params) (targets : Option (List Target)) : Prop :=
  ∃ list, selectList params = .ok list ∧ targets? list = some targets

theorem Selects.unique {params : Params} {a b : Option (List Target)}
    (ha : Selects params a) (hb : Selects params b) : a = b := by
  obtain ⟨list, hList, ha⟩ := ha
  obtain ⟨other, hOther, hb⟩ := hb
  rw [← Except.ok.inj (hList.symm.trans hOther)] at hb
  exact Option.some.inj (ha.symm.trans hb)

/-- What the SELECT of a list request asks for, given its filters with the
comparison a cursor adds. -/
structure Asks (table : Table) (params : Params) (filters : List Filter)
    (q : Query) : Prop where
  table : ∃ target, tablePiece table = .ok target ∧ q.table = [target]
  selects : Selects params q.targets
  targets : TargetsOf params.select q.targets
  rendered : ∀ (i : Nat) (f : Filter), filters[i]? = some f →
    filterFragment f = .ok (renderedAt filters i)
  conditions : q.conditions =
    (conjuncts filters).map fun c => c.places.map (renderedAt filters)
  order : List.Forall₂ SortKeyOf (keysetOrder params) q.order
  limit : q.limit = params.limit

/-- The SELECT of a list request without aggregates, groups and offset is read
as what the request asks for. -/
theorem ofStatement?_select {table : Table} {params : Params} {s : Statement}
    (h : select table params = .ok s) (hPlain : params.aggregations = [])
    (hRows : params.groupBy = []) (hStart : params.offset = none) :
    ∃ filters q, keysetFilters params = .ok filters ∧
      Query.ofStatement? s = some q ∧ Asks table params filters q := by
  obtain ⟨target, hTarget, h⟩ := bind_eq_ok.1 h
  obtain ⟨list, hList, h⟩ := bind_eq_ok.1 h
  obtain ⟨filters, hFilters, h⟩ := bind_eq_ok.1 h
  obtain ⟨wherePart, hWhere, h⟩ := bind_eq_ok.1 h
  obtain ⟨groupPart, hGroup, h⟩ := bind_eq_ok.1 h
  obtain ⟨orderPart, hOrder, h⟩ := bind_eq_ok.1 h
  rw [hRows] at hGroup
  obtain rfl : [] = groupPart := pure_eq_ok.1 hGroup
  rw [hStart] at h
  obtain ⟨hQuiet, targets, hTargets, hTargetsOf⟩ :=
    targets?_selectList hPlain hList
  obtain ⟨hOrderMade, keys, hKeys, hKeysOf⟩ := order?_orderClause hOrder
  have hClauses : clausesOf s.pieces =
      (.select, list) :: (.fromTable, [target]) ::
        (whereClauses wherePart ++ orderClauses orderPart ++
          limitClauses params.limit) := by
    have hParts := ((((MadeOf.one (w := .select) rfl hQuiet).append
      (.one (w := .fromTable) rfl (quiet_tablePiece hTarget))).append
        (madeOf_whereClause hWhere)).append hOrderMade).append
          (madeOf_limit params.limit)
    have hMade := hParts.clausesOf_eq
    rw [← pure_eq_ok.1 h]
    simpa [boundClause] using hMade
  have hWhereOnly := whereClauses_eq wherePart
  have hOrderOnly := orderClauses_eq orderPart
  have hLimitOnly := limitClauses_eq params.limit
  have hConditions : s.conjuncts? = some ((conjuncts filters).map fun c =>
      c.places.map (renderedAt filters)) := by
    refine conjuncts?_of_whereClause hWhere ?_
    rw [Statement.clause?, hClauses]
    show ((whereClauses wherePart ++ orderClauses orderPart) ++
      limitClauses params.limit).lookup .whereAll = _
    simp [List.lookup_append,
      lookup_eq_none hOrderOnly (w := .whereAll) (by decide),
      lookup_eq_none hLimitOnly (w := .whereAll) (by decide)]
  have hOrderBy : order? (((whereClauses wherePart ++ orderClauses orderPart) ++
      limitClauses params.limit).lookup .orderBy) = some keys := by
    simpa [List.lookup_append,
      lookup_eq_none hWhereOnly (w := .orderBy) (by decide),
      lookup_eq_none hLimitOnly (w := .orderBy) (by decide)] using hKeys
  have hLimit : limit? (((whereClauses wherePart ++ orderClauses orderPart) ++
      limitClauses params.limit).lookup .limit) = some params.limit := by
    simpa [List.lookup_append,
      lookup_eq_none hWhereOnly (w := .limit) (by decide),
      lookup_eq_none hOrderOnly (w := .limit) (by decide)] using
        limit?_limitClauses params.limit
  have hNoOther : ((whereClauses wherePart ++ orderClauses orderPart) ++
      limitClauses params.limit).all (fun clause =>
        [Word.whereAll, .orderBy, .limit].contains clause.1) = true := by
    rw [List.all_eq_true]
    intro clause hClause
    rcases List.mem_append.1 hClause with hClause | hClause
    · rcases List.mem_append.1 hClause with hClause | hClause
      · rw [hWhereOnly clause hClause]
        decide
      · rw [hOrderOnly clause hClause]
        decide
    · rw [hLimitOnly clause hClause]
      decide
  refine ⟨filters, ⟨[target], targets, _, keys, params.limit⟩, hFilters, ?_,
    ⟨⟨target, hTarget, rfl⟩, ⟨list, hList, hTargets⟩, hTargetsOf,
      (whereClause_eq_clauseOf hWhere).2, rfl, hKeysOf, rfl⟩⟩
  simp only [Query.ofStatement?, hClauses, hNoOther, if_true, hTargets,
    hConditions, hOrderBy, hLimit]
  rfl

end TableGate.Sql
