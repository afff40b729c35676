import TableGate.Proofs.Sql.Alike

/-!
# Values never show in the text

The text of a statement does not depend on the values that are bound in it.
Two requests that differ in nothing but their values give statements with one
text, and the arguments at one position are the values at one place of the two
requests; or both are refused for the same cause. The same holds of two
batches of records with the same columns and of two updates with the same
names.

Two values are found out before that. The scalar of a cursor may be one that no
filter compares with, such as a date, and a value that is bound as a document
may have none. Then the run that holds it gives no statement, whatever the
other run does.

## Main results

* `statements_uniform`: two runs give one text and the values at the same
  places.
-/

namespace TableGate

open Result (Agree FailsOnly)

/-! ## Requests of one shape -/

/-- A value without parts that is not null. -/
def Value.IsGiven (value : Value) : Prop :=
  ∃ s : Scalar, value = .scalar s ∧ s ≠ .null

/-- The refusal of a value that no filter compares with. -/
def Error.IsIncomparable (e : Error) : Prop :=
  ∃ kind, e = .invalid (.unsupportedValue kind)

/-- Filters that differ in nothing but their values. The values are of one
kind, and of one length if they are sequences; after IS they are the same. -/
structure Filter.SameShape (f g : Filter) : Prop where
  column : f.column = g.column
  operator : f.operator = g.operator
  isOr : f.isOr = g.isOr
  group : f.group = g.group
  kind : f.value.kind = g.value.kind
  length : ∀ items others, f.value = .sequence items →
    g.value = .sequence others → items.length = others.length
  literal : f.operator = some .is → f.value = g.value

/-- Requests that differ in nothing but the values of their filters and
cursors and the numbers of their page bounds. -/
structure Params.SameShape (p q : Params) : Prop where
  select : p.select = q.select
  aggregations : p.aggregations = q.aggregations
  order : p.order = q.order
  groupBy : p.groupBy = q.groupBy
  cursorColumn : p.cursorColumn = q.cursorColumn
  keysetColumn : p.keysetColumn = q.keysetColumn
  keysetDesc : p.keysetDesc = q.keysetDesc
  filters : List.Forall₂ Filter.SameShape p.filters q.filters
  cursor : Option.Rel (fun c d => c.value.IsGiven ∧ d.value.IsGiven)
    p.cursor q.cursor
  limit : p.limit.isSome = q.limit.isSome
  offset : p.offset.isSome = q.offset.isSome

/-- Values at the same place of two requests: of a filter, of an item of a
sequence, of the cursor or of a page bound. -/
inductive Params.SamePlace (p q : Params) : Value → Value → Prop
  | filter (i : Nat) {f g : Filter} (hf : p.filters[i]? = some f)
      (hg : q.filters[i]? = some g) :
      SamePlace p q f.value.toValue g.value.toValue
  | item (i j : Nat) {f g : Filter} {items others : List Scalar} {v w : Scalar}
      (hf : p.filters[i]? = some f) (hg : q.filters[i]? = some g)
      (hItems : f.value = .sequence items)
      (hOthers : g.value = .sequence others) (hv : items[j]? = some v)
      (hw : others[j]? = some w) : SamePlace p q (.scalar v) (.scalar w)
  | cursor {c d : Cursor} (hc : p.cursor = some c) (hd : q.cursor = some d) :
      SamePlace p q c.value d.value
  | limit {m n : Int} (hm : p.limit = some m) (hn : q.limit = some n) :
      SamePlace p q (.int m) (.int n)
  | offset {m n : Int} (hm : p.offset = some m) (hn : q.offset = some n) :
      SamePlace p q (.int m) (.int n)

/-- Requests that differ in nothing but values, which are related. -/
structure Params.Alike (R : Value → Value → Prop) (p q : Params) : Prop where
  select : p.select = q.select
  aggregations : p.aggregations = q.aggregations
  order : p.order = q.order
  groupBy : p.groupBy = q.groupBy
  keysetColumn : p.keysetColumn = q.keysetColumn
  keysetDesc : p.keysetDesc = q.keysetDesc
  filters : List.Forall₂ (Filter.Alike R) p.filters q.filters
  limit : Option.Rel (fun m n : Int => R (.int m) (.int n)) p.limit q.limit
  offset : Option.Rel (fun m n : Int => R (.int m) (.int n)) p.offset q.offset

variable {R : Value → Value → Prop} {p q : Params}

/-- Two page bounds are there or they are not. -/
theorem relatedBounds {x y : Option Int}
    (h : x.isSome = y.isSome)
    (hValues : ∀ m n, x = some m → y = some n → R (.int m) (.int n)) :
    Option.Rel (fun m n : Int => R (.int m) (.int n)) x y := by
  cases x with
  | none =>
      cases y with
      | none => exact .none
      | some n => cases h
  | some m =>
      cases y with
      | none => cases h
      | some n => exact .some (hValues m n rfl rfl)

namespace FilterValue

variable {v w : FilterValue}

theorem kind_eq_null : v.kind = "null" ↔ v = .null := by
  cases v <;> simp [kind]

theorem kind_eq_sequence :
    v.kind = "sequence" ↔ ∃ items, v = .sequence items := by
  cases v <;> simp [kind]

theorem isSingle_iff :
    v.isSingle = true ↔ v.kind ≠ "null" ∧ v.kind ≠ "sequence" := by
  cases v <;> simp [kind, isSingle]

/-- Filter values of one kind are treated alike. -/
theorem alike_of_kind (hKind : v.kind = w.kind)
    (hItems : ∀ items others, v = .sequence items → w = .sequence others →
      List.Forall₂ R (items.map .scalar) (others.map .scalar))
    (hValue : R v.toValue w.toValue) : Alike R v w := by
  by_cases hNull : v.kind = "null"
  · obtain rfl := kind_eq_null.1 hNull
    obtain rfl := kind_eq_null.1 (hKind.symm.trans hNull)
    exact .null
  · by_cases hSequence : v.kind = "sequence"
    · obtain ⟨items, rfl⟩ := kind_eq_sequence.1 hSequence
      obtain ⟨others, rfl⟩ := kind_eq_sequence.1 (hKind.symm.trans hSequence)
      exact .sequence (hItems items others rfl rfl)
    · refine .single (isSingle_iff.2 ⟨hNull, hSequence⟩)
        (isSingle_iff.2 ⟨?_, ?_⟩) hValue
      · rwa [← hKind]
      · rwa [← hKind]

/-- A value that is given is compared as one, or no filter compares with
it. -/
theorem ofValue_of_isGiven {value : Value} (h : value.IsGiven) :
    (∃ v : FilterValue, ofValue value = .ok v ∧ v.isSingle = true ∧
      v.toValue = value) ∨
    ∃ e, ofValue value = .error e ∧ e.IsIncomparable := by
  obtain ⟨s, rfl, hNull⟩ := h
  cases s with
  | null => exact absurd rfl hNull
  | bool b => exact .inl ⟨.bool b, rfl, rfl, rfl⟩
  | int i => exact .inl ⟨.int i, rfl, rfl, rfl⟩
  | float x => exact .inl ⟨.float x, rfl, rfl, rfl⟩
  | decimal d => exact .inl ⟨.decimal d, rfl, rfl, rfl⟩
  | text t => exact .inl ⟨.text t, rfl, rfl, rfl⟩
  | _ => exact .inr ⟨_, rfl, _, rfl⟩

end FilterValue

/-- Filters of one shape have related values at the same places. -/
theorem alike_filters
    (h : List.Forall₂ Filter.SameShape p.filters q.filters)
    (hPlace : ∀ v w, p.SamePlace q v w → R v w) :
    List.Forall₂ (Filter.Alike R) p.filters q.filters := by
  obtain ⟨hLength, hShape⟩ := List.forall₂_iff_get.1 h
  refine List.forall₂_iff_get.2 ⟨hLength, fun i hi hj => ?_⟩
  have hOne := hShape i hi hj
  have hf : p.filters[i]? = some (p.filters.get ⟨i, hi⟩) :=
    List.getElem?_eq_getElem hi
  have hg : q.filters[i]? = some (q.filters.get ⟨i, hj⟩) :=
    List.getElem?_eq_getElem hj
  refine ⟨hOne.column, hOne.operator, hOne.isOr, hOne.group,
    FilterValue.alike_of_kind hOne.kind ?_ (hPlace _ _ (.filter i hf hg)),
    hOne.literal⟩
  intro items others hItems hOthers
  have hSame := hOne.length items others hItems hOthers
  rw [List.forall₂_map_left_iff, List.forall₂_map_right_iff]
  refine List.forall₂_iff_get.2 ⟨hSame, fun j hv hw => ?_⟩
  exact hPlace _ _ (.item i j hf hg hItems hOthers
    (List.getElem?_eq_getElem hv) (List.getElem?_eq_getElem hw))

/-- Requests of one shape have related values at the same places. -/
theorem Params.SameShape.alike (h : p.SameShape q) :
    p.Alike (p.SamePlace q) q where
  select := h.select
  aggregations := h.aggregations
  order := h.order
  groupBy := h.groupBy
  keysetColumn := h.keysetColumn
  keysetDesc := h.keysetDesc
  filters := alike_filters h.filters fun _ _ hPlace => hPlace
  limit := relatedBounds h.limit fun _ _ => .limit
  offset := relatedBounds h.offset fun _ _ => .offset

namespace Sql

variable {Excused : Error → Prop} {table : Table}

/-! ## Statements that read -/

theorem boundClause_alike (word : Word) {x y : Option Int}
    (h : Option.Rel (fun m n : Int => R (.int m) (.int n)) x y) :
    Sql.Alike R (boundClause word x) (boundClause word y) := by
  cases h with
  | none => exact .nil
  | some h => exact (Alike.one h).word word

/-- A cursor adds a comparison to the filters, unless no filter compares with
its value. -/
theorem keysetFilters_agree (h : p.Alike R q)
    (hCursor : Option.Rel (fun c d => c.value.IsGiven ∧ d.value.IsGiven)
      p.cursor q.cursor)
    (hPlace : ∀ c d, p.cursor = some c → q.cursor = some d →
      R c.value d.value) :
    Agree Error.IsIncomparable (List.Forall₂ (Filter.Alike R))
      (keysetFilters p) (keysetFilters q) := by
  have hColumn := fun c (hc : p.cursor = some c) => p.keysetColumn_ne_none hc
  unfold keysetFilters
  rw [h.keysetDesc]
  -- The keyset column is the same by hypothesis and must not be worked out
  -- again from the cursors, so these are named before they are split.
  generalize p.cursor = x at hCursor hPlace hColumn ⊢
  generalize q.cursor = y at hCursor hPlace ⊢
  cases hCursor with
  | none => exact .ok h.filters
  | @some c d hBoth =>
      have hRelated := hPlace c d rfl rfl
      obtain ⟨column, hKeyset⟩ := Option.ne_none_iff_exists'.1 (hColumn c rfl)
      rw [← h.keysetColumn, hKeyset]
      dsimp only
      rcases FilterValue.ofValue_of_isGiven hBoth.1 with
        ⟨v, hv, hSingle, hFirst⟩ | ⟨e, he, hExcused⟩
      · rcases FilterValue.ofValue_of_isGiven hBoth.2 with
          ⟨w, hw, hOther, hSecond⟩ | ⟨e, he, hExcused⟩
        · rw [← hFirst, ← hSecond] at hRelated
          rw [hv, hw]
          refine .ok (List.rel_append h.filters (.cons ?_ .nil))
          refine ⟨rfl, rfl, rfl, rfl, .single hSingle hOther hRelated, ?_⟩
          intro hIs
          split at hIs
          · cases hIs
          · cases hIs
        · rw [he]
          exact .second hExcused
      · rw [he]
        exact .first hExcused

theorem select_agree (h : p.Alike R q)
    (hKeyset : Agree Excused (List.Forall₂ (Filter.Alike R))
      (keysetFilters p) (keysetFilters q)) :
    Agree Excused (Statement.Alike R) (select table p) (select table q) := by
  have hList : selectList p = selectList q := by
    rw [selectList, selectList, h.select, h.aggregations]
  have hEntries : keysetOrder p = keysetOrder q := by
    rw [keysetOrder, keysetOrder, h.order, h.keysetColumn, h.keysetDesc]
  unfold select
  rw [hList, hEntries, h.groupBy]
  refine .same_bind fun target hTarget => .same_bind fun columns hColumns =>
    hKeyset.bind fun fs gs hFilters =>
    (whereClause_agree hFilters).bind fun clause other hWhere =>
    .same_bind fun groupPart hGroup => .same_bind fun orderPart hOrder =>
    .ok ?_
  have hHead : Composed table (fun _ => True) False
      (.word .select :: columns ++ [.word .fromTable, target]) :=
    (Composed.plain rfl (composed_selectList hColumns
      fun _ _ _ _ => trivial)).append
        (.plain rfl (composed_tablePiece hTarget))
  have hTail : Composed table (fun _ => True) False (groupPart ++ orderPart) :=
    (composed_groupClause hGroup fun _ _ _ _ => trivial).append
      (composed_orderClause hOrder fun _ _ _ _ => trivial)
  have hParts := (((Alike.of_composed hHead).append hWhere).append
    (.of_composed hTail)).append ((boundClause_alike .limit h.limit).append
      (boundClause_alike .offset h.offset))
  simpa only [Statement.Alike, List.append_assoc] using hParts

theorem count_agree (h : p.Alike R q) :
    Agree Excused (Statement.Alike R) (count table p) (count table q) := by
  unfold count
  rw [h.groupBy]
  refine .same_bind fun target hTarget =>
    (whereClause_agree h.filters).bind fun clause other hWhere => ?_
  have hTable : Composed table (fun _ => True) False [target] :=
    composed_tablePiece hTarget
  split
  · have hHead : Composed table (fun _ => True) False
        [.word .selectCount, .word .fromTable, target] :=
      .plain rfl (.plain rfl hTable)
    exact .ok ((Alike.of_composed hHead).append hWhere)
  · refine .same_bind fun groupPart hGroup => .ok ?_
    have hHead : Composed table (fun _ => True) False [.word .selectCount,
        .word .fromTable, .word .openParen, .word .selectOne,
        .word .fromTable, target] :=
      .plain rfl (.plain rfl (.plain rfl (.plain rfl (.plain rfl hTable))))
    have hTail : Composed table (fun _ => True) False (groupPart ++
        [.word .closeParen, .word .asName, .label groupedLabel]) :=
      (composed_groupClause hGroup fun _ _ _ _ => trivial).append
        (.plain rfl (.named .nil))
    have hParts := ((Alike.of_composed hHead).append hWhere).append
      (.of_composed hTail)
    simpa only [Statement.Alike, List.append_assoc] using hParts

/-- Without cursors the keyset column is the one that is named. -/
theorem alike_unpaged (h : p.Alike R q)
    (hColumn : p.cursorColumn = q.cursorColumn) :
    p.unpaged.Alike R q.unpaged := by
  have hKeyset : p.unpaged.keysetColumn = q.unpaged.keysetColumn := by
    rw [Params.keysetColumn, Params.keysetColumn]
    simp only [Params.unpaged, hColumn]
  exact {
    select := h.select
    aggregations := h.aggregations
    order := h.order
    groupBy := h.groupBy
    keysetColumn := hKeyset
    keysetDesc := by
      rw [Params.keysetDesc, Params.keysetDesc, hKeyset]
      simp only [Params.unpaged, h.order]
    filters := h.filters
    limit := .none
    offset := .none }

theorem explain_agree (h : p.Alike R q)
    (hColumn : p.cursorColumn = q.cursorColumn) :
    Agree Excused (Statement.Alike R) (explain table p) (explain table q) := by
  have hKeyset : Agree Excused (List.Forall₂ (Filter.Alike R))
      (keysetFilters p.unpaged) (keysetFilters q.unpaged) := .ok h.filters
  exact (select_agree (alike_unpaged h hColumn) hKeyset).bind
    fun s t hSame => .ok (Alike.word .explain hSame)

/-! ## Statements that write -/

theorem isEmpty_eq {α β : Type} {S : α → β → Prop} {xs : List α} {ys : List β}
    (h : List.Forall₂ S xs ys) : xs.isEmpty = ys.isEmpty := by
  cases h with
  | nil => rfl
  | cons => rfl

theorem returning_alike {result : Fragment}
    (h : returning table = .ok result) : Sql.Alike R result result := by
  have hResult : Composed table (fun _ => True) False result :=
    composed_returning h fun _ _ => trivial
  exact .of_composed hResult

theorem tablePiece_alike {target : Piece} (h : tablePiece table = .ok target) :
    Sql.Alike R [target] [target] := by
  have hTarget : Composed table (fun _ => True) False [target] :=
    composed_tablePiece h
  exact .of_composed hTarget

theorem delete_agree (h : p.Alike R q) :
    Agree Excused (Statement.Alike R) (delete table p) (delete table q) := by
  unfold delete
  rw [isEmpty_eq h.filters]
  refine .same_bind fun target hTarget => .check _ fun _ => ?_
  refine (whereClause_agree h.filters).bind fun clause other hWhere =>
    .same_bind fun result hResult => .ok ?_
  exact (((tablePiece_alike hTarget).word .deleteFrom).append hWhere).append
    (returning_alike hResult)

theorem commaList_bind_alike {values others : List Value}
    (h : List.Forall₂ R values others) :
    Sql.Alike R (commaList (values.map fun value => [.bind value]))
      (commaList (others.map fun value => [.bind value])) := by
  refine .join _ ?_
  rw [List.forall₂_map_left_iff, List.forall₂_map_right_iff]
  exact h.imp fun _ _ => Alike.one

theorem boundValue_agree {column : String} {v w : Value}
    (hPlace : ∀ a b, boundValue table column v = .ok a →
      boundValue table column w = .ok b → R a b) :
    Agree Error.IsUnwritable R (boundValue table column v)
      (boundValue table column w) :=
  .of_failsOnly (boundValue_unwritable table column v)
    (boundValue_unwritable table column w) hPlace

theorem recordRow_agree {columns : List String} {record other : Fields}
    (hPlace : ∀ column a b,
      boundValue table column ((record.get? column).getD .null) = .ok a →
      boundValue table column ((other.get? column).getD .null) = .ok b →
      R a b) :
    Agree Error.IsUnwritable (Sql.Alike R) (recordRow table columns record)
      (recordRow table columns other) := by
  have hColumns : List.Forall₂ (· = ·) columns columns :=
    List.forall₂_same.2 fun _ _ => rfl
  have hBound : Agree Error.IsUnwritable (List.Forall₂ R)
      (columns.mapM fun column =>
        boundValue table column ((record.get? column).getD .null))
      (columns.mapM fun column =>
        boundValue table column ((other.get? column).getD .null)) := by
    refine Agree.mapM hColumns ?_
    rintro column _ rfl
    exact boundValue_agree (hPlace column)
  exact hBound.bind fun values others hValues =>
    .ok (((commaList_bind_alike hValues).word .openParen).append (.last _))

end Sql

/-- Two batches of as many records. The first records have the same names in
the same order, and the later ones have no others. -/
inductive SameColumns : List Fields → List Fields → Prop
  | nil : SameColumns [] []
  | cons {first other : Fields} {rest others : List Fields}
      (hNames : first.names = other.names)
      (hLength : rest.length = others.length)
      (hRest : ∀ record ∈ rest, record.names ⊆ first.names)
      (hOthers : ∀ record ∈ others, record.names ⊆ other.names) :
      SameColumns (first :: rest) (other :: others)

theorem SameColumns.length_eq {xs ys : List Fields} (h : SameColumns xs ys) :
    xs.length = ys.length := by
  cases h with
  | nil => rfl
  | cons _ hLength => exact congrArg (· + 1) hLength

/-- Values that are bound for the same column of the same records of two
batches. -/
def SameCell (table : Table) (xs ys : List Fields) (v w : Value) : Prop :=
  ∃ (i : Nat) (column : String) (record other : Fields),
    xs[i]? = some record ∧ ys[i]? = some other ∧
    Sql.boundValue table column ((record.get? column).getD .null) = .ok v ∧
    Sql.boundValue table column ((other.get? column).getD .null) = .ok w

/-- Values that are bound for the same field of two updates, or at the same
place of their filters. -/
inductive SameInput (table : Table) (values others : Fields) (p q : Params) :
    Value → Value → Prop
  | field (i : Nat) {name : String} {v w a b : Value}
      (hv : values[i]? = some (name, v)) (hw : others[i]? = some (name, w))
      (ha : Sql.boundValue table name v = .ok a)
      (hb : Sql.boundValue table name w = .ok b) :
      SameInput table values others p q a b
  | filter {v w : Value} (h : p.SamePlace q v w) :
      SameInput table values others p q v w

namespace Sql

variable {Excused : Error → Prop} {table : Table} {xs ys : List Fields}

/-- Records without other columns pass the check. -/
theorem checkRecords_eq_ok {columns : List String} {rest : List Fields}
    (h : ∀ record ∈ rest, record.names ⊆ columns) :
    (rest.zipIdx.forM fun record =>
      checkRecord table columns (record.2 + 1) record.1) = .ok () := by
  refine Result.forM_eq_ok.2 fun record hMem => ?_
  have hKnown := h record.1 (List.fst_mem_of_mem_zipIdx hMem)
  have hNone : record.1.names.find? (fun name => !columns.contains name) =
      none := by
    rw [List.find?_eq_none]
    intro name hName
    rw [List.contains_iff_mem.2 (hKnown hName)]
    exact Bool.false_ne_true
  rw [checkRecord, hNone]

theorem batchColumns_eq (h : SameColumns xs ys) :
    batchColumns table xs = batchColumns table ys := by
  cases h with
  | nil => rfl
  | cons hNames _ hRest hOthers =>
      unfold batchColumns
      dsimp only
      rw [hNames] at hRest ⊢
      rw [checkRecords_eq_ok hRest, checkRecords_eq_ok hOthers]

theorem recordFields_map (records : List Fields) :
    recordFields (records.map .object) = .ok records := by
  rw [recordFields, Result.mapM_eq_ok, List.forall₂_map_left_iff]
  exact List.forall₂_same.2 fun _ _ => rfl

theorem insertBatch_agree (upsert : Option Upsert) (h : SameColumns xs ys) :
    Agree Error.IsUnwritable (Statement.Alike (SameCell table xs ys))
      (insertBatch table (xs.map .object) upsert)
      (insertBatch table (ys.map .object) upsert) := by
  have hRecords : List.Forall₂ (fun record other => ∃ i : Nat,
      xs[i]? = some record ∧ ys[i]? = some other) xs ys :=
    List.forall₂_iff_get.2 ⟨h.length_eq, fun i hi hj =>
      ⟨i, List.getElem?_eq_getElem hi, List.getElem?_eq_getElem hj⟩⟩
  have hEmpty : (xs.map Value.object).isEmpty =
      (ys.map Value.object).isEmpty := by
    rw [List.isEmpty_map, List.isEmpty_map, isEmpty_eq hRecords]
  unfold insertBatch
  rw [hEmpty, recordFields_map, recordFields_map]
  refine .same_bind fun target hTarget => .check _ fun _ => ?_
  show Agree _ _ (batchColumns table xs >>= _) (batchColumns table ys >>= _)
  rw [batchColumns_eq h]
  refine .same_bind fun columns _ =>
    Agree.bind (P := List.Forall₂ (Sql.Alike (SameCell table xs ys)))
      (Agree.mapM hRecords ?_) fun rows others hRows =>
    .same_bind fun names hNames => .same_bind fun conflict hConflict =>
    .same_bind fun result hResult => .ok ?_
  · rintro record other ⟨i, hx, hy⟩
    exact recordRow_agree fun column a b ha hb =>
      ⟨i, column, record, other, hx, hy, ha, hb⟩
  · have hHead : Composed table (fun _ => True) False
        ([.word .insertInto, target, .word .openColumns] ++ names) :=
      .plain rfl ((composed_tablePiece hTarget).append (.plain rfl
        (composed_columnList hNames fun _ _ _ _ => trivial)))
    have hTail : Composed table (fun _ => True) False (conflict ++ result) :=
      (composed_conflictPart hConflict (fun _ _ _ _ _ => trivial)
        (fun _ _ => trivial) fun _ _ => trivial).append
          (composed_returning hResult fun _ _ => trivial)
    have hValues : Sql.Alike (SameCell table xs ys)
        (.word .values :: commaList rows) (.word .values :: commaList others) :=
      (Alike.join _ hRows).word .values
    have hParts := ((Alike.of_composed hHead).append hValues).append
      (.of_composed hTail)
    simpa only [Statement.Alike, List.append_assoc] using hParts

theorem assignment_agree {name : String} {v w : Value}
    (hPlace : ∀ a b, boundValue table name v = .ok a →
      boundValue table name w = .ok b → R a b) :
    Agree Error.IsUnwritable (Sql.Alike R) (assignment table (name, v))
      (assignment table (name, w)) := by
  refine .same_bind fun quoted hQuoted =>
    (boundValue_agree hPlace).bind fun a b hValue => .ok ?_
  have hColumn : Composed table (fun _ => True) False [quoted] :=
    composed_column hQuoted trivial
  exact (Alike.of_composed hColumn).append ((Alike.one hValue).word .assign)

/-- Fields with the same names in the same order pair up. -/
theorem fields_forall₂ {values others : Fields}
    (h : values.names = others.names) :
    List.Forall₂ (fun field other : String × Value => ∃ i : Nat,
      values[i]? = some field ∧ others[i]? = some other ∧
        field.1 = other.1) values others := by
  have hNames : List.Forall₂ (fun field other : String × Value =>
      field.1 = other.1) values others := by
    have hMapped : List.Forall₂ (· = ·) values.names others.names := by
      rw [h]
      exact List.forall₂_same.2 fun _ _ => rfl
    rwa [Fields.names, Fields.names, List.forall₂_map_left_iff,
      List.forall₂_map_right_iff] at hMapped
  obtain ⟨hLength, hSame⟩ := List.forall₂_iff_get.1 hNames
  exact List.forall₂_iff_get.2 ⟨hLength, fun i hi hj =>
    ⟨i, List.getElem?_eq_getElem hi, List.getElem?_eq_getElem hj,
      hSame i hi hj⟩⟩

theorem update_agree {values others : Fields}
    (hNames : values.names = others.names)
    (hFilters : List.Forall₂ Filter.SameShape p.filters q.filters) :
    Agree Error.IsUnwritable
      (Statement.Alike (SameInput table values others p q))
      (update table values p) (update table others q) := by
  have hPairs := fields_forall₂ hNames
  have hClauses := alike_filters (R := SameInput table values others p q)
    hFilters fun _ _ => .filter
  unfold update updateWhere
  rw [isEmpty_eq hFilters, isEmpty_eq hPairs, hNames]
  refine .same_bind fun target hTarget => .check _ fun _ =>
    .check _ fun _ => .same_bind fun _ _ =>
    Agree.bind
      (P := List.Forall₂ (Sql.Alike (SameInput table values others p q)))
      (Agree.mapM hPairs ?_) fun parts more hParts =>
    (whereClause_agree hClauses).bind fun clause other hWhere =>
    .same_bind fun result hResult => .ok ?_
  · rintro ⟨name, v⟩ ⟨_, w⟩ ⟨i, hv, hw, rfl⟩
    exact assignment_agree fun a b => .field i hv hw
  · have hHead := ((tablePiece_alike (R := SameInput table values others p q)
      hTarget).word .update).append ((Alike.join .comma hParts).word .set)
    exact (hHead.append hWhere).append (returning_alike hResult)

end Sql

open Sql (Statement)

/-- Two runs that differ in nothing but their values give statements with one
text, whose arguments at one position are the values at one place of the two
inputs, or they are refused alike. Two values are found out before that: a
cursor that no filter compares with, and a value that is bound as a document
and has none. -/
theorem statements_uniform :
    (∀ (table : Table) (p q : Params), p.SameShape q →
      Agree Error.IsIncomparable (Statement.OneText (p.SamePlace q))
          (Sql.select table p) (Sql.select table q) ∧
      ∀ build ∈ [Sql.count table, Sql.explain table, Sql.delete table],
        Agree (fun _ => False) (Statement.OneText (p.SamePlace q)) (build p)
          (build q)) ∧
    (∀ (table : Table) (upsert : Option Upsert) (xs ys : List Fields),
      SameColumns xs ys →
        Agree Error.IsUnwritable (Statement.OneText (SameCell table xs ys))
          (Sql.insertBatch table (xs.map .object) upsert)
          (Sql.insertBatch table (ys.map .object) upsert)) ∧
    ∀ (table : Table) (values others : Fields) (p q : Params),
      values.names = others.names →
      List.Forall₂ Filter.SameShape p.filters q.filters →
        Agree Error.IsUnwritable
          (Statement.OneText (SameInput table values others p q))
          (Sql.update table values p) (Sql.update table others q) := by
  refine ⟨fun table p q h => ⟨?_, fun build hBuild => ?_⟩,
    fun table upsert xs ys h => ?_,
    fun table values others p q hNames hFilters => ?_⟩
  · have hKeyset := Sql.keysetFilters_agree h.alike h.cursor
      fun c d => .cursor
    exact (Sql.select_agree h.alike hKeyset).mono fun _ _ =>
      Statement.Alike.oneText
  · have hAgree : Agree (fun _ => False) (Statement.Alike (p.SamePlace q))
        (build p) (build q) := by
      simp only [List.mem_cons, List.not_mem_nil, or_false] at hBuild
      rcases hBuild with rfl | rfl | rfl
      · exact Sql.count_agree h.alike
      · exact Sql.explain_agree h.alike h.cursorColumn
      · exact Sql.delete_agree h.alike
    exact hAgree.mono fun _ _ => Statement.Alike.oneText
  · exact (Sql.insertBatch_agree upsert h).mono fun _ _ =>
      Statement.Alike.oneText
  · exact (Sql.update_agree hNames hFilters).mono fun _ _ =>
      Statement.Alike.oneText

/-- A request for a page of items. -/
def itemsPast : Params where
  filters := [
    { column := "id", operator := some .neq, value := .int 1 },
    { column := "data->>size", operator := some .in
      value := .sequence [.text "small", .null] }]
  limit := some 10
  cursor := some { column := "id", value := .int 5 }

/-- The same request with other values. -/
def itemsPastOther : Params where
  filters := [
    { column := "id", operator := some .neq, value := .int 7 },
    { column := "data->>size", operator := some .in
      value := .sequence [.int 3, .text "') OR ('1' = '1"] }]
  limit := some 20
  cursor := some { column := "id", value := .text "5; DROP TABLE items" }

theorem itemsPast_sameShape : itemsPast.SameShape itemsPastOther where
  select := rfl
  aggregations := rfl
  order := rfl
  groupBy := rfl
  cursorColumn := rfl
  keysetColumn := rfl
  keysetDesc := rfl
  filters := by
    refine .cons ⟨rfl, rfl, rfl, rfl, rfl, nofun, nofun⟩
      (.cons ⟨rfl, rfl, rfl, rfl, rfl, ?_, nofun⟩ .nil)
    intro items others hItems hOthers
    cases hItems
    cases hOthers
    rfl
  cursor := .some ⟨⟨_, rfl, nofun⟩, ⟨_, rfl, nofun⟩⟩
  limit := rfl
  offset := rfl

theorem statements_uniform_items :
    (∃ s t, Sql.select Sql.items itemsPast = .ok s ∧
      Sql.select Sql.items itemsPastOther = .ok t ∧
      s.OneText (itemsPast.SamePlace itemsPastOther) t) ∧
    (∃ s t, Sql.insertBatch Sql.items
        [.object [("id", .int 1), ("data", .object [])]] none = .ok s ∧
      Sql.insertBatch Sql.items
        [.object [("id", .text "one"), ("data", .null)]] none = .ok t ∧
      s.OneText (SameCell Sql.items [[("id", .int 1), ("data", .object [])]]
        [[("id", .text "one"), ("data", .null)]]) t) ∧
    ∃ s t, Sql.update Sql.items [("data", .list [])] itemsPast = .ok s ∧
      Sql.update Sql.items [("data", .bool true)] itemsPastOther = .ok t ∧
      s.OneText (SameInput Sql.items [("data", .list [])]
        [("data", .bool true)] itemsPast itemsPastOther) t := by
  obtain ⟨hRead, hInsert, hUpdate⟩ := statements_uniform
  obtain ⟨s, hs⟩ : ∃ s, Sql.select Sql.items itemsPast = .ok s := ⟨_, rfl⟩
  obtain ⟨t, ht⟩ : ∃ t, Sql.select Sql.items itemsPastOther = .ok t := ⟨_, rfl⟩
  have hSelect := (hRead Sql.items _ _ itemsPast_sameShape).1
  have hBatch := hInsert Sql.items none
    [[("id", .int 1), ("data", .object [])]]
    [[("id", .text "one"), ("data", .null)]]
    (.cons rfl rfl (by simp) (by simp))
  have hFields := hUpdate Sql.items [("data", .list [])] [("data", .bool true)]
    itemsPast itemsPastOther rfl itemsPast_sameShape.filters
  rw [hs, ht] at hSelect
  exact ⟨⟨s, t, hs, ht, hSelect.of_ok⟩, ⟨_, _, rfl, rfl, hBatch.of_ok⟩,
    ⟨_, _, rfl, rfl, hFields.of_ok⟩⟩

/-- A day, which no filter compares with and which has no document. -/
def someDay : Value := .scalar (.date ⟨2024, 1, 2⟩)

/-- The text does depend on whether there is a statement at all: a day as the
value of a cursor, or in a document, leaves none. -/
theorem statements_not_uniform :
    ({ cursor := some { column := "id", value := .int 5 } } : Params).SameShape
        { cursor := some { column := "id", value := someDay } } ∧
      (∃ s, Sql.select Sql.items
        { cursor := some { column := "id", value := .int 5 } } = .ok s) ∧
      (∃ e, Sql.select Sql.items
        { cursor := some { column := "id", value := someDay } } = .error e) ∧
      SameColumns [[("data", .object [])]]
        [[("data", .object [("on", someDay)])]] ∧
      (∃ s, Sql.insertBatch Sql.items
        [.object [("data", .object [])]] none = .ok s) ∧
      ∃ e, Sql.insertBatch Sql.items
        [.object [("data", .object [("on", someDay)])]] none = .error e := by
  refine ⟨?_, ⟨_, rfl⟩, ⟨_, rfl⟩, .cons rfl rfl (by simp) (by simp), ⟨_, rfl⟩,
    ⟨_, rfl⟩⟩
  exact ⟨rfl, rfl, rfl, rfl, rfl, rfl, rfl, .nil,
    .some ⟨⟨_, rfl, nofun⟩, ⟨_, rfl, nofun⟩⟩, rfl, rfl⟩

end TableGate
