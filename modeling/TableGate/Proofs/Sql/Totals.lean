import TableGate.Proofs.Sql.Placeholders
import TableGate.Proofs.Sql.Selection
import TableGate.Proofs.Sql.Composed

/-!
# Totals describe the rows of the page

The total of a list request is a COUNT, or the planner's estimate for a
SELECT. Both are built from the same parts as the SELECT of the page, each by
a builder of its own: the COUNT keeps the filters and the groups and drops
everything else, the estimate drops the page bounds and the cursor.

What a statement narrows its rows by is read off the statement itself:
`Statement.whereText` is the text of its WHERE clause, with the placeholders
as they are numbered there, and `Statement.whereArgs` are the values bound in
it.

## Main results

* `Statement.exists_where`: the WHERE clause read off a statement stands in
  its text, and its values among those of the statement.
* `totals_match_page`: whenever the SELECT of a page can be built, so can its
  totals; the COUNT narrows its rows exactly like the SELECT without the
  cursor, and nothing but the filters and the groups of the request matters to
  it.
-/

namespace TableGate

open TableGate.Sql

/-! ## Conditions with one more filter -/

/-- A filter outside all groups adds one condition, at the end. -/
theorem Filter.conditions_concat (filters : List Filter) {f : Filter}
    (h : f.isOr = false) :
    conditions (filters ++ [f]) = conditions filters ++ [.single f] := by
  have hAlone : f.isGrouped = false := by rw [isGrouped, h, Bool.false_and]
  have hMembers : ∀ group, (filters ++ [f]).filter (inGroup group) =
      filters.filter (inGroup group) := by
    intro group
    rw [List.filter_append, List.filter_cons_of_neg (by simp [inGroup, h]),
      List.filter_nil, List.append_nil]
  have hFrom : ∀ settled rest, conditionsFrom (filters ++ [f]) settled
      (rest ++ [f]) = conditionsFrom filters settled rest ++ [.single f] := by
    intro settled rest
    induction rest generalizing settled with
    | nil => simp [conditionsFrom, hAlone]
    | cons g rest ih =>
        rw [List.cons_append, conditionsFrom, conditionsFrom, hMembers]
        split_ifs
        · exact ih settled
        · rw [ih, List.cons_append]
        · rw [ih, List.cons_append]
  exact hFrom [] filters

namespace Sql

open Result (bind_eq_ok pure_eq_ok)

variable {table : Table} {params : Params} {s : Statement}

/-! ## The values of fragments -/

theorem Composed.argsOf_eq_nil {columns : String → Prop} {fragment : Fragment}
    (h : Composed table columns False fragment) : argsOf fragment = [] := by
  induction h with
  | nil => rfl
  | @plain piece rest hPlain _ ih =>
      cases piece with
      | bind value => exact absurd hPlain Bool.false_ne_true
      | _ => exact ih
  | target _ _ _ ih => exact ih
  | column _ _ ih => exact ih
  | named _ ih => exact ih
  | bind hNone => exact hNone.elim

/-- The words between fragments hold no values. -/
theorem argsOf_joinFragments (w : Word) (parts : List Fragment) :
    argsOf (joinFragments w parts) = parts.flatMap argsOf := by
  induction parts with
  | nil => rfl
  | cons part others ih =>
      cases others with
      | nil => simp [joinFragments]
      | cons next others =>
          have hJoin : joinFragments w (part :: next :: others) =
              part ++ .word w :: joinFragments w (next :: others) := rfl
          rw [hJoin, args_append, argsOf_cons rfl, ih]
          rfl

/-- The values of a WHERE clause are those of its conditions. -/
theorem whereClause_args {filters : List Filter} {part : Fragment}
    (h : whereClause filters = .ok part) :
    ∃ parts, (Filter.conditions filters).mapM conditionFragment = .ok parts ∧
      argsOf part = parts.flatMap argsOf := by
  obtain ⟨parts, hParts, h⟩ := bind_eq_ok.1 h
  refine ⟨parts, hParts, ?_⟩
  cases parts with
  | nil =>
      rw [← pure_eq_ok.1 h]
      rfl
  | cons first others =>
      rw [← pure_eq_ok.1 h, argsOf_cons rfl, argsOf_joinFragments]

/-- Without its last filter, if that stands outside all groups, a WHERE clause
is built too, and its values come first in the whole clause. -/
theorem whereClause_of_concat {filters : List Filter} {f : Filter}
    (hAlone : f.isOr = false) {whole : Fragment}
    (h : whereClause (filters ++ [f]) = .ok whole) :
    ∃ part, whereClause filters = .ok part ∧ argsOf part <+: argsOf whole := by
  obtain ⟨parts, hParts, hArgs⟩ := whereClause_args h
  rw [Filter.conditions_concat filters hAlone, List.mapM_append] at hParts
  obtain ⟨front, hFront, hParts⟩ := bind_eq_ok.1 hParts
  obtain ⟨last, -, hParts⟩ := bind_eq_ok.1 hParts
  obtain ⟨part, hPart⟩ : ∃ part, whereClause filters = .ok part := by
    rw [whereClause, hFront]
    cases front with
    | nil => exact ⟨_, rfl⟩
    | cons first others => exact ⟨_, rfl⟩
  obtain ⟨same, hSame, hPartArgs⟩ := whereClause_args hPart
  rw [hFront, Except.ok.injEq] at hSame
  refine ⟨part, hPart, ?_⟩
  rw [hArgs, hPartArgs, ← hSame, ← pure_eq_ok.1 hParts, List.flatMap_append]
  exact List.prefix_append _ _

theorem argsOf_tablePiece {target : Piece} (h : tablePiece table = .ok target) :
    argsOf [target] = [] :=
  have hTarget : Composed table (fun _ => True) False [target] :=
    composed_tablePiece h
  hTarget.argsOf_eq_nil

theorem argsOf_groupClause {names : List String} {part : Fragment}
    (h : groupClause names = .ok part) : argsOf part = [] :=
  have hPart : Composed items (fun _ => True) False part :=
    composed_groupClause h fun _ _ _ _ => trivial
  hPart.argsOf_eq_nil

/-! ## Orders -/

/-- An entry is rendered in either direction or in none. -/
theorem orderEntry_direction {entry other : OrderBy}
    (hColumn : other.column = entry.column) (hNulls : other.nulls = entry.nulls)
    {part : Fragment} (h : orderEntry entry = .ok part) :
    ∃ part, orderEntry other = .ok part := by
  obtain ⟨nulls, hWords, h⟩ := bind_eq_ok.1 h
  obtain ⟨path, hPath, h⟩ := bind_eq_ok.1 h
  obtain ⟨column, hFragment, -⟩ := bind_eq_ok.1 h
  rw [← hNulls] at hWords
  rw [← hColumn] at hPath
  exact ⟨_, bind_eq_ok.2 ⟨nulls, hWords, bind_eq_ok.2 ⟨path, hPath,
    bind_eq_ok.2 ⟨column, hFragment, rfl⟩⟩⟩⟩

/-- An ORDER BY clause is built when each entry is one of another that is
built, direction aside. -/
theorem orderClause_of_entries {order others : List OrderBy} {part : Fragment}
    (h : orderClause order = .ok part)
    (hEntries : ∀ other ∈ others, ∃ entry ∈ order,
      other.column = entry.column ∧ other.nulls = entry.nulls) :
    ∃ part, orderClause others = .ok part := by
  have hBuilt : ∀ other ∈ others, ∃ part, orderEntry other = .ok part := by
    intro other hOther
    obtain ⟨entry, hEntry, hColumn, hNulls⟩ := hEntries other hOther
    unfold orderClause at h
    split at h
    · next hEmpty =>
        rw [List.isEmpty_iff.1 hEmpty] at hEntry
        exact absurd hEntry List.not_mem_nil
    · obtain ⟨parts, hParts, -⟩ := bind_eq_ok.1 h
      obtain ⟨front, back, rfl⟩ := List.append_of_mem hEntry
      obtain ⟨_, rendered, _, -, -, hRendered, -⟩ :=
        Result.exists_split_forall₂ (Result.mapM_eq_ok.1 hParts)
      exact orderEntry_direction hColumn hNulls hRendered
  obtain ⟨parts, hParts⟩ := Result.exists_mapM_eq_ok hBuilt
  unfold orderClause
  split
  · exact ⟨_, rfl⟩
  · rw [hParts]
    exact ⟨_, rfl⟩

/-- Without the cursor a request orders by the same keyset column or by
none. -/
theorem keysetOrder_uncursored (params : Params) :
    ∀ other ∈ keysetOrder { params with cursor := none },
      ∃ entry ∈ keysetOrder params,
        other.column = entry.column ∧ other.nulls = entry.nulls := by
  have hOrder : ∀ entry ∈ params.order, entry ∈ keysetOrder params := by
    intro entry hEntry
    unfold keysetOrder
    split
    · exact hEntry
    · split
      · exact hEntry
      · exact List.mem_append_left _ hEntry
  have hColumn : ({ params with cursor := none } : Params).keysetColumn =
      none ∨ ({ params with cursor := none } : Params).keysetColumn =
        params.keysetColumn := by
    unfold Params.keysetColumn
    cases params.cursorColumn with
    | none => exact Or.inl rfl
    | some column =>
        by_cases hEmpty : column = ""
        · left
          simp [hEmpty]
        · right
          simp [hEmpty]
  intro other hOther
  rcases hColumn with hNone | hSame
  · rw [keysetOrder, hNone] at hOther
    exact ⟨other, hOrder other hOther, rfl, rfl⟩
  · cases hKeyset : params.keysetColumn with
    | none =>
        rw [keysetOrder, hSame, hKeyset] at hOther
        exact ⟨other, hOrder other hOther, rfl, rfl⟩
    | some column =>
        rw [keysetOrder, hSame, hKeyset] at hOther
        simp only at hOther
        split at hOther
        · exact ⟨other, hOrder other hOther, rfl, rfl⟩
        · next hAny =>
            rcases List.mem_append.1 hOther with hHere | hLast
            · exact ⟨other, hOrder other hHere, rfl, rfl⟩
            · rw [List.mem_singleton.1 hLast]
              refine ⟨{ column, desc := params.keysetDesc }, ?_, rfl, rfl⟩
              rw [keysetOrder, hKeyset]
              simp only [if_neg hAny]
              simp

/-! ## The parts of a SELECT -/

/-- What the SELECT of a list request is put together from. -/
structure SelectParts (table : Table) (params : Params) where
  target : Piece
  list : Fragment
  filters : List Filter
  wherePart : Fragment
  groupPart : Fragment
  orderPart : Fragment
  target_eq : tablePiece table = .ok target
  list_eq : selectList params = .ok list
  filters_eq : keysetFilters params = .ok filters
  where_eq : whereClause filters = .ok wherePart
  group_eq : groupClause params.groupBy = .ok groupPart
  order_eq : orderClause (keysetOrder params) = .ok orderPart

namespace SelectParts

/-- What stands before the filters. -/
def lead (parts : SelectParts table params) : Fragment :=
  .word .select :: parts.list ++ [.word .fromTable, parts.target]

/-- The SELECT of its parts. -/
def statement (parts : SelectParts table params) : Statement :=
  ⟨parts.lead ++ parts.wherePart ++ parts.groupPart ++ parts.orderPart ++
    boundClause .limit params.limit ++ boundClause .offset params.offset⟩

theorem select_eq (parts : SelectParts table params) :
    select table params = .ok parts.statement :=
  bind_eq_ok.2 ⟨_, parts.target_eq, bind_eq_ok.2 ⟨_, parts.list_eq,
    bind_eq_ok.2 ⟨_, parts.filters_eq, bind_eq_ok.2 ⟨_, parts.where_eq,
      bind_eq_ok.2 ⟨_, parts.group_eq, bind_eq_ok.2 ⟨_, parts.order_eq,
        rfl⟩⟩⟩⟩⟩⟩

theorem exists_of_select (h : select table params = .ok s) :
    ∃ parts : SelectParts table params, parts.statement = s := by
  obtain ⟨target, hTarget, h⟩ := bind_eq_ok.1 h
  obtain ⟨list, hList, h⟩ := bind_eq_ok.1 h
  obtain ⟨filters, hFilters, h⟩ := bind_eq_ok.1 h
  obtain ⟨wherePart, hWhere, h⟩ := bind_eq_ok.1 h
  obtain ⟨groupPart, hGroup, h⟩ := bind_eq_ok.1 h
  obtain ⟨orderPart, hOrder, h⟩ := bind_eq_ok.1 h
  exact ⟨⟨target, list, filters, wherePart, groupPart, orderPart, hTarget,
    hList, hFilters, hWhere, hGroup, hOrder⟩, pure_eq_ok.1 h⟩

/-- What stands before the filters holds no values. -/
theorem argsOf_lead (parts : SelectParts table params) :
    argsOf parts.lead = [] := by
  have hList : Composed table (fun _ => True) False parts.list :=
    composed_selectList parts.list_eq fun _ _ _ _ => trivial
  rw [lead, args_append, argsOf_cons rfl, argsOf_cons rfl,
    hList.argsOf_eq_nil, argsOf_tablePiece parts.target_eq]
  rfl

/-- The values of the filters come first. -/
theorem args_wherePart_prefix (parts : SelectParts table params) :
    argsOf parts.wherePart <+: parts.statement.args := by
  rw [statement, Statement.args, args_append, args_append, args_append,
    args_append, args_append, parts.argsOf_lead, List.nil_append,
    List.append_assoc, List.append_assoc, List.append_assoc]
  exact List.prefix_append _ _

/-- Without the cursor the SELECT keeps all of its parts but the comparison
with the position, which stands last among the filters. -/
theorem exists_uncursored (parts : SelectParts table params) :
    ∃ other : SelectParts table { params with cursor := none },
      other.filters = params.filters ∧
      argsOf other.wherePart <+: argsOf parts.wherePart := by
  obtain ⟨orderPart, hOrder⟩ := orderClause_of_entries parts.order_eq
    (keysetOrder_uncursored params)
  have hFilters := parts.filters_eq
  have hWhere := parts.where_eq
  unfold keysetFilters at hFilters
  split at hFilters
  · rw [← pure_eq_ok.1 hFilters] at hWhere
    exact ⟨⟨parts.target, parts.list, params.filters, parts.wherePart,
      parts.groupPart, orderPart, parts.target_eq, parts.list_eq, rfl, hWhere,
      parts.group_eq, hOrder⟩, rfl, List.prefix_rfl⟩
  · obtain ⟨value, -, hFilters⟩ := bind_eq_ok.1 hFilters
    rw [← pure_eq_ok.1 hFilters] at hWhere
    obtain ⟨wherePart, hPart, hArgs⟩ := whereClause_of_concat rfl hWhere
    exact ⟨⟨parts.target, parts.list, params.filters, wherePart,
      parts.groupPart, orderPart, parts.target_eq, parts.list_eq, rfl, hPart,
      parts.group_eq, hOrder⟩, rfl, hArgs⟩

/-- Page bounds change none of the parts. -/
def unpaged (parts : SelectParts table { params with cursor := none }) :
    SelectParts table params.unpaged :=
  ⟨parts.target, parts.list, parts.filters, parts.wherePart, parts.groupPart,
    parts.orderPart, parts.target_eq, parts.list_eq, parts.filters_eq,
    parts.where_eq, parts.group_eq, parts.order_eq⟩

end SelectParts

/-! ## What a statement narrows its rows by -/

/-- The pieces of a statement before its WHERE clause. -/
def Statement.beforeWhere (s : Statement) : Fragment :=
  s.pieces.takeWhile (· != .word .whereAll)

/-- The WHERE clause of a statement, with the word that opens it. -/
def Statement.wherePart (s : Statement) : Fragment :=
  match s.clause? .whereAll with
  | some expression => .word .whereAll :: expression
  | none => []

/-- The WHERE clause as the text of the statement has it: its placeholders are
numbered after the values bound before it. -/
def Statement.whereText (s : Statement) : String :=
  textFrom (argsOf s.beforeWhere).length s.wherePart

/-- The values bound in the WHERE clause. -/
def Statement.whereArgs (s : Statement) : List Value := argsOf s.wherePart

/-- A statement is what stands before its WHERE clause, the clause, and what
stands after it. -/
theorem Statement.exists_pieces_eq (s : Statement) :
    ∃ rest, s.pieces = s.beforeWhere ++ s.wherePart ++ rest := by
  obtain ⟨pieces⟩ := s
  unfold beforeWhere wherePart clause?
  dsimp only
  induction pieces with
  | nil => exact ⟨[], rfl⟩
  | cons piece pieces ih =>
      by_cases hHere : piece = .word .whereAll
      · subst hHere
        refine ⟨pieces.dropWhile fun other => !other.opensClause, ?_⟩
        have hFound : (clausesOf (.word .whereAll :: pieces)).lookup .whereAll =
            some (pieces.takeWhile fun other => !other.opensClause) := rfl
        rw [List.takeWhile_cons_of_neg (by simp), hFound, List.nil_append,
          List.cons_append, List.takeWhile_append_dropWhile]
      · have hLater : (clausesOf (piece :: pieces)).lookup .whereAll =
            (clausesOf pieces).lookup .whereAll := by
          cases piece with
          | word w =>
              have hOther : (Word.whereAll == w) = false :=
                beq_false_of_ne fun hSame => hHere (congrArg _ hSame.symm)
              rw [clausesOf]
              split
              · rw [List.lookup_cons, hOther]
              · rfl
          | _ => rfl
        obtain ⟨rest, hRest⟩ := ih
        refine ⟨rest, ?_⟩
        have hKept : (piece != .word .whereAll) = true := bne_iff_ne.2 hHere
        rw [List.takeWhile_cons, hKept, hLater]
        exact congrArg (piece :: ·) hRest

/-- So the text and the values of the clause stand in one place of those of
the statement. -/
theorem Statement.exists_where (s : Statement) :
    ∃ before after, s.sql = before ++ s.whereText ++ after ∧
      s.whereArgs <:+: s.args := by
  obtain ⟨rest, hPieces⟩ := s.exists_pieces_eq
  refine ⟨textFrom 0 s.beforeWhere,
    textFrom (argsOf (s.beforeWhere ++ s.wherePart)).length rest, ?_, ?_⟩
  · apply String.toList_injective
    rw [toList_sql, hPieces, charsWith_append, charsWith_append]
    simp only [whereText, String.toList_append, toList_textFrom, Nat.zero_add]
  · rw [args, hPieces, args_append, args_append]
    exact List.infix_append _ _ _

section

variable {before wherePart after : Fragment}
  {first later : List (Word × Fragment)}

/-- Other clauses have no WHERE inside. -/
theorem MadeOf.whereAll_notMem (h : MadeOf before first)
    (hFirst : ∀ clause ∈ first, clause.1 ≠ .whereAll) :
    .word .whereAll ∉ before := by
  intro hMem
  rw [h.eq] at hMem
  obtain ⟨clause, hClause, hHere⟩ := List.mem_flatMap.1 hMem
  rcases List.mem_cons.1 hHere with hWord | hBody
  · exact hFirst clause hClause (Piece.word.inj hWord).symm
  · exact absurd (h.quiet clause hClause _ hBody) (by decide)

theorem MadeOf.whereClauses_cases (h : MadeOf wherePart
    (whereClauses wherePart)) :
    wherePart = [] ∨ ∃ expression,
      wherePart = .word .whereAll :: expression := by
  have hEq := h.eq
  unfold whereClauses at hEq
  split at hEq
  · exact Or.inr ⟨_, rfl⟩
  · exact Or.inl hEq

theorem lookup_whereAll_eq_none {clauses : List (Word × Fragment)}
    (h : ∀ clause ∈ clauses, clause.1 ≠ .whereAll) :
    clauses.lookup .whereAll = none := by
  rw [List.lookup_eq_none_iff]
  exact fun clause hClause => bne_iff_ne.2 (h clause hClause).symm

/-- A statement made with a WHERE clause between other clauses narrows its
rows by that clause. -/
theorem Statement.where_of_madeOf (hBefore : MadeOf before first)
    (hFirst : ∀ clause ∈ first, clause.1 ≠ .whereAll)
    (hWhere : MadeOf wherePart (whereClauses wherePart))
    (hAfter : MadeOf after later)
    (hLater : ∀ clause ∈ later, clause.1 ≠ .whereAll) {s : Statement}
    (hPieces : s.pieces = before ++ wherePart ++ after) :
    s.whereText = textFrom (argsOf before).length wherePart ∧
      s.whereArgs = argsOf wherePart := by
  have hClause : s.clause? .whereAll =
      (whereClauses wherePart).lookup .whereAll := by
    rw [Statement.clause?, hPieces,
      ((hBefore.append hWhere).append hAfter).clausesOf_eq, List.lookup_append,
      List.lookup_append, lookup_whereAll_eq_none hFirst,
      lookup_whereAll_eq_none hLater]
    simp
  rcases hWhere.whereClauses_cases with rfl | ⟨expression, rfl⟩
  · have hPart : s.wherePart = [] := by
      rw [Statement.wherePart, hClause]
      rfl
    rw [whereText, whereArgs, hPart]
    exact ⟨rfl, rfl⟩
  · have hPart : s.wherePart = .word .whereAll :: expression := by
      rw [Statement.wherePart, hClause]
      rfl
    have hLead : s.beforeWhere = before := by
      rw [beforeWhere, hPieces, List.append_assoc,
        List.takeWhile_append_of_pos, List.cons_append,
        List.takeWhile_cons_of_neg (by simp), List.append_nil]
      intro other hOther
      exact bne_iff_ne.2 fun hSame =>
        hBefore.whereAll_notMem hFirst (hSame ▸ hOther)
    rw [whereText, whereArgs, hLead, hPart]
    exact ⟨rfl, rfl⟩

end

/-! ## The statements of a list request -/

/-- What the SELECT of a list request narrows its rows by. -/
theorem SelectParts.where_statement (parts : SelectParts table params) :
    parts.statement.whereText = textFrom 0 parts.wherePart ∧
      parts.statement.whereArgs = argsOf parts.wherePart := by
  have hBefore := (MadeOf.one (w := .select) rfl
    (resultColumns?_selectList table parts.list_eq).1).append
      (.one (w := .fromTable) rfl (quiet_tablePiece parts.target_eq))
  have hAfter := (((madeOf_groupClause parts.group_eq).append
    (order?_orderClause parts.order_eq).1).append
      (madeOf_boundClause (w := .limit) rfl params.limit)).append
        (madeOf_boundClause (w := .offset) rfl params.offset)
  have hFirst : ∀ clause ∈ [(Word.select, parts.list)] ++
      [(.fromTable, [parts.target])], clause.1 ≠ .whereAll := by
    simp
  have hLater : ∀ clause ∈ groupClauses parts.groupPart ++
      orderClauses parts.orderPart ++ boundClauses .limit params.limit ++
        boundClauses .offset params.offset, clause.1 ≠ .whereAll := by
    intro clause hClause
    simp only [List.mem_append] at hClause
    rcases hClause with ((hGroup | hOrder) | hLimit) | hOffset
    · rw [groupClauses_eq _ clause hGroup]
      decide
    · rw [orderClauses_eq _ clause hOrder]
      decide
    · rw [boundClauses_eq _ _ clause hLimit]
      decide
    · rw [boundClauses_eq _ _ clause hOffset]
      decide
  have hWhere := Statement.where_of_madeOf hBefore hFirst
    (madeOf_whereClause parts.where_eq) hAfter hLater
    (s := parts.statement) (by simp [statement, lead])
  have hLead : argsOf (.word .select :: parts.list ++
      [.word .fromTable, parts.target]) = [] := parts.argsOf_lead
  rwa [hLead] at hWhere

/-- The COUNT narrows its rows by the filters of the request, and binds
nothing else. -/
theorem count_of_parts {target : Piece} {wherePart groupPart : Fragment}
    (hTarget : tablePiece table = .ok target)
    (hWhere : whereClause params.filters = .ok wherePart)
    (hGroup : groupClause params.groupBy = .ok groupPart) :
    ∃ counted, count table params = .ok counted ∧
      counted.whereText = textFrom 0 wherePart ∧
      counted.args = argsOf wherePart := by
  have hFrom := MadeOf.one (w := .fromTable) rfl (quiet_tablePiece hTarget)
  have hCount := MadeOf.one (w := .selectCount) rfl .nil
  have hNoTarget := argsOf_tablePiece hTarget
  by_cases hGroups : params.groupBy.isEmpty = true
  · obtain ⟨counted, hCounted, hPieces⟩ :
        ∃ counted, count table params = .ok counted ∧ counted.pieces =
          [.word .selectCount, .word .fromTable, target] ++ wherePart ++ [] :=
      ⟨_, bind_eq_ok.2 ⟨_, hTarget, bind_eq_ok.2 ⟨_, hWhere, if_pos hGroups⟩⟩,
        (List.append_nil _).symm⟩
    have hLead : argsOf [.word .selectCount, .word .fromTable, target] = [] :=
      hNoTarget
    have hNarrowed := Statement.where_of_madeOf (hCount.append hFrom) (by simp)
      (madeOf_whereClause hWhere) .nil (by simp) hPieces
    refine ⟨counted, hCounted, ?_, ?_⟩
    · rw [hNarrowed.1, List.singleton_append, hLead]
      rfl
    · rw [Statement.args, hPieces, List.append_nil, args_append, hLead,
        List.nil_append]
  · obtain ⟨counted, hCounted, hPieces⟩ :
        ∃ counted, count table params = .ok counted ∧ counted.pieces =
          [.word .selectCount, .word .fromTable, .word .openParen,
            .word .selectOne, .word .fromTable, target] ++ wherePart ++
            (groupPart ++ [.word .closeParen, .word .asName,
              .label groupedLabel]) := by
      refine ⟨_, bind_eq_ok.2 ⟨_, hTarget, bind_eq_ok.2 ⟨_, hWhere, ?_⟩⟩,
        List.append_assoc _ _ _⟩
      rw [if_neg hGroups]
      exact bind_eq_ok.2 ⟨_, hGroup, rfl⟩
    have hLead : argsOf [.word .selectCount, .word .fromTable, .word .openParen,
        .word .selectOne, .word .fromTable, target] = [] := hNoTarget
    have hOpen : MadeOf [.word .fromTable, .word .openParen]
        [(.fromTable, [.word .openParen])] := .one rfl (.one rfl)
    have hInner := ((hCount.append hOpen).append
      (.one (w := .selectOne) rfl .nil)).append hFrom
    -- The closing parenthesis and the name belong to the GROUP BY clause.
    obtain ⟨list, hAfter⟩ : ∃ list, MadeOf (groupPart ++ [.word .closeParen,
        .word .asName, .label groupedLabel]) [(.groupBy, list)] := by
      rw [groupClause, if_neg hGroups] at hGroup
      obtain ⟨list, hList, hGroup⟩ := bind_eq_ok.1 hGroup
      rw [← pure_eq_ok.1 hGroup]
      exact ⟨_, .one rfl ((quiet_columnList hList).append
        (.cons rfl (.cons rfl (.one rfl))))⟩
    have hNarrowed := Statement.where_of_madeOf hInner (by simp)
      (madeOf_whereClause hWhere) hAfter (by simp) hPieces
    refine ⟨counted, hCounted, ?_, ?_⟩
    · rw [hNarrowed.1]
      exact congrArg (fun args : List Value => textFrom args.length wherePart)
        hLead
    · rw [Statement.args, hPieces, args_append, args_append, args_append, hLead,
        argsOf_groupClause hGroup, List.nil_append, List.nil_append]
      exact List.append_nil _

/-- The totals of a list request describe the rows of its page. Whenever the
SELECT of the page is built, so are the COUNT, the plan and the SELECT without
the cursor. The COUNT narrows its rows by the same text and the same values as
that SELECT, binds no others, and those values come first in the SELECT of the
page. The plan is asked for the SELECT without page bounds and cursor. What is
neither a filter nor a group of the request makes no difference to the
COUNT. -/
theorem totals_match_page (table : Table) (params : Params) :
    (∀ s, select table params = .ok s →
      ∃ counted planned uncursored whole,
        count table params = .ok counted ∧
        explain table params = .ok planned ∧
        select table { params with cursor := none } = .ok uncursored ∧
        select table params.unpaged = .ok whole ∧
        counted.whereText = uncursored.whereText ∧
        counted.args = uncursored.whereArgs ∧
        counted.args <+: s.args ∧
        planned.sql = "EXPLAIN (FORMAT JSON) " ++ whole.sql ∧
        planned.args = whole.args) ∧
    ∀ other : Params, other.filters = params.filters →
      other.groupBy = params.groupBy →
      count table other = count table params := by
  refine ⟨fun s h => ?_, fun other hFilters hGroups => ?_⟩
  · obtain ⟨parts, rfl⟩ := SelectParts.exists_of_select h
    obtain ⟨uncursored, hFilters, hPrefix⟩ := parts.exists_uncursored
    have hWhere : whereClause params.filters = .ok uncursored.wherePart := by
      have hWhere := uncursored.where_eq
      rwa [hFilters] at hWhere
    obtain ⟨counted, hCounted, hText, hArgs⟩ :=
      count_of_parts parts.target_eq hWhere parts.group_eq
    obtain ⟨hWhereText, hWhereArgs⟩ := uncursored.where_statement
    have hWhole := uncursored.unpaged.select_eq
    refine ⟨counted, _, _, _, hCounted, bind_eq_ok.2 ⟨_, hWhole, rfl⟩,
      uncursored.select_eq, hWhole, ?_, ?_, ?_, ?_, ?_⟩
    · rw [hText, hWhereText]
    · rw [hArgs, hWhereArgs]
    · rw [hArgs]
      exact hPrefix.trans parts.args_wherePart_prefix
    · rfl
    · rfl
  · rw [count, count, hFilters, hGroups]

/-- Large items after a position, a page of them, one for each size. -/
def largeItems : Params where
  select := ["id"]
  filters := [{
    column := "data->>size"
    operator := some .gt
    value := .int 3 }]
  groupBy := ["id"]
  cursor := some { column := "id", value := .int 7 }
  limit := some 5
  offset := some 10

set_option maxRecDepth 4000 in
theorem totals_match_page_largeItems :
    ∃ s counted, select items largeItems = .ok s ∧
      s.args = [.int 3, .int 7, .int 5, .int 10] ∧
      count items largeItems = .ok counted ∧
      counted.whereText = " WHERE (\"data\"->>'size')::numeric > $1" ∧
      counted.args <+: s.args ∧
      count items { largeItems with select := [], cursor := none } =
        .ok counted := by
  obtain ⟨s, hSelect, hArgs⟩ : ∃ s, select items largeItems = .ok s ∧
      s.args = [.int 3, .int 7, .int 5, .int 10] := ⟨_, rfl, rfl⟩
  obtain ⟨hTotals, hOther⟩ := totals_match_page items largeItems
  obtain ⟨counted, -, -, -, hCounted, -, -, -, -, -, hPrefix, -, -⟩ :=
    hTotals s hSelect
  refine ⟨s, counted, hSelect, hArgs, hCounted, ?_, hPrefix, ?_⟩
  · obtain rfl := Except.ok.inj hCounted
    rfl
  · exact (hOther _ rfl rfl).trans hCounted

end Sql
end TableGate
