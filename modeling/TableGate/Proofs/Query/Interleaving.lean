import TableGate.Proofs.Query.Parts

/-!
# Interleaved items

The items of a query string are read in several passes: the filters, the
groups, and the first item of every other reserved key. So how the items of one
pass lie between those of another does not matter, and neither does what
follows the first item of such a key. Within one pass the order is kept: first
come the filters, one for each item that is one, then the filters of the
groups.

## Main results

* `compile_congr`: what the result depends on.
* `interleaving_irrelevant`: how items are interleaved does not change the
  request or why it is refused, and no filter is lost or merged.
-/

namespace TableGate.Items

open Result (bind_eq_ok mapM_eq_ok pure_eq_ok)

variable {items others : Items}

/-- The items that are filters. -/
def plain (items : Items) : Items :=
  items.filter fun item => !reserved.contains item.1

/-- The items that are groups. -/
def grouped (items : Items) : Items :=
  items.filter fun item => item.1 == "or" || item.1 == "and"

/-- Items that differ in how filters, groups and other clauses lie between each
other, and in what follows the first item of a clause. -/
structure SameRequest (items others : Items) : Prop where
  plain : items.plain = others.plain
  grouped : items.grouped = others.grouped
  first : ∀ key ∈ reserved, key ≠ "or" → key ≠ "and" →
    items.first? key = others.first? key

/-- The groups of a query string are those of the items that are groups. -/
theorem filterMap_group? (items : Items) :
    items.filterMap group? = items.grouped.filterMap group? := by
  rw [grouped, List.filterMap_filter]
  refine List.filterMap_congr fun item _ => ?_
  unfold group?
  split_ifs with hOr hAnd hNeither hNeither
  all_goals simp_all

/-- An item that is a group stands for one. -/
theorem exists_group? {item : String × String} (h : item ∈ items.grouped) :
    ∃ connective, group? item = some (connective, item.2) := by
  have hKey := (List.mem_filter.1 h).2
  rw [Bool.or_eq_true, beq_iff_eq, beq_iff_eq] at hKey
  unfold group?
  split_ifs with hOr hAnd
  · exact ⟨_, rfl⟩
  · exact ⟨_, rfl⟩
  · exact absurd hKey (not_or.2 ⟨hOr, hAnd⟩)

/-- What is compiled depends on the filters, the groups, and the first value of
every other reserved key. -/
theorem compile_congr (h : items.SameRequest others) :
    items.compile = others.compile := by
  have hClause : ∀ {α : Type} {key : String} (absent : α)
      (readClause : String → Result α), key ∈ reserved → key ≠ "or" →
        key ≠ "and" → items.clause key absent readClause =
          others.clause key absent readClause := by
    intro α key absent readClause hKey hOr hAnd
    rw [clause, clause, h.first key hKey hOr hAnd]
  have hPlain : (items.filter fun item => !reserved.contains item.1) =
      others.filter fun item => !reserved.contains item.1 := h.plain
  unfold compile
  rw [hClause {} Selection.read (by decide) (by decide) (by decide), hPlain,
    filterMap_group? items, h.grouped, ← filterMap_group? others,
    h.first "cursor_column" (by decide) (by decide) (by decide),
    hClause [] OrderBy.read (by decide) (by decide) (by decide),
    hClause none (readBound "limit") (by decide) (by decide) (by decide),
    hClause none (readBound "offset") (by decide) (by decide) (by decide),
    hClause none CountType.read (by decide) (by decide) (by decide),
    h.first "cursor" (by decide) (by decide) (by decide),
    h.first "group_by" (by decide) (by decide) (by decide)]

/-- The filters that an item which is a group was read to, from some number
on. -/
def ReadAsGroup (item : String × String) (part : List Filter) : Prop :=
  ∃ connective first last, group? item = some (connective, item.2) ∧
    (Part.group connective item.2).read.run.run first = (.ok part, last)

/-- What is related to the groups of items is related to the items, if all of
them are groups. -/
theorem forall₂_of_filterMap_group? {β : Type}
    {R : Connective × String → β → Prop} {ys : List β}
    (hGroups : ∀ item ∈ items, ∃ connective,
      group? item = some (connective, item.2))
    (h : List.Forall₂ R (items.filterMap group?) ys) :
    List.Forall₂ (fun item y => ∃ connective,
      group? item = some (connective, item.2) ∧ R (connective, item.2) y)
      items ys := by
  induction items generalizing ys with
  | nil =>
      cases h
      exact .nil
  | cons item items ih =>
      obtain ⟨⟨connective, hItem⟩, hOthers⟩ := List.forall_mem_cons.1 hGroups
      rw [List.filterMap_cons_some hItem] at h
      cases h with
      | cons hFirst hRest =>
          exact .cons ⟨connective, hItem, hFirst⟩ (ih hOthers hRest)

/-- Groups are read item by item. -/
theorem exists_parts_of_readGroups {filters : List Filter} {next after : Int}
    (h : (readGroups (items.filterMap group?)).run.run next =
      (.ok filters, after)) :
    ∃ parts, filters = parts.flatten ∧
      List.Forall₂ ReadAsGroup items.grouped parts := by
  obtain ⟨parts, m, hRun, hEnd⟩ := Numbering.run_bind_eq_ok.1 h
  cases hEnd
  rw [filterMap_group?] at hRun
  refine ⟨parts, rfl, (forall₂_of_filterMap_group? (fun item => exists_group?)
    (Numbering.forall₂_of_run_mapM hRun)).imp ?_⟩
  rintro item part ⟨connective, hGroup, first, last, hRead⟩
  exact ⟨connective, first, last, hGroup, hRead⟩

/-- How the items of a query string are interleaved, and what follows the first
item of a clause, changes neither the request nor why it is refused. A request
has one filter for each item that is one, in their order, and after them the
filters of the groups in theirs. -/
theorem interleaving_irrelevant :
    (∀ items others : Items, items.SameRequest others →
      items.compile = others.compile) ∧
    ∀ (items : Items) (params : Params), items.compile = .ok params →
      ∃ filters parts, params.filters = filters ++ parts.flatten ∧
        List.Forall₂ (fun item f => readFilter item.1 item.2 = .ok f)
          items.plain filters ∧
        List.Forall₂ ReadAsGroup items.grouped parts := by
  refine ⟨fun _ _ => compile_congr, fun items params h => ?_⟩
  obtain ⟨selection, -, h⟩ := bind_eq_ok.1 h
  obtain ⟨filters, hFilters, h⟩ := bind_eq_ok.1 h
  obtain ⟨grouped, hGrouped, h⟩ := bind_eq_ok.1 h
  obtain ⟨column, -, h⟩ := bind_eq_ok.1 h
  obtain ⟨order, -, h⟩ := bind_eq_ok.1 h
  obtain ⟨limit, -, h⟩ := bind_eq_ok.1 h
  obtain ⟨offset, -, h⟩ := bind_eq_ok.1 h
  obtain ⟨count, -, h⟩ := bind_eq_ok.1 h
  obtain ⟨cursor, -, h⟩ := bind_eq_ok.1 h
  obtain rfl := pure_eq_ok.1 h
  obtain ⟨parts, rfl, hParts⟩ :=
    exists_parts_of_readGroups (Prod.ext hGrouped rfl)
  exact ⟨filters, parts, rfl, mapM_eq_ok.1 hFilters, hParts⟩

/-- Filters, groups and clauses in one order. -/
def inOneOrder : Items :=
  [("limit", "10"), ("a", "eq.1"), ("or", "(b.eq.2,c.eq.3)"), ("a.lt", "5"),
    ("select", "a,b"), ("and", "(or(d.eq.4))"), ("a", "eq.1")]

/-- The same items in another order, with more after the clauses. -/
def inOtherOrder : Items :=
  [("or", "(b.eq.2,c.eq.3)"), ("and", "(or(d.eq.4))"), ("select", "a,b"),
    ("a", "eq.1"), ("a.lt", "5"), ("select", "c"), ("a", "eq.1"),
    ("limit", "10"), ("limit", "none")]

/-- Both orders are one request, with a filter for each of the three items that
are filters, although two of them are alike. -/
theorem interleaving_irrelevant_mixed :
    inOneOrder.SameRequest inOtherOrder ∧
      inOneOrder.compile = inOtherOrder.compile ∧
      ∃ params, inOneOrder.compile = .ok params ∧
        params.filters.map (·.column) = ["a", "a", "a", "b", "c", "d"] ∧
        params.filters.map (·.group) = [0, 0, 0, 1, 1, 2] ∧
        ∃ (filters : List Filter) (parts : List (List Filter)),
          params.filters = filters ++ parts.flatten ∧
            filters.length = 3 ∧ parts.length = 2 := by
  have hSame : inOneOrder.SameRequest inOtherOrder :=
    ⟨by decide +kernel, by decide +kernel, by decide +kernel⟩
  have hCompile : inOneOrder.compile = .ok {
      select := ["a", "b"]
      limit := some 10
      filters := [
        ⟨"a", some .eq, .text "1", false, 0⟩,
        ⟨"a", some .lt, .text "5", false, 0⟩,
        ⟨"a", some .eq, .text "1", false, 0⟩,
        ⟨"b", some .eq, .text "2", true, 1⟩,
        ⟨"c", some .eq, .text "3", true, 1⟩,
        ⟨"d", some .eq, .text "4", true, 2⟩] } := rfl
  obtain ⟨filters, parts, hFilters, hPlain, hGrouped⟩ :=
    interleaving_irrelevant.2 _ _ hCompile
  exact ⟨hSame, interleaving_irrelevant.1 _ _ hSame, _, hCompile, rfl, rfl,
    filters, parts, hFilters, hPlain.length_eq.symm.trans (by decide +kernel),
    hGrouped.length_eq.symm.trans (by decide +kernel)⟩

end TableGate.Items
