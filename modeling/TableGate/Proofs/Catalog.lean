import Mathlib.Data.List.Basic
import Mathlib.Data.List.Induction
import TableGate.Table

/-!
# The catalog as a table of addresses

A table is asked for by its address, a schema and a name. The catalog keeps it
under one text, the two with a dot between them, so what it answers at an
address is the last table that was kept under the text of that address. As
long as the two agree the catalog is exact: it holds each address once, where
it came first, with the table that came last.

The text of an address tells where the schema ends only if there is one dot in
it. `a.b` with `c` and `a` with `b.c` are kept under one text, and one of their
tables is served in the place of the other.

## Main results

* `get?_ofList`, `map_ofList`: what the catalog of a list holds, and in which
  order.
* `lookups_exact_iff`: at which addresses and for which lists the catalog is
  exact, and that it is so throughout exactly if no name has a dot.
-/

namespace TableGate

/-- What a table is asked for by: its schema and its name. -/
def Table.address (table : Table) : String × String :=
  (table.schema, table.name)

namespace Catalog

/-- The text that the tables of an address are kept under. -/
def keyOf (address : String × String) : String :=
  address.1 ++ "." ++ address.2

theorem key_eq (table : Table) : table.key = keyOf table.address := rfl

/-- The last of the tables of an address. -/
def lastAt? (tables : List Table) (address : String × String) : Option Table :=
  (tables.filter fun table => table.address = address).getLast?

/-- The last of the tables that are kept under a text. -/
def lastUnder? (tables : List Table) (key : String) : Option Table :=
  (tables.filter fun table => table.key = key).getLast?

/-! ## Adding a table -/

variable {catalog : Catalog} {table other : Table} {tables : List Table}
  {schema name : String}

theorem ofList_concat (tables : List Table) (table : Table) :
    ofList (tables ++ [table]) = (ofList tables).insert table := by
  rw [ofList, List.foldl_append]
  rfl

/-- The table that stands in the place of another one after one was added. -/
def replaced (table other : Table) : Table :=
  if other.key == table.key then table else other

theorem key_replaced (table other : Table) :
    (replaced table other).key = other.key := by
  unfold replaced
  split
  · next hSame => exact (beq_iff_eq.1 hSame).symm
  · rfl

/-- Adding a table either replaces those that are kept under its text or comes
to nothing there. -/
theorem tables_insert (catalog : Catalog) (table : Table) :
    ((∃ other ∈ catalog.tables, other.key = table.key) ∧
      (catalog.insert table).tables = catalog.tables.map (replaced table)) ∨
    ((∀ other ∈ catalog.tables, other.key ≠ table.key) ∧
      (catalog.insert table).tables = catalog.tables ++ [table]) := by
  unfold insert
  split
  · next hAny =>
      obtain ⟨other, hOther, hSame⟩ := List.any_eq_true.1 hAny
      exact .inl ⟨⟨other, hOther, beq_iff_eq.1 hSame⟩, rfl⟩
  · next hNone =>
      refine .inr ⟨fun other hOther hSame => hNone ?_, rfl⟩
      exact List.any_eq_true.2 ⟨other, hOther, beq_iff_eq.2 hSame⟩

/-- A table that is added is found under its own text, and nothing changes
under any other. -/
theorem get?_insert : (catalog.insert table).get? schema name =
    if table.key = keyOf (schema, name) then some table
    else catalog.get? schema name := by
  have hKey : (schema ++ "." ++ name) = keyOf (schema, name) := rfl
  unfold get?
  rw [hKey]
  generalize keyOf (schema, name) = key
  rcases tables_insert catalog table with
    ⟨⟨old, hOld, hSame⟩, hTables⟩ | ⟨hNone, hTables⟩
  · have hUnder : (fun other : Table => other.key == key) ∘ replaced table =
        fun other => other.key == key :=
      funext fun other => by rw [Function.comp_apply, key_replaced]
    rw [hTables, List.find?_map, hUnder]
    cases hFound : catalog.tables.find? fun other => other.key == key with
    | none =>
        have hOther : table.key ≠ key := fun hHere =>
          List.find?_eq_none.1 hFound old hOld
            (beq_iff_eq.2 (hSame.trans hHere))
        rw [if_neg hOther]
        rfl
    | some found =>
        have hFoundKey : found.key = key := by
          simpa using List.find?_some hFound
        rw [Option.map_some, replaced, hFoundKey]
        by_cases hHere : table.key = key
        · rw [if_pos hHere, if_pos (beq_iff_eq.2 hHere.symm)]
        · rw [if_neg hHere, if_neg fun hBack =>
            hHere (beq_iff_eq.1 hBack).symm]
  · rw [hTables, List.find?_append]
    by_cases hHere : table.key = key
    · have hAbsent : (catalog.tables.find? fun other => other.key == key) =
          none :=
        List.find?_eq_none.2 fun other hOther hSame =>
          hNone other hOther ((beq_iff_eq.1 hSame).trans hHere.symm)
      rw [if_pos hHere, hAbsent, Option.none_or,
        List.find?_cons_of_pos (by simpa using hHere)]
    · rw [if_neg hHere,
        List.find?_cons_of_neg (by simpa using hHere), List.find?_nil,
        Option.or_none]

theorem mem_insert (h : other ∈ (catalog.insert table).tables) :
    other = table ∨ other ∈ catalog.tables ∧ other.key ≠ table.key := by
  rcases tables_insert catalog table with ⟨-, hTables⟩ | ⟨hNone, hTables⟩
  · rw [hTables] at h
    obtain ⟨old, hOld, rfl⟩ := List.mem_map.1 h
    unfold replaced
    split
    · exact .inl rfl
    · next hOther =>
        exact .inr ⟨hOld, fun hSame => hOther (beq_iff_eq.2 hSame)⟩
  · rw [hTables] at h
    rcases List.mem_append.1 h with hOld | hNew
    · exact .inr ⟨hOld, hNone other hOld⟩
    · exact .inl (List.mem_singleton.1 hNew)

/-- What the tables of a catalog are told apart by keeps its order; what is
new comes last. -/
theorem map_insert {κ : Type} [BEq κ] [LawfulBEq κ] {f : Table → κ}
    (h : ∀ other ∈ catalog.tables, other.key = table.key ↔ f other = f table) :
    (catalog.insert table).tables.map f =
      if f table ∈ catalog.tables.map f then catalog.tables.map f
      else catalog.tables.map f ++ [f table] := by
  rcases tables_insert catalog table with
    ⟨⟨old, hOld, hSame⟩, hTables⟩ | ⟨hNone, hTables⟩
  · have hMem : f table ∈ catalog.tables.map f := by
      rw [← (h old hOld).1 hSame]
      exact List.mem_map_of_mem hOld
    rw [hTables, if_pos hMem, List.map_map]
    refine List.map_congr_left fun other hOther => ?_
    rw [Function.comp_apply, replaced]
    split
    · next hKey => exact ((h other hOther).1 (beq_iff_eq.1 hKey)).symm
    · rfl
  · have hNew : f table ∉ catalog.tables.map f := by
      intro hMem
      obtain ⟨other, hOther, hSame⟩ := List.mem_map.1 hMem
      exact hNone other hOther ((h other hOther).2 hSame)
    rw [hTables, if_neg hNew, List.map_append, List.map_cons, List.map_nil]

/-! ## The catalog of a list -/

theorem eraseDups_concat {κ : Type} [BEq κ] [LawfulBEq κ] (xs : List κ)
    (x : κ) : (xs ++ [x]).eraseDups =
      if x ∈ xs then xs.eraseDups else xs.eraseDups ++ [x] := by
  rw [List.eraseDups_append, List.removeAll]
  split
  · next hMem =>
      rw [List.filter_cons_of_neg (by simpa using hMem), List.filter_nil]
      exact List.append_nil _
  · next hNew =>
      rw [List.filter_cons_of_pos (by simpa using hNew), List.filter_nil]
      rfl

theorem nodup_eraseDups {κ : Type} [BEq κ] [LawfulBEq κ] (xs : List κ) :
    xs.eraseDups.Nodup := by
  induction xs using List.reverseRecOn with
  | nil => exact List.nodup_nil
  | append_singleton xs x ih =>
      rw [eraseDups_concat]
      split
      · exact ih
      · next hNew =>
          refine List.nodup_append.2 ⟨ih, List.pairwise_singleton _ x, ?_⟩
          rintro y hy _ hx rfl
          rw [List.mem_singleton.1 hx, List.mem_eraseDups] at hy
          exact hNew hy

theorem mem_of_mem_ofList (h : other ∈ (ofList tables).tables) :
    other ∈ tables := by
  induction tables using List.reverseRecOn with
  | nil => exact h
  | append_singleton tables table ih =>
      rw [ofList_concat] at h
      rcases mem_insert h with rfl | ⟨hOld, -⟩
      · exact List.mem_append_right _ List.mem_cons_self
      · exact List.mem_append_left _ (ih hOld)

/-- At an address the catalog answers with the last table that is kept under
its text. -/
theorem get?_ofList : (ofList tables).get? schema name =
    lastUnder? tables (keyOf (schema, name)) := by
  induction tables using List.reverseRecOn with
  | nil => rfl
  | append_singleton tables table ih =>
      rw [ofList_concat, get?_insert, lastUnder?, List.filter_append,
        List.getLast?_append, ih]
      split
      · next hHere =>
          rw [List.filter_cons_of_pos (by simpa using hHere)]
          rfl
      · next hOther =>
          rw [List.filter_cons_of_neg (by simpa using hOther)]
          rfl

/-- A table of the catalog is the one that is found under its text. -/
theorem lastUnder?_of_mem (h : other ∈ (ofList tables).tables) :
    lastUnder? tables other.key = some other := by
  have hGet : (ofList tables).get? other.schema other.name = some other := by
    induction tables using List.reverseRecOn with
    | nil => exact absurd h List.not_mem_nil
    | append_singleton tables table ih =>
        rw [ofList_concat] at h ⊢
        rw [get?_insert]
        rcases mem_insert h with rfl | ⟨hOld, hKey⟩
        · exact if_pos rfl
        · exact (if_neg fun hSame => hKey hSame.symm).trans (ih hOld)
  rw [← hGet, get?_ofList]
  rfl

/-- What tables are told apart by just as by their texts stands in the catalog
once, in the order in which it came first. -/
theorem map_ofList {κ : Type} [BEq κ] [LawfulBEq κ] {f : Table → κ}
    (h : ∀ a ∈ tables, ∀ b ∈ tables, a.key = b.key ↔ f a = f b) :
    (ofList tables).tables.map f = (tables.map f).eraseDups := by
  induction tables using List.reverseRecOn with
  | nil => rfl
  | append_singleton tables table ih =>
      have hOld := ih fun a ha b hb => h a (List.mem_append_left _ ha) b
        (List.mem_append_left _ hb)
      have hNew : ∀ other ∈ (ofList tables).tables,
          other.key = table.key ↔ f other = f table := fun other hOther =>
        h other (List.mem_append_left _ (mem_of_mem_ofList hOther)) table
          (List.mem_append_right _ List.mem_cons_self)
      rw [ofList_concat, map_insert hNew, hOld, List.map_append, List.map_cons,
        List.map_nil, eraseDups_concat]
      simp only [List.mem_eraseDups]

/-! ## Addresses -/

theorem keyOf_chars (address : String × String) :
    (keyOf address).toList = address.1.toList ++ '.' :: address.2.toList := by
  rw [keyOf, String.toList_append, String.toList_append, List.append_assoc]
  rfl

/-- An address whose parts have no dot. -/
def Undotted (address : String × String) : Prop :=
  '.' ∉ address.1.toList ∧ '.' ∉ address.2.toList

/-- The text of an address without further dots is that of no other address. -/
theorem eq_of_keyOf_eq {a b : String × String} (h : Undotted a)
    (hSame : keyOf b = keyOf a) : b = a := by
  have hCut : Text.cut? '.' (keyOf a).toList =
      some (a.1.toList, a.2.toList) :=
    Text.cut?_eq_some_iff.2 ⟨keyOf_chars a, h.1⟩
  have hFirst : '.' ∉ b.1.toList := by
    intro hDot
    obtain ⟨start, rest, hStart, hNone⟩ := List.eq_append_cons_of_mem hDot
    have hOther : Text.cut? '.' (keyOf a).toList =
        some (start, rest ++ '.' :: b.2.toList) := by
      refine Text.cut?_eq_some_iff.2 ⟨?_, hNone⟩
      rw [← hSame, keyOf_chars, hStart, List.append_assoc, List.cons_append]
    rw [hCut] at hOther
    have hRest := (Prod.mk.inj (Option.some.inj hOther)).2
    exact h.2 (by rw [hRest]; simp)
  have hBoth : Text.cut? '.' (keyOf a).toList =
      some (b.1.toList, b.2.toList) :=
    Text.cut?_eq_some_iff.2 ⟨hSame ▸ keyOf_chars b, hFirst⟩
  rw [hCut] at hBoth
  obtain ⟨hSchema, hName⟩ := Prod.mk.inj (Option.some.inj hBoth)
  exact Prod.ext (String.toList_inj.1 hSchema.symm)
    (String.toList_inj.1 hName.symm)

/-- The text of an address with further dots is that of another one, whose
schema ends at another dot. -/
theorem exists_keyOf_eq {a : String × String} (h : ¬Undotted a) :
    ∃ b, b ≠ a ∧ keyOf b = keyOf a := by
  obtain ⟨schema, name⟩ := a
  have hOther : ∀ first second : List Char,
      first.length ≠ schema.toList.length →
      first ++ '.' :: second = schema.toList ++ '.' :: name.toList →
      ∃ b, b ≠ (schema, name) ∧ keyOf b = keyOf (schema, name) := by
    intro first second hLength hText
    refine ⟨(.ofList first, .ofList second), ?_, ?_⟩
    · intro hSame
      refine hLength ?_
      rw [← (Prod.mk.inj hSame).1, String.toList_ofList]
    · rw [← String.toList_inj, keyOf_chars, keyOf_chars,
        String.toList_ofList, String.toList_ofList]
      exact hText
  rw [Undotted, not_and_or, not_not, not_not] at h
  rcases h with hDot | hDot
  · obtain ⟨start, rest, hSchema⟩ := List.append_of_mem hDot
    dsimp only at hSchema
    refine hOther start (rest ++ '.' :: name.toList) ?_ ?_
    · rw [hSchema, List.length_append, List.length_cons]
      omega
    · rw [hSchema, List.append_assoc, List.cons_append]
  · obtain ⟨start, rest, hName⟩ := List.append_of_mem hDot
    dsimp only at hName
    refine hOther (schema.toList ++ '.' :: start) rest ?_ ?_
    · rw [List.length_append, List.length_cons]
      omega
    · rw [hName, List.append_assoc, List.cons_append]

/-! ## Exactness -/

/-- At an address the catalog of a list answers with the last table of that
address in the list, and refuses exactly if there is none. -/
structure ExactAt (tables : List Table) (schema name : String) : Prop where
  found : (ofList tables).get? schema name = lastAt? tables (schema, name)
  answered : ((ofList tables).get? schema name).isSome ↔
    ∃ table ∈ tables, table.schema = schema ∧ table.name = name
  refused : ∀ e, (ofList tables).resolve schema name = .error e ↔
    e = .tableNotFound schema name ∧
      ¬∃ table ∈ tables, table.schema = schema ∧ table.name = name

/-- The catalog of a list holds each address of the list once, in the order in
which it comes first, with its last table. -/
structure HoldsEach (tables : List Table) : Prop where
  order : (ofList tables).tables.map Table.address =
    (tables.map Table.address).eraseDups
  once : ((ofList tables).tables.map Table.address).Nodup
  last : ∀ table ∈ (ofList tables).tables,
    lastAt? tables table.address = some table

/-- The last table under the text of an address is one of that address. -/
def OwnsKey (tables : List Table) (schema name : String) : Prop :=
  ∀ table, lastUnder? tables (keyOf (schema, name)) = some table →
    table.address = (schema, name)

/-- No two addresses of the list have one text. -/
def Apart (tables : List Table) : Prop :=
  ∀ a ∈ tables, ∀ b ∈ tables, a.key = b.key → a.address = b.address

theorem lastUnder?_eq_some {key : String}
    (h : lastUnder? tables key = some table) :
    table ∈ tables ∧ table.key = key := by
  obtain ⟨hMem, hKey⟩ := List.mem_filter.1 (List.mem_of_getLast? h)
  exact ⟨hMem, of_decide_eq_true hKey⟩

theorem exists_lastUnder? (h : table ∈ tables) :
    ∃ last, lastUnder? tables table.key = some last := by
  have hSome : (tables.filter fun other => other.key = table.key) ≠ [] :=
    List.ne_nil_of_mem (List.mem_filter.2 ⟨h, decide_eq_true rfl⟩)
  exact ⟨_, List.getLast?_eq_some_getLast hSome⟩

theorem isSome_lastAt?_iff :
    (lastAt? tables (schema, name)).isSome ↔
      ∃ table ∈ tables, table.schema = schema ∧ table.name = name := by
  rw [lastAt?, List.getLast?_isSome, Ne, List.filter_eq_nil_iff]
  simp [Table.address]

/-- The tables of an address are among those that are kept under its text, so
the last of these is the last of the address if it is one of them. -/
theorem lastUnder?_eq_lastAt? (h : OwnsKey tables schema name) :
    lastUnder? tables (keyOf (schema, name)) =
      lastAt? tables (schema, name) := by
  have hAmong : tables.filter (fun table => table.address = (schema, name)) =
      (tables.filter fun table => table.key = keyOf (schema, name)).filter
        fun table => table.address = (schema, name) := by
    rw [List.filter_filter]
    refine List.filter_congr fun table _ => ?_
    rw [← Bool.decide_and, decide_eq_decide]
    exact ⟨fun hHere => ⟨hHere, by rw [key_eq, hHere]⟩, And.left⟩
  rw [lastAt?, hAmong]
  cases hLast : lastUnder? tables (keyOf (schema, name)) with
  | none =>
      rw [lastUnder?, List.getLast?_eq_none_iff] at hLast
      rw [hLast]
      rfl
  | some last =>
      have hOwn := h last hLast
      obtain ⟨before, hBefore⟩ := List.getLast?_eq_some_iff.1 hLast
      rw [hBefore, List.filter_append,
        List.filter_cons_of_pos (by simpa using hOwn), List.filter_nil,
        List.getLast?_concat]

theorem exactAt_iff : ExactAt tables schema name ↔
    OwnsKey tables schema name := by
  constructor
  · intro h last hLast
    rw [← get?_ofList, h.found] at hLast
    exact of_decide_eq_true (List.mem_filter.1 (List.mem_of_getLast? hLast)).2
  · intro h
    have hFound : (ofList tables).get? schema name =
        lastAt? tables (schema, name) :=
      get?_ofList.trans (lastUnder?_eq_lastAt? h)
    refine ⟨hFound, by rw [hFound, isSome_lastAt?_iff], fun e => ?_⟩
    rw [← isSome_lastAt?_iff, resolve, hFound]
    cases lastAt? tables (schema, name) with
    | none => simp [eq_comm]
    | some table => simp

theorem holdsEach_iff : HoldsEach tables ↔ Apart tables := by
  constructor
  · intro h a ha b hb hSame
    have hHeld : ∀ table ∈ tables, ∃ held ∈ (ofList tables).tables,
        held.address = table.address := by
      intro table hTable
      refine List.mem_map.1 ?_
      rw [h.order, List.mem_eraseDups]
      exact List.mem_map_of_mem hTable
    obtain ⟨heldA, hHeldA, hA⟩ := hHeld a ha
    obtain ⟨heldB, hHeldB, hB⟩ := hHeld b hb
    have hKeys : heldA.key = heldB.key := by
      rw [key_eq, hA, ← key_eq, hSame, key_eq, ← hB, ← key_eq]
    have hFound := lastUnder?_of_mem hHeldA
    rw [hKeys, lastUnder?_of_mem hHeldB] at hFound
    rw [← hA, ← hB, Option.some.inj hFound]
  · intro h
    have hOrder : (ofList tables).tables.map Table.address =
        (tables.map Table.address).eraseDups :=
      map_ofList fun a ha b hb =>
        ⟨h a ha b hb, fun hSame => by rw [key_eq, hSame, ← key_eq]⟩
    refine ⟨hOrder, hOrder ▸ nodup_eraseDups _, fun table hTable => ?_⟩
    have hOwn : OwnsKey tables table.schema table.name := by
      intro last hLast
      obtain ⟨hMem, hKey⟩ := lastUnder?_eq_some hLast
      exact h last hMem table (mem_of_mem_ofList hTable) hKey
    exact (lastUnder?_eq_lastAt? hOwn).symm.trans (lastUnder?_of_mem hTable)

/-- The catalog of a list is exact at an address unless the last table that is
kept under its text has another address, and it holds each address once unless
two of them have one text. It is exact throughout exactly if there is no dot in
any name of the list. -/
theorem lookups_exact_iff (tables : List Table) :
    (∀ schema name : String, ExactAt tables schema name ↔
      OwnsKey tables schema name) ∧
    (HoldsEach tables ↔ Apart tables) ∧
    ((∀ schema name : String, ExactAt tables schema name) ∧ HoldsEach tables ↔
      ∀ table ∈ tables, Undotted table.address) := by
  refine ⟨fun _ _ => exactAt_iff, holdsEach_iff, fun ⟨h, _⟩ table hTable => ?_,
    fun h => ⟨fun schema name => exactAt_iff.2 fun last hLast => ?_,
      holdsEach_iff.2 fun a ha b hb hSame => ?_⟩⟩
  · by_contra hDotted
    obtain ⟨other, hOther, hSame⟩ := exists_keyOf_eq hDotted
    obtain ⟨last, hLast⟩ := exists_lastUnder? hTable
    have hThere := exactAt_iff.1 (h other.1 other.2) last
      ((congrArg (lastUnder? tables) hSame).trans hLast)
    have hHere := exactAt_iff.1 (h table.schema table.name) last hLast
    exact hOther (hThere.symm.trans hHere)
  · obtain ⟨hMem, hKey⟩ := lastUnder?_eq_some hLast
    exact (eq_of_keyOf_eq (h last hMem) hKey.symm).symm
  · exact eq_of_keyOf_eq (h b hb) hSame

/-- A table whose schema has a dot. -/
def dottedSchema : Table where
  schema := "a.b"
  name := "c"

/-- A table of another address that has the same text. -/
def dottedName : Table where
  schema := "a"
  name := "b.c"

/-- A table is served at an address that no table has, and of two tables with
one text the first is lost. -/
theorem lookup_serves_other :
    (ofList [dottedSchema]).resolve "a" "b.c" = .ok dottedSchema ∧
      ¬ExactAt [dottedSchema] "a" "b.c" ∧
      (ofList [dottedSchema, dottedName]).tables = [dottedName] ∧
      ¬HoldsEach [dottedSchema, dottedName] := by
  have hFound : (ofList [dottedSchema]).get? "a" "b.c" = some dottedSchema := by
    decide
  have hHeld : (ofList [dottedSchema, dottedName]).tables = [dottedName] := by
    decide
  refine ⟨by rw [resolve, hFound], fun h => ?_, hHeld, fun h => ?_⟩
  · have hNone : lastAt? [dottedSchema] ("a", "b.c") = none := by decide
    rw [h.found, hNone] at hFound
    cases hFound
  · have hOrder := h.order
    rw [hHeld] at hOrder
    exact absurd hOrder (by decide)

end Catalog
end TableGate
