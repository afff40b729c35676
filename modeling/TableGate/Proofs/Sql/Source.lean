import Mathlib.Data.List.Perm.Basic
import TableGate.Proofs.Identifier
import TableGate.Proofs.Sql.Query
import TableGate.Row

/-!
# What a database answers

The statements of this library are read by a database. `Source` is one fixed
table with what the database makes of it: the value of every expression in a
row, whether a comparison is true there, and how a sort key orders two rows.
Only what SQL says about integers is assumed of these three: how they compare
with an integer that is bound, and how they are ordered. Names in conditions
and in orders are those of the table's columns.

`Source.Answers` is then what SQL says about a query. The rows that meet all
conditions are put in the asked order, ties in any way; the limit cuts the
list; and each row is shown with the values of the targets.

## Main results

* `meets_iff`: a row meets the conditions of a request exactly when its
  filters are true there.
* `get?_row`: of the targets of one name, a row shows the last.
* `KeyedBy.answers_iff`: rows that are ordered by a column of distinct
  integers are answered in one order only.
-/

namespace TableGate.Sql

open TableGate.Filter (conjuncts)

/-- One integer comes before another in a direction. -/
def Precedes (desc : Bool) (m n : Int) : Prop :=
  if desc then n < m else m < n

instance (desc : Bool) (m n : Int) : Decidable (Precedes desc m n) := by
  unfold Precedes
  infer_instance

namespace Precedes

variable {desc : Bool} {m n k : Int}

theorem asymm (h : Precedes desc m n) : ¬Precedes desc n m := by
  cases desc <;> simp only [Precedes, Bool.false_eq_true, if_true, if_false]
    at h ⊢ <;> omega

theorem ne (h : Precedes desc m n) : m ≠ n := by
  rintro rfl
  exact h.asymm h

theorem trans (hFirst : Precedes desc m n) (hSecond : Precedes desc n k) :
    Precedes desc m k := by
  cases desc <;> simp only [Precedes, Bool.false_eq_true, if_true, if_false]
    at hFirst hSecond ⊢ <;> omega

/-- An integer comes after the first or before the second of two in order. -/
theorem or (h : Precedes desc m n) (k : Int) :
    Precedes desc m k ∨ Precedes desc k n := by
  cases desc <;> simp only [Precedes, Bool.false_eq_true, if_true, if_false]
    at h ⊢ <;> omega

theorem of_not (h : ¬Precedes desc n m) (hNe : m ≠ n) : Precedes desc m n := by
  cases desc <;> simp only [Precedes, Bool.false_eq_true, if_true, if_false]
    at h ⊢ <;> omega

/-- Rows with distinct keys can be put in the order of their keys. -/
theorem exists_sorted {ρ : Type} (desc : Bool) {key : ρ → Int} {rows : List ρ}
    (h : (rows.map key).Nodup) :
    ∃ sorted : List ρ, sorted.Perm rows ∧
      sorted.Pairwise fun a b => Precedes desc (key a) (key b) := by
  let le (a b : ρ) : Bool := !Precedes desc (key b) (key a)
  have le_iff : ∀ {a b : ρ},
      le a b = true ↔ ¬Precedes desc (key b) (key a) := by simp [le]
  have hSorted : (rows.mergeSort le).Pairwise fun a b => le a b = true := by
    refine List.pairwise_mergeSort (fun a b c hab hbc => ?_) (fun a b => ?_) _
    · rw [le_iff] at hab hbc ⊢
      intro hca
      exact (hca.or (key b)).elim hbc hab
    · rw [Bool.or_eq_true, le_iff, le_iff]
      by_cases hba : Precedes desc (key b) (key a)
      · exact Or.inr hba.asymm
      · exact Or.inl hba
  have hPerm := List.mergeSort_perm rows le
  have hKeys : (rows.mergeSort le).Pairwise fun a b => key a ≠ key b :=
    List.pairwise_map.1 ((hPerm.map key).nodup_iff.2 h)
  refine ⟨_, hPerm, (hKeys.and hSorted).imp fun hBoth => ?_⟩
  exact of_not (le_iff.1 hBoth.2) hBoth.1

end Precedes

/-! ## The names of targets -/

variable {k : Identifier}

/-- A select list shows a column under its name: it names nothing, or it names
the column and nothing after that has the same name in the result. -/
inductive Shows (name : String) : List String → Prop
  | all {select : List String} (h : select.filter (· != "*") = []) :
      Shows name select
  | item {before after : List String}
      (hLater : ∀ item ∈ after, ∀ path, ColumnPath.ofColumn item = .ok path →
        path.outputName ≠ name) :
      Shows name (before ++ name :: after)

theorem TargetOf.eq_of_name {target : Target} (h : TargetOf k.text target) :
    target = ⟨[.column k], k⟩ := by
  generalize hItem : k.text = item at h
  cases h with
  | plain name =>
      rw [Identifier.eq_of_text hItem]
  | path hPath hSteps =>
      rw [← hItem, k.ofColumn_text] at hPath
      rw [← Except.ok.inj hPath] at hSteps
      exact absurd hSteps Bool.false_ne_true

/-- A target has the name its item has in the result. -/
theorem TargetOf.label_eq {item : String} {target : Target}
    (h : TargetOf item target) :
    ∃ path, ColumnPath.ofColumn item = .ok path ∧
      target.label.text = path.outputName := by
  cases h with
  | plain name => exact ⟨_, name.ofColumn_text, rfl⟩
  | path hPath _ hLabel => exact ⟨_, hPath, hLabel⟩

/-! ## Tables -/

/-- A table with what a database makes of it. -/
structure Source (ρ : Type) where
  /-- The rows of the table. -/
  rows : List ρ
  /-- The columns of the table, in order. -/
  columns : List Identifier
  nodup_columns : columns.Nodup
  /-- The value of an expression in a row. -/
  value : Fragment → ρ → Value
  /-- Whether a comparison is true in a row. -/
  holds : Fragment → ρ → Bool
  /-- How a sort key orders two rows. -/
  order : SortKey → ρ → ρ → Ordering
  holds_gt : ∀ {operand : Fragment} {r : ρ} {m : Int},
    value operand r = .int m → ∀ n : Int,
      holds (operand ++ [.word (.compare .gt), .bind (.int n)]) r =
        decide (n < m)
  holds_lt : ∀ {operand : Fragment} {r : ρ} {m : Int},
    value operand r = .int m → ∀ n : Int,
      holds (operand ++ [.word (.compare .lt), .bind (.int n)]) r =
        decide (m < n)
  order_int : ∀ {key : SortKey} {a b : ρ} {m n : Int},
    value key.expression a = .int m → value key.expression b = .int n →
      order key a b = if key.desc then compare n m else compare m n

namespace Source

variable {ρ : Type} (source : Source ρ)

/-- Whether a row meets all conditions, each by one of its alternatives. -/
def meets (conditions : List (List Fragment)) (r : ρ) : Bool :=
  conditions.all fun alternatives =>
    alternatives.any fun comparison => source.holds comparison r

/-- How sort keys order two rows: a key counts where those before it tie. -/
def orderBy : List SortKey → ρ → ρ → Ordering
  | [], _, _ => .eq
  | key :: others, a, b => (source.order key a b).then (orderBy others a b)

/-- The columns of a result; where a query names none, all of the table. -/
def targets : Option (List Target) → List Target
  | none => source.columns.map fun name => ⟨[.column name], name⟩
  | some targets => targets

/-- The names of the columns of a result. -/
def labels (targets : Option (List Target)) : List String :=
  (source.targets targets).map (·.label.text)

/-- The cells of a row of a result. -/
def cells (targets : Option (List Target)) (r : ρ) : List Value :=
  (source.targets targets).map fun target => source.value target.expression r

/-- A row of a result as it is decoded. -/
def row (targets : Option (List Target)) (r : ρ) : Row :=
  decodeRow (source.labels targets) (source.cells targets r)

/-- The rows that a limit leaves. -/
def limited (limit : Option Int) (rows : List ρ) : List ρ :=
  match limit with
  | none => rows
  | some n => rows.take n.toNat

/-- What a database may answer to a query; there is no answer to a limit below
zero. -/
inductive Answers (q : Query) : QueryResult → Prop
  | intro {sorted : List ρ} (scalar : Except Refusal Value)
      (hPerm : sorted.Perm (source.rows.filter (source.meets q.conditions)))
      (hSorted : sorted.Pairwise fun a b =>
        source.orderBy q.order a b ≠ .gt)
      (hLimit : ∀ n ∈ q.limit, 0 ≤ n) :
      Answers q
        { keys := source.labels q.targets
          rows := (limited q.limit sorted).map (source.cells q.targets)
          scalar }

/-- What a database may answer to a statement over one table. -/
def Gives (table : Table) (s : Statement) (result : QueryResult) : Prop :=
  ∃ q target, Query.ofStatement? s = some q ∧ tablePiece table = .ok target ∧
    q.table = [target] ∧ source.Answers q result

/-! ## Conditions -/

/-- The filters of a request are true in a row. -/
def Matches (filters : List Filter) (r : ρ) : Prop :=
  Filter.Holds filters fun i => source.holds (renderedAt filters i) r

/-- A row meets the conditions of a request exactly when its filters are true
there. -/
theorem meets_iff {filters : List Filter} {r : ρ} :
    source.meets ((conjuncts filters).map fun c =>
      c.places.map (renderedAt filters)) r = true ↔
        source.Matches filters r := by
  rw [Matches, (Filter.conjunctsOf_conjuncts filters).holds_iff, meets]
  simp [Filter.Conjunct.Holds]

/-- Without filters every row matches. -/
theorem matches_nil (r : ρ) : source.Matches [] r := by
  refine ⟨fun i f hAt => ?_, fun i f hAt => ?_⟩
  all_goals
    rw [List.getElem?_nil] at hAt
    cases hAt

/-- One more filter outside the groups is one more condition. -/
theorem matches_concat {filters : List Filter} {f : Filter}
    (h : f.isGrouped = false) {r : ρ} :
    source.Matches (filters ++ [f]) r ↔
      source.Matches filters r ∧ source.holds (renderedFilter f) r = true := by
  have hApart : Filter.Apart filters [f] := by
    intro a _ b hb _ hGrouped
    rw [List.mem_singleton.1 hb, h] at hGrouped
    exact absurd hGrouped Bool.false_ne_true
  have hStart : ∀ i < filters.length,
      source.holds (renderedAt (filters ++ [f]) i) r =
        source.holds (renderedAt filters i) r := by
    intro i hi
    rw [renderedAt, renderedAt, List.getElem?_append_left hi]
  have hEnd : renderedAt (filters ++ [f]) filters.length = renderedFilter f :=
    renderedAt_eq (by simp)
  rw [Matches, Filter.holds_append hApart, Filter.holds_congr hStart,
    Filter.holds_singleton h, Nat.add_zero, hEnd]
  rfl

/-! ## A column of integers -/

/-- A column holds integers, no two rows the same. -/
structure KeyedBy (k : Identifier) (key : ρ → Int) : Prop where
  mem_columns : k ∈ source.columns
  value_eq : ∀ r ∈ source.rows, source.value [.column k] r = .int (key r)
  distinct : (source.rows.map key).Nodup

variable {source} {key : ρ → Int}

namespace KeyedBy

theorem nodup_rows (h : source.KeyedBy k key) : source.rows.Nodup :=
  h.distinct.of_map key

theorem key_ne (h : source.KeyedBy k key) {a b : ρ} (ha : a ∈ source.rows)
    (hb : b ∈ source.rows) (hNe : a ≠ b) : key a ≠ key b := by
  intro hKey
  exact hNe (List.inj_on_of_nodup_map h.distinct ha hb hKey)

/-- The comparison of the column with a bound in a direction. -/
theorem holds_bound (h : source.KeyedBy k key) {r : ρ} (hr : r ∈ source.rows)
    (desc : Bool) (n : Int) :
    source.holds [.column k, .word (.compare (if desc then .lt else .gt)),
      .bind (.int n)] r = true ↔ Precedes desc n (key r) := by
  have hValue := h.value_eq r hr
  cases desc with
  | true =>
      show source.holds ([.column k] ++ [.word (.compare .lt),
        .bind (.int n)]) r = true ↔ key r < n
      rw [source.holds_lt hValue, decide_eq_true_iff]
  | false =>
      show source.holds ([.column k] ++ [.word (.compare .gt),
        .bind (.int n)]) r = true ↔ n < key r
      rw [source.holds_gt hValue, decide_eq_true_iff]

/-- Between distinct integers what comes later in an order does not count. -/
theorem then_ne_gt {m n : Int} (h : m ≠ n) (later : Ordering) :
    (compare m n).then later ≠ .gt ↔ m < n := by
  rcases Int.lt_or_gt_of_ne h with hLt | hGt
  · simp [Int.compare_eq_lt.2 hLt, hLt]
  · simp [Int.compare_eq_gt.2 hGt, Int.le_of_lt hGt]

/-- An order that begins with the column is the order of its integers. -/
theorem precedes_of_orderBy (h : source.KeyedBy k key) {first : SortKey}
    {others : List SortKey} (hFirst : first.expression = [.column k]) {a b : ρ}
    (ha : a ∈ source.rows) (hb : b ∈ source.rows) (hNe : a ≠ b) :
    source.orderBy (first :: others) a b ≠ .gt ↔
      Precedes first.desc (key a) (key b) := by
  have hKeys := h.key_ne ha hb hNe
  have hOrder : source.order first a b = if first.desc then
      compare (key b) (key a) else compare (key a) (key b) :=
    source.order_int (hFirst ▸ h.value_eq a ha) (hFirst ▸ h.value_eq b hb)
  rw [orderBy, hOrder]
  cases first.desc with
  | true => exact then_ne_gt hKeys.symm _
  | false => exact then_ne_gt hKeys _

/-- Rows in any order that begins with the column are rows in the order of
its integers. -/
theorem pairwise_orderBy (h : source.KeyedBy k key) {first : SortKey}
    {others : List SortKey} (hFirst : first.expression = [.column k])
    {sorted : List ρ} (hRows : ∀ r ∈ sorted, r ∈ source.rows)
    (hNodup : sorted.Nodup) :
    sorted.Pairwise (fun a b =>
        source.orderBy (first :: others) a b ≠ .gt) ↔
      sorted.Pairwise fun a b => Precedes first.desc (key a) (key b) := by
  constructor
  · intro hSorted
    refine (hNodup.and hSorted).imp_of_mem fun ha hb hBoth => ?_
    exact (h.precedes_of_orderBy hFirst (hRows _ ha) (hRows _ hb) hBoth.1).1
      hBoth.2
  · intro hSorted
    refine (hNodup.and hSorted).imp_of_mem fun ha hb hBoth => ?_
    exact (h.precedes_of_orderBy hFirst (hRows _ ha) (hRows _ hb) hBoth.1).2
      hBoth.2

/-- Rows that are ordered by the column are answered in this order, cut at the
limit, and in no other. -/
theorem answers_iff (h : source.KeyedBy k key) {q : Query} {first : SortKey}
    {others : List SortKey} (hOrder : q.order = first :: others)
    (hFirst : first.expression = [.column k]) (hLimit : ∀ n ∈ q.limit, 0 ≤ n)
    {sorted : List ρ}
    (hSorted : sorted.Pairwise fun a b =>
      Precedes first.desc (key a) (key b))
    (hMem : ∀ r, r ∈ sorted ↔
      r ∈ source.rows ∧ source.meets q.conditions r = true)
    {result : QueryResult} :
    source.Answers q result ↔ ∃ scalar, result =
      { keys := source.labels q.targets
        rows := (limited q.limit sorted).map (source.cells q.targets)
        scalar } := by
  have hNodup : sorted.Nodup := hSorted.imp fun hBefore hSame =>
    hBefore.ne (congrArg key hSame)
  have hPerm : sorted.Perm (source.rows.filter (source.meets q.conditions)) :=
    (List.perm_ext_iff_of_nodup hNodup (h.nodup_rows.filter _)).2 fun r => by
      rw [hMem, List.mem_filter]
  constructor
  · rintro ⟨scalar, hOther, hOrdered, -⟩
    rename_i other
    have hSame : other = sorted := by
      have hAll := hOther.trans hPerm.symm
      rw [hOrder] at hOrdered
      have hRows : ∀ r ∈ other, r ∈ source.rows := fun r hr =>
        ((hMem r).1 (hAll.mem_iff.1 hr)).1
      have hOther := (h.pairwise_orderBy hFirst hRows
        (hAll.nodup_iff.2 hNodup)).1 hOrdered
      refine hAll.eq_of_pairwise (fun a b _ _ hab hba => ?_) hOther hSorted
      exact absurd hba hab.asymm
    exact ⟨scalar, by rw [hSame]⟩
  · rintro ⟨scalar, rfl⟩
    refine ⟨scalar, hPerm, ?_, hLimit⟩
    rw [hOrder]
    exact (h.pairwise_orderBy hFirst (fun r hr => ((hMem r).1 hr).1)
      hNodup).2 hSorted

end KeyedBy

/-! ## Showing the column -/

/-- Rows that arrive are decoded one by one. -/
theorem decodeRows_answer (targets : Option (List Target)) (rows : List ρ)
    (scalar : Except Refusal Value) :
    QueryResult.decodeRows
        { keys := source.labels targets, rows := rows.map (source.cells targets)
          scalar } =
      .ok (rows.map (source.row targets)) := by
  rw [QueryResult.decodeRows, List.map_map]
  rfl

/-- The targets of a select list that shows a column end with the column, but
for targets of other names. -/
theorem exists_target (hColumn : k ∈ source.columns) {select : List String}
    (h : Shows k.text select) {targets : Option (List Target)}
    (hTargets : TargetsOf select targets) :
    ∃ before after,
      source.targets targets = before ++ ⟨[.column k], k⟩ :: after ∧
        ∀ later ∈ after, later.label.text ≠ k.text := by
  cases hTargets with
  | all =>
      obtain ⟨before, after, hColumns⟩ := List.append_of_mem hColumn
      refine ⟨before.map fun name => ⟨[.column name], name⟩,
        after.map fun name => ⟨[.column name], name⟩, ?_,
        fun later hLater => ?_⟩
      · rw [targets, hColumns, List.map_append, List.map_cons]
      · obtain ⟨name, hName, rfl⟩ := List.mem_map.1 hLater
        have hNodup := source.nodup_columns
        rw [hColumns, List.nodup_append, List.nodup_cons] at hNodup
        intro hSame
        exact hNodup.2.1.1 (Identifier.eq_of_text hSame ▸ hName)
  | items hSome hItems =>
      cases h with
      | all hNone => exact absurd hNone hSome
      | @item before after hLater =>
          have hNamed : (k.text :: after).filter (· != "*") =
              k.text :: after.filter (· != "*") :=
            List.filter_cons_of_pos (bne_iff_ne.2 k.text_ne_star)
          rw [List.filter_append, hNamed] at hItems
          obtain ⟨found, target, others, hFound, -, hTarget, hAfter⟩ :=
            Result.exists_split_forall₂ hItems
          refine ⟨found, others, ?_, fun later hMem => ?_⟩
          · rw [← hTarget.eq_of_name]
            exact hFound
          · obtain ⟨item, hItem, hOf⟩ :=
              Result.exists_of_mem_forall₂ hAfter hMem
            obtain ⟨path, hPath, hLabel⟩ := hOf.label_eq
            rw [hLabel]
            exact hLater item (List.mem_filter.1 hItem).1 path hPath

/-- Of the targets of one name, a row shows the last. -/
theorem get?_row {targets : Option (List Target)} {before after : List Target}
    {target : Target}
    (hTargets : source.targets targets = before ++ target :: after)
    (hAfter : ∀ later ∈ after, later.label.text ≠ target.label.text) (r : ρ) :
    Fields.get? (source.row targets r) target.label.text =
      some (decodeValue (source.value target.expression r)) := by
  have hRow : source.row targets r =
      Fields.ofPairs ((source.targets targets).map fun target =>
        (target.label.text,
          decodeValue (source.value target.expression r))) := by
    rw [row, decodeRow, labels, cells, List.map_map, List.zip_map']
    rfl
  rw [hRow, hTargets, List.map_append, List.map_cons]
  refine Fields.get?_ofPairs_append fun later hLater => ?_
  obtain ⟨other, hOther, rfl⟩ := List.mem_map.1 hLater
  exact hAfter other hOther

/-- A column of integers shows in a row under its own name. -/
theorem KeyedBy.get?_row_column (h : source.KeyedBy k key)
    {select : List String} (hShows : Shows k.text select)
    {targets : Option (List Target)} (hTargets : TargetsOf select targets)
    {r : ρ} (hr : r ∈ source.rows) :
    Fields.get? (source.row targets r) k.text = some (.int (key r)) := by
  obtain ⟨before, after, hAll, hAfter⟩ :=
    exists_target h.mem_columns hShows hTargets
  rw [get?_row hAll hAfter r, h.value_eq r hr]
  rfl

/-! ## Tables of records -/

/-- What the steps of a path find in a document; only steps to fields that
keep JSON are taken. -/
def descend : Value → Fragment → Value
  | value, [] => value
  | .object fields, .word (.arrow .json) :: .field name :: steps =>
      descend ((Fields.get? fields name.text).getD .null) steps
  | _, _ => .null

/-- The value of a column or path in a record. -/
def valueIn : Fragment → Fields → Value
  | .column name :: steps, record =>
      descend ((Fields.get? record name.text).getD .null) steps
  | _, _ => .null

/-- How two integers compare. -/
def compares : Operator → Int → Int → Bool
  | .eq, m, n => m == n
  | .neq, m, n => m != n
  | .gt, m, n => n < m
  | .gte, m, n => n ≤ m
  | .lt, m, n => m < n
  | .lte, m, n => m ≤ n
  | _, _, _ => false

/-- Whether a comparison with a bound integer is true in a record. -/
def holdsIn (comparison : Fragment) (record : Fields) : Bool :=
  match comparison.reverse with
  | .bind (.int n) :: .word (.compare operator) :: operand =>
      match valueIn operand.reverse record with
      | .int m => compares operator m n
      | _ => false
  | _ => false

theorem holdsIn_compare {operand : Fragment} {record : Fields} {m : Int}
    (h : valueIn operand record = .int m) (operator : Operator) (n : Int) :
    holdsIn (operand ++ [.word (.compare operator), .bind (.int n)]) record =
      compares operator m n := by
  simp [holdsIn, h]

/-- How a sort key orders two records; what is no integer is not ordered. -/
def orderIn (key : SortKey) (a b : Fields) : Ordering :=
  match valueIn key.expression a, valueIn key.expression b with
  | .int m, .int n => if key.desc then compare n m else compare m n
  | _, _ => .eq

/-- A table of records, of which integers are compared and ordered. -/
def ofRecords (columns : List Identifier) (h : columns.Nodup)
    (rows : List Fields) : Source Fields where
  rows
  columns
  nodup_columns := h
  value := valueIn
  holds := holdsIn
  order := orderIn
  holds_gt hValue n := holdsIn_compare hValue .gt n
  holds_lt hValue n := holdsIn_compare hValue .lt n
  order_int hFirst hSecond := by rw [orderIn, hFirst, hSecond]

end Source
end TableGate.Sql
