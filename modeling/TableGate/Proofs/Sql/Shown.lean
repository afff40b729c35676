import TableGate.Proofs.Exchange
import TableGate.Proofs.Shown
import TableGate.Proofs.Sql.Stored

/-!
# Statements that can be shown

What a statement binds comes from the request that it is built for: from its
filters, its cursor and its page bounds, from a key and from the records to be
written. So the log can show a statement whenever it could show those.

Two runs of a builder on related values give related arguments, and what can
be shown is related to itself.

## Main results

* `select_isShown`, `updateWhere_isShown` and the like: a statement that is
  built from what can be shown can be shown.
* `Statement.IsShown.not_unshown`: such a statement is sent.
-/

namespace TableGate

open Result (Agree bind_eq_ok of_check_eq_ok pure_eq_ok)

/-- The first of two values can be shown. -/
def FirstShown (v _ : Value) : Prop := v.isShowable = true

/-- What can be shown is alike to itself. -/
theorem Filter.IsShown.alike {f : Filter} (h : f.IsShown) :
    f.Alike FirstShown f := by
  refine ⟨rfl, rfl, rfl, rfl, FilterValue.alike_of_kind rfl ?_ h, fun _ => rfl⟩
  intro items others hItems hOthers
  obtain rfl := FilterValue.sequence.inj (hItems.symm.trans hOthers)
  rw [IsShown, hItems] at h
  exact List.forall₂_same.2 (Value.isShowable_list.1 h)

theorem Filter.alike_of_isShown {filters : List Filter}
    (h : ∀ f ∈ filters, f.IsShown) :
    List.Forall₂ (Filter.Alike FirstShown) filters filters :=
  List.forall₂_same.2 fun f hf => (h f hf).alike

theorem Params.IsShown.alike {params : Params} (h : params.IsShown) :
    params.Alike FirstShown params where
  select := rfl
  aggregations := rfl
  order := rfl
  groupBy := rfl
  keysetColumn := rfl
  keysetDesc := rfl
  filters := Filter.alike_of_isShown h.filters
  limit := relatedBounds rfl fun m _ hm _ =>
    Value.isShowable_int.2 (h.limit m hm)
  offset := relatedBounds rfl fun m _ hm _ =>
    Value.isShowable_int.2 (h.offset m hm)

/-- A step that gives what is related to itself agrees with itself. -/
theorem Result.Agree.same {α : Type} {Excused : Error → Prop}
    {P : α → α → Prop} {x : Result α} (h : ∀ a, x = .ok a → P a a) :
    Agree Excused P x x := by
  cases x with
  | error e => exact .error e
  | ok a => exact .ok (h a rfl)

namespace Sql

variable {table : Table} {params : Params} {s : Statement}

/-- The arguments of a statement can be shown. -/
def Statement.IsShown (s : Statement) : Prop :=
  ∀ v ∈ s.args, v.isShowable = true

theorem Statement.Alike.isShown (h : s.Alike FirstShown s) : s.IsShown :=
  List.forall₂_same.1 (Sql.Alike.args h)

/-- A statement that can be shown is not held back. -/
theorem Statement.IsShown.not_unshown {δ : Type} {engine : Engine δ}
    (h : s.IsShown) : ¬Task.Unshown engine s.prepare := by
  rintro ⟨-, hHidden⟩
  have hAll : (Value.list s.args).isShowable = true :=
    Value.isShowable_list.2 h
  have hParams : s.prepare.params.map (·.2) = s.args :=
    Engine.params_prepare s.rendered
  rw [hParams, hAll] at hHidden
  cases hHidden

/-- What agrees with itself relates to itself what it gives. -/
theorem isShown_of_agree {statement : Result Statement}
    (hAgree : Agree (fun _ => False) (Statement.Alike FirstShown) statement
      statement) (h : statement = .ok s) : s.IsShown := by
  rw [h] at hAgree
  exact Statement.Alike.isShown hAgree.of_ok

/-- None of the filters tests what cannot be shown. -/
theorem not_testsUnshown {filters : List Filter}
    (h : ∀ f ∈ filters, f.IsShown) : ¬TestsUnshown filters := by
  rintro ⟨f, hf, -, hHidden⟩
  have hShown : f.value.toValue.isShowable = true := h f hf
  rw [hShown] at hHidden
  cases hHidden

/-! ## Statements that read -/

theorem isShown_keysetFilters {filters : List Filter} (hShown : params.IsShown)
    (h : keysetFilters params = .ok filters) : ∀ f ∈ filters, f.IsShown := by
  unfold keysetFilters at h
  split at h
  · rw [← pure_eq_ok.1 h]
    exact hShown.filters
  · next cursor hCursor =>
      obtain ⟨value, hValue, h⟩ := bind_eq_ok.1 h
      rw [← pure_eq_ok.1 h]
      refine List.forall_mem_append.2
        ⟨hShown.filters, List.forall_mem_singleton.2 ?_⟩
      exact FilterValue.isShowable_of_ofValue hValue
        (hShown.cursor cursor hCursor)

theorem select_isShown (hShown : params.IsShown)
    (h : select table params = .ok s) : s.IsShown :=
  isShown_of_agree (select_agree hShown.alike (.same fun _ hFilters =>
    Filter.alike_of_isShown (isShown_keysetFilters hShown hFilters))) h

theorem count_isShown (hShown : params.IsShown)
    (h : count table params = .ok s) : s.IsShown :=
  isShown_of_agree (count_agree hShown.alike) h

theorem explain_isShown (hShown : params.IsShown)
    (h : explain table params = .ok s) : s.IsShown :=
  isShown_of_agree (explain_agree hShown.alike rfl) h

theorem isShown_keyFilters {key : List Value} {filters : List Filter}
    (hKey : ∀ v ∈ key, v.isShowable = true)
    (h : keyFilters table key = .ok filters) : ∀ f ∈ filters, f.IsShown := by
  unfold keyFilters at h
  split at h
  · exact absurd h Result.refuse_ne_ok
  · split at h
    · exact absurd h Result.refuse_ne_ok
    · intro f hf
      obtain ⟨part, hPart, hFilter⟩ := Result.exists_of_mem_mapM h hf
      obtain ⟨value, hValue, hFilter⟩ := bind_eq_ok.1 hFilter
      rw [← pure_eq_ok.1 hFilter]
      exact FilterValue.isShowable_of_ofValue hValue
        (hKey _ (List.of_mem_zip hPart).2)

/-- The clause of filters that can be shown is alike to itself. -/
theorem whereClause_alike {filters : List Filter} {part : Fragment}
    (hShown : ∀ f ∈ filters, f.IsShown) (h : whereClause filters = .ok part) :
    Sql.Alike FirstShown part part := by
  have hAgree : Agree (fun _ => False) (Sql.Alike FirstShown)
      (whereClause filters) (whereClause filters) :=
    whereClause_agree (Filter.alike_of_isShown hShown)
  rw [h] at hAgree
  exact hAgree.of_ok

theorem selectByKey_isShown {key : List Value}
    (hKey : ∀ v ∈ key, v.isShowable = true) (hShown : params.IsShown)
    (h : selectByKey table key params = .ok s) : s.IsShown := by
  obtain ⟨target, hTarget, h⟩ := bind_eq_ok.1 h
  obtain ⟨columns, hColumns, h⟩ := bind_eq_ok.1 h
  obtain ⟨filters, hFilters, h⟩ := bind_eq_ok.1 h
  obtain ⟨part, hPart, h⟩ := bind_eq_ok.1 h
  have hClause := whereClause_alike (List.forall_mem_append.2
    ⟨isShown_keyFilters hKey hFilters, hShown.filters⟩) hPart
  have hHead : Composed table (fun _ => True) False
      (.word .select :: columns ++ [.word .fromTable, target]) :=
    (Composed.plain rfl (composed_selectList hColumns
      fun _ _ _ _ => trivial)).append
        (.plain rfl (composed_tablePiece hTarget))
  rw [← pure_eq_ok.1 h]
  exact Statement.Alike.isShown ((Alike.of_composed hHead).append hClause)

/-! ## Statements that write -/

/-- What is bound for a value that can be shown can be shown. -/
theorem isShowable_of_boundValue {column : String} {v bound : Value}
    (hShown : v.isShowable = true) (h : boundValue table column v = .ok bound) :
    bound.isShowable = true := by
  have hDocument : ∀ {v : Value}, document v = .ok bound →
      bound.isShowable = true := by
    intro v h
    obtain ⟨t, -, h⟩ := bind_eq_ok.1 h
    rw [← pure_eq_ok.1 h]
    rfl
  unfold boundValue at h
  split at h
  · exact hDocument h
  · split at h
    · exact hDocument h
    · rwa [← Except.ok.inj h]
  · rwa [← Except.ok.inj h]

theorem insertBatch_isShown {records : List Value} {upsert : Option Upsert}
    (hShown : ∀ record ∈ records, record.isShowable = true)
    (h : insertBatch table records upsert = .ok s) : s.IsShown := by
  obtain ⟨found, rfl⟩ : ∃ found : List Fields, records = found.map .object := by
    obtain ⟨target, -, hBuilt⟩ := bind_eq_ok.1 h
    obtain ⟨-, hBuilt⟩ := of_check_eq_ok hBuilt
    obtain ⟨found, hFound, -⟩ := bind_eq_ok.1 hBuilt
    exact ⟨found, recordFields_eq_ok hFound⟩
  have hBound := forall₂_batchCells h
  obtain ⟨first, rest, -, rfl, -, -, -⟩ := args_insertBatch h
  intro v hv
  obtain ⟨cell, hCell, hSame⟩ := Result.exists_of_mem_forall₂ hBound hv
  obtain ⟨record, hRecord, hCell⟩ := List.mem_flatMap.1 hCell
  obtain ⟨name, -, rfl⟩ := List.mem_map.1 hCell
  refine isShowable_of_boundValue ?_ hSame
  have hObject := hShown _ (List.mem_map_of_mem hRecord)
  cases hField : record.get? name with
  | none => rfl
  | some v => exact Value.isShowable_get? hObject hField

theorem insert_isShown {record : Fields} {upsert : Option Upsert}
    (hShown : (Value.object record).isShowable = true)
    (h : insert table record upsert = .ok s) : s.IsShown := by
  unfold insert at h
  split at h
  · obtain ⟨target, hTarget, h⟩ := bind_eq_ok.1 h
    obtain ⟨conflict, hConflict, h⟩ := bind_eq_ok.1 h
    obtain ⟨result, hResult, h⟩ := bind_eq_ok.1 h
    have hPieces : Composed table (fun _ => True) False
        ([.word .insertInto, target, .word .defaultValues] ++ conflict ++
          result) :=
      ((Composed.plain rfl ((composed_tablePiece hTarget).append
        (.plain rfl .nil))).append
          (composed_conflictPart hConflict (fun _ _ _ _ _ => trivial)
            (fun _ _ => trivial) fun _ _ => trivial)).append
              (composed_returning hResult fun _ _ => trivial)
    rw [← pure_eq_ok.1 h]
    exact Statement.Alike.isShown (.of_composed hPieces)
  · exact insertBatch_isShown (List.forall_mem_singleton.2 hShown) h

theorem updateWhere_isShown {target : Piece}
    (hTarget : tablePiece table = .ok target) {values : Fields}
    (hValues : (Value.object values).isShowable = true) {filters : List Filter}
    (hShown : ∀ f ∈ filters, f.IsShown)
    (h : updateWhere table target values filters = .ok s) : s.IsShown := by
  unfold updateWhere at h
  obtain ⟨-, h⟩ := of_check_eq_ok h
  obtain ⟨⟨⟩, -, h⟩ := bind_eq_ok.1 h
  obtain ⟨parts, hParts, h⟩ := bind_eq_ok.1 h
  obtain ⟨part, hPart, h⟩ := bind_eq_ok.1 h
  obtain ⟨result, hResult, h⟩ := bind_eq_ok.1 h
  have hAssigned : List.Forall₂ (Sql.Alike FirstShown) parts parts := by
    refine List.forall₂_same.2 fun assigned hMem => ?_
    obtain ⟨⟨name, v⟩, hField, hBuilt⟩ := Result.exists_of_mem_mapM hParts hMem
    have hPlace : ∀ a b, boundValue table name v = .ok a →
        boundValue table name v = .ok b → FirstShown a b := fun _ _ ha _ =>
      isShowable_of_boundValue (Value.isShowable_object.1 hValues _ hField) ha
    have hAgree := assignment_agree hPlace
    rw [hBuilt] at hAgree
    exact hAgree.of_ok
  rw [← pure_eq_ok.1 h]
  exact Statement.Alike.isShown
    (((((tablePiece_alike hTarget).word .update).append
      ((Alike.join .comma hAssigned).word .set)).append
        (whereClause_alike hShown hPart)).append (returning_alike hResult))

theorem update_isShown {values : Fields}
    (hValues : (Value.object values).isShowable = true)
    (hShown : params.IsShown) (h : update table values params = .ok s) :
    s.IsShown := by
  obtain ⟨target, hTarget, h⟩ := bind_eq_ok.1 h
  exact updateWhere_isShown hTarget hValues hShown.filters (of_check_eq_ok h).2

theorem updateByKey_isShown {key : List Value} {values : Fields}
    (hKey : ∀ v ∈ key, v.isShowable = true)
    (hValues : (Value.object values).isShowable = true)
    (h : updateByKey table key values = .ok s) : s.IsShown := by
  obtain ⟨target, hTarget, h⟩ := bind_eq_ok.1 h
  obtain ⟨filters, hFilters, h⟩ := bind_eq_ok.1 h
  exact updateWhere_isShown hTarget hValues
    (isShown_keyFilters hKey hFilters) h

theorem delete_isShown (hShown : params.IsShown)
    (h : delete table params = .ok s) : s.IsShown :=
  isShown_of_agree (delete_agree hShown.alike) h

theorem deleteByKey_isShown {key : List Value}
    (hKey : ∀ v ∈ key, v.isShowable = true)
    (h : deleteByKey table key = .ok s) : s.IsShown := by
  obtain ⟨target, hTarget, h⟩ := bind_eq_ok.1 h
  obtain ⟨filters, hFilters, h⟩ := bind_eq_ok.1 h
  obtain ⟨part, hPart, h⟩ := bind_eq_ok.1 h
  obtain ⟨result, hResult, h⟩ := bind_eq_ok.1 h
  rw [← pure_eq_ok.1 h]
  exact Statement.Alike.isShown ((((tablePiece_alike hTarget).word
    .deleteFrom).append
      (whereClause_alike (isShown_keyFilters hKey hFilters) hPart)).append
        (returning_alike hResult))

end Sql

theorem Engine.insertion_isShown {table : Table} {body : Value}
    {upsert : Option Upsert} {s : Sql.Statement}
    (hBody : body.isShowable = true)
    (h : insertion table body upsert = .ok s) : s.IsShown := by
  obtain ⟨target, -, h⟩ := bind_eq_ok.1 h
  split at h
  · exact Sql.insert_isShown hBody h
  · exact Sql.insertBatch_isShown (Value.isShowable_list.1 hBody) h
  · exact absurd h Result.refuse_ne_ok

end TableGate
