import TableGate.Http.Handler
import TableGate.Proofs.Sql.Shown

/-!
# Requests that can be shown

What a client sends is read from texts and from JSON documents, and neither
gives an integer with too many digits. So the values of a request can be shown
in the log and in a message, and so can the bounds of the page that is served
for it, as long as those of the configuration can.

## Main results

* `isShown_params`, `isShown_documentParams`: what a request asks for can be
  shown.
* `isShown_paginate`: so can what it is served.
-/

namespace TableGate.Http

open Result (bind_eq_ok pure_eq_ok)

variable {request : Request}

theorem isShown_params {params : Params} (h : request.params = .ok params) :
    params.IsShown := by
  obtain ⟨items, -, h⟩ := bind_eq_ok.1 h
  exact Items.isShown_compile h

theorem isShowable_document {value : Value}
    (h : request.document = .ok value) : value.isShowable = true := by
  unfold Request.document at h
  split at h
  · exact absurd h Result.refuse_ne_ok
  · split at h
    · next hRead =>
        rw [← Except.ok.inj h]
        exact Json.isShowable_readBytes hRead
    · exact absurd h Result.refuse_ne_ok

theorem isShowable_fields {values : Fields} (h : request.fields = .ok values) :
    (Value.object values).isShowable = true := by
  obtain ⟨body, hBody, h⟩ := bind_eq_ok.1 h
  split at h
  · rw [← pure_eq_ok.1 h]
    exact isShowable_document hBody
  · exact absurd h Result.refuse_ne_ok

theorem isShown_documentParams {params : Params}
    (h : documentParams request = .ok params) : params.IsShown := by
  obtain ⟨value, hBody, h⟩ := bind_eq_ok.1 h
  split at h
  · next hDocument =>
      exact Document.isShown_compile h
        (Document.isShown_of_ofValue hDocument (isShowable_document hBody))
  · exact absurd h Result.refuse_ne_ok

end TableGate.Http

namespace TableGate

/-! ## Pages -/

/-- The page sizes of a configuration can be shown in the log, if it shows
statements. -/
def Config.ShowsPages (config : Config) : Prop :=
  config.logSql = true →
    Text.isWritable config.pagination.defaultLimit = true ∧
      Text.isWritable config.pagination.maxLimit = true

theorem Text.isWritable_of_natAbs_le {i j : Int} (h : i.natAbs ≤ j.natAbs)
    (hWritable : isWritable j = true) : isWritable i = true :=
  decide_eq_true (h.trans_lt (of_decide_eq_true hWritable))

/-- The size of the page that is served is one of those that were given, or
less. -/
theorem Pagination.isWritable_apply {pagination : Pagination}
    (hDefault : Text.isWritable pagination.defaultLimit = true)
    (hLargest : Text.isWritable pagination.maxLimit = true)
    {limit : Option Int} (hLimit : ∀ n ∈ limit, Text.isWritable n = true)
    (offset : Option Int) :
    Text.isWritable (pagination.apply limit offset).limit = true := by
  have hAsked : Text.isWritable (limit.getD pagination.defaultLimit) =
      true := by
    cases limit with
    | none => exact hDefault
    | some n => exact hLimit n rfl
  have hCapped : Text.isWritable (pagination.capLimit
      (limit.getD pagination.defaultLimit)) = true := by
    unfold capLimit
    split
    · exact hLargest
    · exact hAsked
  refine Text.isWritable_of_natAbs_le ?_ hCapped
  show (pagination.capTotal (offset.getD 0) _).natAbs ≤ _
  unfold capTotal
  split
  · omega
  · exact Nat.le_refl _

/-- A page that is served for what can be shown can be shown. -/
theorem Params.IsShown.paginate {params : Params} (h : params.IsShown)
    {pagination : Pagination}
    (hDefault : Text.isWritable pagination.defaultLimit = true)
    (hLargest : Text.isWritable pagination.maxLimit = true)
    (preferences : Preferences) :
    (Http.paginate pagination params preferences).IsShown where
  filters := h.filters
  cursor := h.cursor
  limit := by
    rintro n hn
    rw [← Option.some.inj hn]
    exact Pagination.isWritable_apply hDefault hLargest h.limit _
  offset := by
    rintro n hn
    rw [← Option.some.inj hn]
    show Text.isWritable (params.offset.getD 0) = true
    cases hOffset : params.offset with
    | none => exact Text.isWritable_iff.2 (by decide)
    | some m => exact h.offset m hOffset

end TableGate
