import TableGate.Proofs.Json.Rewriting
import TableGate.Proofs.Query.Defects

/-!
# What can be shown

A message that quotes a value fails where the value holds an integer of too
many digits, and so does the line of the log for a statement that binds one.
But such an integer is not read from a client: not in a document, not as a page
bound and not in a token. So whatever a request compiles to can be shown.

## Main results

* `Value.isShowable_iff`: what can be shown holds no integer that is too long.
* `Items.isShown_compile`, `Document.isShown_compile`: what a query string or a
  query document compiles to can be shown.
-/

namespace TableGate

open Result (bind_eq_ok pure_eq_ok)

/-! ## Values -/

namespace Value

theorem areShowable_eq_true_iff {items : List Value} :
    areShowable items = true ↔ ∀ item ∈ items, item.isShowable = true := by
  induction items with
  | nil => simp [areShowable]
  | cons item items ih =>
      rw [areShowable, Bool.and_eq_true, ih, List.forall_mem_cons]

theorem fieldsShowable_eq_true_iff {fields : Fields} :
    fieldsShowable fields = true ↔
      ∀ field ∈ fields, field.2.isShowable = true := by
  induction fields with
  | nil => simp [fieldsShowable]
  | cons field fields ih =>
      rw [fieldsShowable, fieldShowable, Bool.and_eq_true, ih,
        List.forall_mem_cons]

/-- A value is shown exactly if all that it holds is. -/
theorem isShowable_iff_forall {v : Value} :
    v.isShowable = true ↔ ∀ s, v.Holds s → s.isShowable = true :=
  iff_forall_holds (P := fun v => v.isShowable = true)
    (fun s => by rw [isShowable])
    (fun items => by rw [isShowable, areShowable_eq_true_iff])
    (fun items => by rw [isShowable, areShowable_eq_true_iff])
    (fun fields => by rw [isShowable, fieldsShowable_eq_true_iff]) v

/-- A value is shown exactly if none of its integers is too long. -/
theorem isShowable_iff {v : Value} :
    v.isShowable = true ↔ ¬v.HoldsLong := by
  rw [isShowable_iff_forall]
  constructor
  · rintro h ⟨i, hHolds, hLong⟩
    exact absurd (h _ hHolds) (by rw [Scalar.isShowable, hLong]; decide)
  · intro h s hHolds
    cases s with
    | int i =>
        rw [Scalar.isShowable]
        by_contra hLong
        exact h ⟨i, hHolds, Bool.eq_false_of_not_eq_true hLong⟩
    | _ => rfl

/-- What can be written can be shown. -/
theorem isShowable_of_writeFault? {layout : Json.Layout} {v : Value}
    (h : v.writeFault? layout = none) : v.isShowable = true := by
  refine isShowable_iff_forall.2 fun s hHolds => ?_
  have hScalar := writeFault?_eq_none_iff.1 h s hHolds
  cases s with
  | int i =>
      rw [Scalar.writeFault?] at hScalar
      split at hScalar
      · next hWritable => exact hWritable
      · cases hScalar
  | _ => rfl

theorem isShowable_int {n : Int} :
    (Value.int n).isShowable = true ↔ Text.isWritable n = true := by
  rw [isShowable, Scalar.isShowable]

theorem isShowable_list {items : List Value} :
    (Value.list items).isShowable = true ↔
      ∀ item ∈ items, item.isShowable = true := by
  rw [isShowable, areShowable_eq_true_iff]

theorem isShowable_object {fields : Fields} :
    (Value.object fields).isShowable = true ↔
      ∀ field ∈ fields, field.2.isShowable = true := by
  rw [isShowable, fieldsShowable_eq_true_iff]

/-- A field of what can be shown can be shown. -/
theorem isShowable_get? {fields : Fields} {name : String} {v : Value}
    (h : (Value.object fields).isShowable = true)
    (hField : fields.get? name = some v) : v.isShowable = true := by
  obtain ⟨field, hFound, rfl⟩ := Option.map_eq_some_iff.1 hField
  exact isShowable_object.1 h field (List.mem_of_find?_eq_some hFound)

end Value

/-- What is read from a document can be shown. -/
theorem Json.isShowable_readBytes {allowed : Bool} {bytes : Bytes} {v : Value}
    (h : readBytes allowed bytes = .ok v) : v.isShowable = true := by
  have hFault : v.writeFault? .spaced = none := writeFault?_readBytes rfl h
  exact Value.isShowable_of_writeFault? hFault

/-! ## Filters -/

namespace FilterValue

/-- The parts of a sequence are its items. -/
theorem eq_map_of_scalars? {items : List Value} {scalars : List Scalar}
    (h : scalars? items = some scalars) : items = scalars.map .scalar := by
  induction items generalizing scalars with
  | nil =>
      rw [← Option.some.inj h]
      rfl
  | cons item rest ih =>
      rw [scalars?, List.mapM_cons] at h
      obtain ⟨first, hFirst, h⟩ := Option.bind_eq_some_iff.1 h
      obtain ⟨others, hOthers, h⟩ := Option.bind_eq_some_iff.1 h
      obtain rfl := Option.some.inj h
      split at hFirst
      · rw [ih hOthers, ← Option.some.inj hFirst]
        rfl
      · cases hFirst

/-- A filter compares with what can be shown, if the value given can be. -/
theorem isShowable_of_ofValue {v : Value} {w : FilterValue}
    (h : ofValue v = .ok w) (hShown : v.isShowable = true) :
    w.toValue.isShowable = true := by
  have hItems : ∀ {items : List Value}, ofItems items = .ok w →
      Value.areShowable items = true → w.toValue.isShowable = true := by
    intro items hGiven hAll
    unfold ofItems at hGiven
    split at hGiven
    · next scalars hScalars =>
        rw [eq_map_of_scalars? hScalars] at hAll
        rw [← Except.ok.inj hGiven, toValue, Value.isShowable]
        exact hAll
    · exact absurd hGiven Result.refuse_ne_ok
  unfold ofValue at h
  split at h
  case h_7 => exact hItems h (by rwa [Value.isShowable] at hShown)
  case h_8 => exact hItems h (by rwa [Value.isShowable] at hShown)
  case h_9 => exact absurd h Result.refuse_ne_ok
  all_goals
    rw [← Except.ok.inj h]
    exact hShown

end FilterValue

namespace Filter

/-- The value of a filter can be shown. -/
def IsShown (f : Filter) : Prop := f.value.toValue.isShowable = true

/-- What a text means after an operator can be shown. -/
theorem isShowable_coerce_text (operator : Option Operator) (s : String) :
    (coerce operator (.text s)).isShowable = true := by
  unfold coerce
  split
  · unfold coerceIs
    dsimp only
    split_ifs
    all_goals rfl
  · unfold coerceIn
    split
    · rfl
    · rw [Value.isShowable_list]
      intro item hItem
      obtain ⟨cs, -, rfl⟩ := List.mem_map.1 hItem
      rfl
  · rfl

theorem isShowable_coerce (operator : Option Operator) {raw : Value}
    (h : raw.isShowable = true) : (coerce operator raw).isShowable = true := by
  by_cases hText : ∃ s : String, raw = .text s
  · obtain ⟨s, rfl⟩ := hText
    exact isShowable_coerce_text operator s
  · unfold coerce
    split
    · exact absurd ⟨_, rfl⟩ hText
    · exact absurd ⟨_, rfl⟩ hText
    · exact h

theorem isShown_build {column token : String} {raw : Value} {isOr : Bool}
    {group : Int} {f : Filter} (h : build column token raw isOr group = .ok f)
    (hRaw : raw.isShowable = true) : f.IsShown := by
  obtain ⟨value, hValue, h⟩ := bind_eq_ok.1 h
  rw [← pure_eq_ok.1 h]
  exact FilterValue.isShowable_of_ofValue hValue (isShowable_coerce _ hRaw)

end Filter

theorem Items.isShown_readFilter {key value : String} {f : Filter}
    (h : readFilter key value = .ok f) : f.IsShown := by
  unfold readFilter at h
  split at h
  · exact absurd h Result.refuse_ne_ok
  · split at h
    · split at h
      · exact absurd h Result.refuse_ne_ok
      · exact Filter.isShown_build h rfl
    · split at h
      · exact Filter.isShown_build h rfl
      · exact Filter.isShown_build h rfl

/-- A filter that is read from a leaf holds texts. -/
theorem Group.Leaf.isShown {connective : Connective} {group : Int}
    {segment : List Char} {f : Filter} (h : Leaf connective group segment f) :
    f.IsShown := by
  have hReads := h.reads
  unfold readFilter at hReads
  split at hReads
  · exact Filter.isShown_build hReads rfl
  · exact absurd hReads Result.refuse_ne_ok

/-! ## Parts of a request -/

namespace Part

/-- The values that a part is given can be shown. -/
def IsShown : Part → Prop
  | entry given => given.value.isShowable = true
  | item _ _ => True
  | range between =>
      between.min.isShowable = true ∧ between.max.isShowable = true
  | group _ _ => True

theorem isShown_of_run {part : Part} {filters : List Filter} {next after : Int}
    (h : part.read.run.run next = (.ok filters, after))
    (hPart : part.IsShown) : ∀ f ∈ filters, f.IsShown := by
  have hOne : ∀ {x : Result Filter}, (∀ f, x = .ok f → f.IsShown) →
      (one x).run.run next = (.ok filters, after) →
        ∀ f ∈ filters, f.IsShown := by
    intro x hBuilt hRun
    obtain ⟨f, m, hFirst, hLast⟩ := Numbering.run_bind_eq_ok.1 hRun
    cases hFirst
    cases hLast
    exact List.forall_mem_singleton.2 (hBuilt f rfl)
  cases part with
  | entry given => exact hOne (fun f hf => Filter.isShown_build hf hPart) h
  | item key value => exact hOne (fun f => Items.isShown_readFilter) h
  | range between =>
      obtain ⟨least, most, hLeast, hMost, rfl, -⟩ :=
        Between.run_expandBetween h
      have hBounds := And.intro
        (FilterValue.isShowable_of_ofValue hLeast hPart.1)
        (FilterValue.isShowable_of_ofValue hMost hPart.2)
      unfold Between.filters
      split
      all_goals
        exact List.forall_mem_cons.2 ⟨hBounds.1,
          List.forall_mem_singleton.2 hBounds.2⟩
  | group connective text =>
      obtain ⟨inner, m, -, hRead⟩ := Numbering.run_bind_eq_ok.1 h
      intro f hf
      obtain ⟨_, _, _, hLeaf⟩ := Group.Leaf.exists_of_mem hRead hf
      exact hLeaf.isShown

theorem Reads.isShown {parts : List Part} {filters : List Filter}
    {next after : Int} (h : Reads parts next filters after)
    (hParts : ∀ part ∈ parts, part.IsShown) : ∀ f ∈ filters, f.IsShown := by
  obtain ⟨segments, hRun, rfl⟩ := h
  intro f hf
  obtain ⟨segment, hSegment, hf⟩ := List.mem_flatten.1 hf
  obtain ⟨part, hPart, first, last, hRead⟩ :=
    Result.exists_of_mem_forall₂ (Numbering.forall₂_of_run_mapM hRun) hSegment
  exact isShown_of_run hRead (hParts part hPart) f hf

end Part

/-! ## Positions and page bounds -/

/-- What a request says of its position can be shown. -/
theorem Cursor.isShowable_resolve {token column : Option String}
    {cursor : Cursor} (h : resolve token column = .ok (some cursor)) :
    cursor.value.isShowable = true := by
  have hToken : ∀ {text : String} {c : Cursor}, ofToken text = .ok c →
      c.value.isShowable = true := by
    intro text c hRead
    unfold ofToken at hRead
    split at hRead
    · exact absurd hRead Result.refuse_ne_ok
    · split at hRead
      · next hDocument =>
          have hShown := Json.isShowable_readBytes hDocument
          unfold ofFields at hRead
          split at hRead
          · split at hRead
            · exact absurd hRead Result.refuse_ne_ok
            · split at hRead
              · next hValue =>
                  split at hRead
                  · rw [← Except.ok.inj hRead]
                    exact Value.isShowable_get? hShown hValue
                  · exact absurd hRead Result.refuse_ne_ok
              · exact absurd hRead Result.refuse_ne_ok
          · exact absurd hRead Result.refuse_ne_ok
      · exact absurd hRead Result.refuse_ne_ok
  unfold resolve at h
  split at h
  · cases h
  · split at h
    · cases h
    · obtain ⟨c, hRead, h⟩ := bind_eq_ok.1 h
      have hShown := hToken hRead
      split at h
      · split at h
        · rwa [← Option.some.inj (pure_eq_ok.1 h)]
        · rw [← Option.some.inj (pure_eq_ok.1 h)]
          exact hShown
      · rwa [← Option.some.inj (pure_eq_ok.1 h)]

namespace Text

theorem isWritable_signed {ds : List Char} (h : ∀ c ∈ ds, c.isDigit = true)
    (hShort : ¬maxIntegerDigits < ds.length) (negative : Bool) :
    isWritable (signed negative (digitsValue ds)) = true :=
  Json.isWritable_digitsValue h hShort negative

/-- An integer that is read from a text can be written. -/
theorem isWritable_of_readInteger {s : String} {n : Int}
    (h : readInteger s = .ok n) : isWritable n = true := by
  rw [readInteger, readAsciiInteger] at h
  dsimp only at h
  split at h
  · cases h
  · next ds hDigits =>
      split at h
      · cases h
      · next hShort =>
          split at h
          · rw [← Except.ok.inj h]
            refine isWritable_signed (fun c hc => ?_) hShort _
            unfold dropUnderscores? at hDigits
            split at hDigits
            · cases hDigits
            · rw [← Option.some.inj hDigits] at hc
              obtain ⟨hMem, hOther⟩ := List.mem_filter.1 hc
              have hInside := List.mem_takeWhile_imp hMem
              simp only [Bool.or_eq_true, beq_iff_eq] at hInside
              exact hInside.resolve_right (by simpa using hOther)
          · cases h

end Text

theorem readBound_isWritable {name value : String} {bound : Option Int}
    (h : readBound name value = .ok bound) :
    ∀ n ∈ bound, Text.isWritable n = true := by
  unfold readBound at h
  split at h
  · rw [← Except.ok.inj h]
    exact nofun
  · split at h
    · next hRead =>
        split at h
        · exact absurd h Result.refuse_ne_ok
        · rw [← Except.ok.inj h]
          rintro m hm
          rw [← Option.some.inj hm]
          exact Text.isWritable_of_readInteger hRead
    · exact absurd h Result.refuse_ne_ok

/-- A clause that may be missing is read as something that can be written. -/
theorem Items.isWritable_clause {items : Items} {name : String}
    {bound : Option Int}
    (h : items.clause name none (readBound name) = .ok bound) :
    ∀ n ∈ bound, Text.isWritable n = true := by
  unfold clause at h
  split at h
  · exact readBound_isWritable h
  · rw [← Except.ok.inj h]
    exact nofun

theorem IntegerText.isWritable_of_literal {cs : List Char} {n : Int}
    (h : literal cs = .ok n) : Text.isWritable n = true := by
  have hBody : ∀ {negative : Bool} {body : List Char},
      body.length ≤ cs.length →
      (if Text.maxIntegerDigits < cs.length - (Text.spanDigits body).2.length
        then .error .tooLarge
        else if (Text.spanDigits body).1.isEmpty ||
            !(Text.spanDigits body).2.isEmpty then .error .malformedInteger
        else .ok (Text.signed negative
          (Text.digitsValue (Text.spanDigits body).1)) : Shaped Int) = .ok n →
      Text.isWritable n = true := by
    intro negative body hLength hRead
    split at hRead
    · cases hRead
    · next hShort =>
        split at hRead
        · cases hRead
        · rw [← Except.ok.inj hRead]
          refine Text.isWritable_signed
            (fun c hc => List.mem_takeWhile_imp hc) ?_ negative
          have hSplit := congrArg List.length
            (List.takeWhile_append_dropWhile (p := Char.isDigit) (l := body))
          rw [List.length_append] at hSplit
          simp only [Text.spanDigits] at hShort ⊢
          omega
  unfold literal at h
  split at h
  rename_i negative body hSign
  have hLength : body.length ≤ cs.length := by
    split at hSign
    · rw [← (Prod.mk.inj hSign).2]
      exact Nat.le_succ _
    · rw [← (Prod.mk.inj hSign).2]
  split at h
  · rw [← Except.ok.inj h]
    exact Text.isWritable_iff.2 (by decide)
  · cases h
  · exact hBody hLength h

/-- An integer that a document gives as text can be written. -/
theorem IntegerText.isWritable_of_read {s : String} {n : Int}
    (h : read s = .ok n) : Text.isWritable n = true := by
  unfold read at h
  split at h
  · split at h
    · next hLiteral =>
        obtain ⟨cs, -, hRead⟩ := Option.map_eq_some_iff.1 hLiteral
        rw [← Except.ok.inj h]
        exact isWritable_of_literal hRead
    · cases h
  · exact isWritable_of_literal h

namespace Shape

/-- Integers of 64 bits can be written. -/
theorem isWritable_of_wholeInt64? {x : Number.Binary64} {n : Int}
    (h : wholeInt64? x = some n) : Text.isWritable n = true := by
  unfold wholeInt64? at h
  split at h
  · obtain ⟨hLow, hHigh⟩ :=
      Bool.and_eq_true_iff.1 (Option.filter_eq_some_iff.1 h).2
    have hLeast := of_decide_eq_true hLow
    have hMost := of_decide_eq_true hHigh
    unfold minInt64 at hLeast
    unfold maxInt64 at hMost
    have hDigits : (Text.natDigits n.natAbs).length ≤ 20 :=
      (Nat.length_toDigits_le_iff (by decide) (by decide)).2 (by omega)
    exact Text.isWritable_iff.2 (hDigits.trans (by decide))
  · cases h

theorem isWritable_of_integer {v : Value} {n : Int} (h : integer v = .ok n)
    (hShown : v.isShowable = true) : Text.isWritable n = true := by
  unfold integer at h
  split at h
  · rw [← Except.ok.inj h]
    exact Value.isShowable_int.1 hShown
  · rw [← Except.ok.inj h]
    split
    all_goals exact Text.isWritable_iff.2 (by decide)
  · exact IntegerText.isWritable_of_read h
  · split at h
    · cases h
    · split at h
      · cases h
      · split at h
        · next hWhole =>
            rw [← Except.ok.inj h]
            exact isWritable_of_wholeInt64? hWhole
        · cases h
  · cases h

theorem isWritable_of_bound {v : Value} {n : Nat} (h : bound v = .ok n)
    (hShown : v.isShowable = true) : Text.isWritable (n : Int) = true := by
  obtain ⟨i, hRead, h⟩ := bind_eq_ok.1 h
  split at h
  · cases h
  · next hPositive =>
      rw [← Except.ok.inj h, Int.toNat_of_nonneg (Int.not_lt.1 hPositive)]
      exact isWritable_of_integer hRead hShown

variable {fields : Fields} {name : String}

/-- A page bound that may be missing. -/
theorem isWritable_of_optionalBound {found : Option Nat}
    (hShown : (Value.object fields).isShowable = true)
    (h : optionalField fields name none (optional bound) = .ok found) :
    ∀ n ∈ found, Text.isWritable (n : Int) = true := by
  unfold optionalField at h
  split at h
  · next v hField =>
      have hValue := Value.isShowable_get? hShown hField
      unfold optional at h
      split at h
      · rw [← Except.ok.inj h]
        exact nofun
      · obtain ⟨m, hBound, rfl⟩ := Result.map_eq_ok.1 h
        rintro n hn
        rw [← Option.some.inj hn]
        exact isWritable_of_bound hBound hValue
  · rw [← Except.ok.inj h]
    exact nofun

/-- A list that may be missing, of items that are read one by one. -/
theorem forall_of_optionalList {α : Type} {item : Value → Shaped α}
    {P : α → Prop} {xs : List α}
    (hItem : ∀ {v x}, item v = .ok x → v.isShowable = true → P x)
    (hShown : (Value.object fields).isShowable = true)
    (h : optionalField fields name [] (listOf item) = .ok xs) :
    ∀ x ∈ xs, P x := by
  unfold optionalField at h
  split at h
  · next v hField =>
      have hValue := Value.isShowable_get? hShown hField
      unfold listOf at h
      split at h
      · intro x hx
        obtain ⟨v, hMem, hv⟩ := Result.exists_of_mem_mapM h hx
        exact hItem hv (Value.isShowable_list.1 hValue v hMem)
      · cases h
  · rw [← Except.ok.inj h]
    exact List.forall_mem_nil _

theorem eq_object_of_objectOf {model : String} {value : Value}
    (h : objectOf model value = .ok fields) : value = .object fields := by
  unfold objectOf at h
  split at h
  · rw [Except.ok.inj h]
  · cases h

/-- A field that must be there holds what can be shown. -/
theorem isShowable_of_required {v : Value}
    (hShown : (Value.object fields).isShowable = true)
    (h : required fields name .ok = .ok v) : v.isShowable = true := by
  unfold required at h
  split at h
  · next hField =>
      rw [← Except.ok.inj h]
      exact Value.isShowable_get? hShown hField
  · cases h

end Shape

open Shape in
theorem FilterEntry.isShowable_of_ofValue {value : Value} {entry : FilterEntry}
    (h : ofValue value = .ok entry) (hShown : value.isShowable = true) :
    entry.value.isShowable = true := by
  obtain ⟨fields, hFields, hRead⟩ := bind_eq_ok.1 h
  obtain rfl := eq_object_of_objectOf hFields
  obtain ⟨column, -, hRead⟩ := bind_eq_ok.1 hRead
  obtain ⟨operator, -, hRead⟩ := bind_eq_ok.1 hRead
  rw [← pure_eq_ok.1 hRead]
  cases hField : fields.get? "value" with
  | none => rfl
  | some v => exact Value.isShowable_get? hShown hField

open Shape in
theorem Between.isShowable_of_ofValue {value : Value} {between : Between}
    (h : ofValue value = .ok between) (hShown : value.isShowable = true) :
    between.min.isShowable = true ∧ between.max.isShowable = true := by
  obtain ⟨fields, hFields, hRead⟩ := bind_eq_ok.1 h
  obtain rfl := eq_object_of_objectOf hFields
  obtain ⟨column, -, hRead⟩ := bind_eq_ok.1 hRead
  obtain ⟨least, hLeast, hRead⟩ := bind_eq_ok.1 hRead
  obtain ⟨most, hMost, hRead⟩ := bind_eq_ok.1 hRead
  obtain ⟨negated, -, hRead⟩ := bind_eq_ok.1 hRead
  rw [← pure_eq_ok.1 hRead]
  exact ⟨isShowable_of_required hShown hLeast,
    isShowable_of_required hShown hMost⟩

/-! ## Requests -/

/-- What a request holds can be shown. -/
structure Params.IsShown (params : Params) : Prop where
  filters : ∀ f ∈ params.filters, f.IsShown
  cursor : ∀ c ∈ params.cursor, c.value.isShowable = true
  limit : ∀ n ∈ params.limit, Text.isWritable n = true
  offset : ∀ n ∈ params.offset, Text.isWritable n = true

/-- What a query string compiles to can be shown. -/
theorem Items.isShown_compile {items : Items} {params : Params}
    (h : items.compile = .ok params) : params.IsShown := by
  obtain ⟨after, hReads⟩ := reads_of_compile h
  have hParts : ∀ part ∈ items.parts, part.IsShown := by
    intro part hPart
    rcases List.mem_append.1 hPart with hItem | hGroup
    · obtain ⟨item, -, rfl⟩ := List.mem_map.1 hItem
      trivial
    · obtain ⟨group, -, rfl⟩ := List.mem_map.1 hGroup
      trivial
  have hFilters := hReads.isShown hParts
  obtain ⟨selection, -, h⟩ := bind_eq_ok.1 h
  obtain ⟨plain, -, h⟩ := bind_eq_ok.1 h
  obtain ⟨grouped, -, h⟩ := bind_eq_ok.1 h
  obtain ⟨column, -, h⟩ := bind_eq_ok.1 h
  obtain ⟨order, -, h⟩ := bind_eq_ok.1 h
  obtain ⟨limit, hLimit, h⟩ := bind_eq_ok.1 h
  obtain ⟨offset, hOffset, h⟩ := bind_eq_ok.1 h
  obtain ⟨count, -, h⟩ := bind_eq_ok.1 h
  obtain ⟨cursor, hCursor, h⟩ := bind_eq_ok.1 h
  obtain rfl := pure_eq_ok.1 h
  refine ⟨hFilters, fun c hc => ?_, isWritable_clause hLimit,
    isWritable_clause hOffset⟩
  exact Cursor.isShowable_resolve (hCursor.trans (congrArg Except.ok hc))

namespace Document

/-- The values and page bounds of a document can be shown. -/
structure IsShown (document : Document) : Prop where
  filters : ∀ entry ∈ document.filters, entry.value.isShowable = true
  betweens : ∀ between ∈ document.betweens,
    between.min.isShowable = true ∧ between.max.isShowable = true
  limit : ∀ n ∈ document.limit, Text.isWritable (n : Int) = true
  offset : ∀ n ∈ document.offset, Text.isWritable (n : Int) = true

/-- What a query document compiles to can be shown. -/
theorem isShown_compile {document : Document} {params : Params}
    (h : document.compile = .ok params) (hShown : document.IsShown) :
    params.IsShown := by
  obtain ⟨after, hReads⟩ := reads_of_compile h
  have hParts : ∀ part ∈ document.parts, part.IsShown := by
    intro part hPart
    simp only [parts, List.mem_append, List.mem_map] at hPart
    rcases hPart with (⟨entry, hEntry, rfl⟩ | ⟨between, hBetween, rfl⟩) |
      (⟨text, -, rfl⟩ | ⟨text, -, rfl⟩)
    · exact hShown.filters entry hEntry
    · exact hShown.betweens between hBetween
    · trivial
    · trivial
  have hFilters := hReads.isShown hParts
  rw [compile_eq] at h
  obtain ⟨selection, -, h⟩ := bind_eq_ok.1 h
  obtain ⟨filters, -, h⟩ := bind_eq_ok.1 h
  obtain ⟨column, -, h⟩ := bind_eq_ok.1 h
  obtain ⟨count, -, h⟩ := bind_eq_ok.1 h
  obtain ⟨cursor, hCursor, h⟩ := bind_eq_ok.1 h
  obtain rfl := pure_eq_ok.1 h
  refine ⟨hFilters, fun c hc => ?_, ?_, ?_⟩
  · exact Cursor.isShowable_resolve (hCursor.trans (congrArg Except.ok hc))
  · exact Option.forall_mem_map.2 hShown.limit
  · exact Option.forall_mem_map.2 hShown.offset

open Shape in
/-- What is read from a value that can be shown can be shown. -/
theorem isShown_of_ofValue {value : Value} {document : Document}
    (h : ofValue value = .ok document) (hShown : value.isShowable = true) :
    document.IsShown := by
  obtain ⟨fields, hFields, hRead⟩ := bind_eq_ok.1 h
  obtain rfl := eq_object_of_objectOf hFields
  obtain ⟨select, -, hRead⟩ := bind_eq_ok.1 hRead
  obtain ⟨filters, hFilters, hRead⟩ := bind_eq_ok.1 hRead
  obtain ⟨orFilters, -, hRead⟩ := bind_eq_ok.1 hRead
  obtain ⟨andFilters, -, hRead⟩ := bind_eq_ok.1 hRead
  obtain ⟨betweens, hBetweens, hRead⟩ := bind_eq_ok.1 hRead
  obtain ⟨order, -, hRead⟩ := bind_eq_ok.1 hRead
  obtain ⟨limit, hLimit, hRead⟩ := bind_eq_ok.1 hRead
  obtain ⟨offset, hOffset, hRead⟩ := bind_eq_ok.1 hRead
  obtain ⟨count, -, hRead⟩ := bind_eq_ok.1 hRead
  obtain ⟨groupBy, -, hRead⟩ := bind_eq_ok.1 hRead
  obtain ⟨cursor, -, hRead⟩ := bind_eq_ok.1 hRead
  obtain ⟨cursorColumn, -, hRead⟩ := bind_eq_ok.1 hRead
  obtain rfl := pure_eq_ok.1 hRead
  exact {
    filters := forall_of_optionalList FilterEntry.isShowable_of_ofValue hShown
      hFilters
    betweens := forall_of_optionalList Between.isShowable_of_ofValue hShown
      hBetweens
    limit := isWritable_of_optionalBound hShown hLimit
    offset := isWritable_of_optionalBound hShown hOffset }

end Document

end TableGate
