import TableGate.Proofs.Encoding
import TableGate.Proofs.Result
import TableGate.Query.Document

/-!
# Query strings and their items

Items are read one by one: those of two query strings with an ampersand
between them are the items of both. A text of plain characters stands for
itself, so it may be put into a query string as it is.

Compiling looks at the first value of most keys. Where one key is concerned,
the others are seen as if its items were not there.

## Main results

* `ofQueryString_append`: a query string is read part by part.
* `ofQueryString_item`: an item of plain characters is read as it is written.
* `compile_without`, `Document.compile_without`: a request says what it says
  without its cursor, and the cursor.
-/

namespace TableGate.Items

open Result (bind_eq_ok mapM_eq_ok pure_eq_ok)

/-! ## Plain characters -/

/-- Characters that stand for themselves in a query string and end no item. -/
structure IsPlain (cs : List Char) : Prop where
  ascii : Encoding.IsAscii cs
  unescaped : ∀ c ∈ cs, c ∉ ['%', '+', '&']

instance (cs : List Char) : Decidable (IsPlain cs) :=
  letI := List.decidableBAll (· ∉ ['%', '+', '&']) cs
  decidable_of_iff (Encoding.IsAscii cs ∧ ∀ c ∈ cs, c ∉ ['%', '+', '&'])
    ⟨fun h => ⟨h.1, h.2⟩, fun h => ⟨h.ascii, h.unescaped⟩⟩

theorem escapesComplete_of_notMem {cs : List Char} (h : '%' ∉ cs) :
    escapesComplete cs = true := by
  induction cs with
  | nil => rfl
  | cons c rest ih =>
      have hRest := ih fun hMem => h (List.mem_cons_of_mem c hMem)
      rw [escapesComplete, hRest]
      rintro rfl
      exact h List.mem_cons_self

theorem unescape_of_isPlain {cs : List Char} (h : IsPlain cs) :
    unescape cs = Encoding.Utf8.encode cs := by
  induction cs with
  | nil => rfl
  | cons c rest ih =>
      have hRest := ih ⟨fun d hd => h.ascii d (List.mem_cons_of_mem c hd),
        fun d hd => h.unescaped d (List.mem_cons_of_mem c hd)⟩
      have hHere := h.unescaped c List.mem_cons_self
      rw [unescape, hRest]
      · rfl
      · rintro a b later rfl -
        exact hHere (by decide)
      · rintro rfl
        exact hHere (by decide)

/-- Plain characters stand for themselves. -/
theorem decodeText_of_isPlain {cs : List Char} (h : IsPlain cs) :
    decodeText cs = .ok (.ofList cs) := by
  rw [decodeText, unescape_of_isPlain h, Encoding.Utf8.decode_encode]

theorem decodeItem_of_isPlain {key value : List Char} (hKey : IsPlain key)
    (hMark : '=' ∉ key) (hValue : IsPlain value) :
    decodeItem (key ++ '=' :: value) = .ok (.ofList key, .ofList value) := by
  rw [decodeItem, Text.cut?_eq_some_iff.2 ⟨rfl, hMark⟩]
  simp only [Option.getD_some, decodeText_of_isPlain hKey,
    decodeText_of_isPlain hValue]
  rfl

/-! ## Reading part by part -/

/-- An escape does not reach over the end of a text without broken ones. -/
theorem escapesComplete_append {a : List Char}
    (h : escapesComplete a = true) (b : List Char) :
    escapesComplete (a ++ b) = escapesComplete b := by
  induction a using escapesComplete.induct with
  | case1 => rfl
  | case2 rest ih =>
      rw [escapesComplete, Bool.and_eq_true, Bool.and_eq_true, beq_iff_eq] at h
      obtain ⟨⟨hLength, hDigits⟩, hRest⟩ := h
      have hTake : (rest ++ b).take 2 = rest.take 2 :=
        List.take_append_of_le_length (by rw [List.length_take] at hLength; omega)
      rw [List.cons_append, escapesComplete, hTake, hLength, hDigits, ih hRest]
      rfl
  | case3 c rest hOther ih =>
      rw [escapesComplete] at h
      · rw [List.cons_append, escapesComplete, ih h]
        exact hOther
      · exact hOther

/-- A query string is read part by part. -/
theorem ofQueryString_append {a b : String} {first second : Items}
    (ha : ofQueryString a = .ok first) (hb : ofQueryString b = .ok second) :
    ofQueryString (a ++ "&" ++ b) = .ok (first ++ second) := by
  have hText : (a ++ "&" ++ b).toList = a.toList ++ '&' :: b.toList := by simp
  unfold ofQueryString at ha hb ⊢
  split at ha
  · next hFirst =>
      split at hb
      · next hSecond =>
          have hComplete : escapesComplete (a ++ "&" ++ b).toList = true := by
            rw [hText, escapesComplete_append hFirst, escapesComplete, hSecond]
            decide
          rw [if_pos hComplete, hText, Text.splitOn_append, List.filter_append,
            mapM_eq_ok]
          exact List.rel_append (mapM_eq_ok.1 ha) (mapM_eq_ok.1 hb)
      · exact absurd hb Result.refuse_ne_ok
  · exact absurd ha Result.refuse_ne_ok

/-- An item of plain characters is read as it is written. -/
theorem ofQueryString_item {key value : String} (hKey : IsPlain key.toList)
    (hMark : '=' ∉ key.toList) (hValue : IsPlain value.toList) :
    ofQueryString (key ++ "=" ++ value) = .ok [(key, value)] := by
  have hText : (key ++ "=" ++ value).toList =
      key.toList ++ '=' :: value.toList := by simp
  have hNone : ∀ c ∈ ['%', '&'], c ∉ (key ++ "=" ++ value).toList := by
    intro c hc hMem
    have hIn : c ∈ ['%', '+', '&'] := by
      simp only [List.mem_cons, List.not_mem_nil, or_false] at hc ⊢
      tauto
    rw [hText] at hMem
    rcases List.mem_append.1 hMem with hMem | hMem
    · exact hKey.unescaped c hMem hIn
    · rcases List.mem_cons.1 hMem with rfl | hMem
      · exact absurd hc (by decide)
      · exact hValue.unescaped c hMem hIn
  have hItem : decodeItem (key ++ "=" ++ value).toList = .ok (key, value) := by
    rw [hText, decodeItem_of_isPlain hKey hMark hValue, String.ofList_toList,
      String.ofList_toList]
  have hSome : (key ++ "=" ++ value).toList.isEmpty = false := by simp [hText]
  rw [ofQueryString, if_pos (escapesComplete_of_notMem (hNone '%' (by decide))),
    Text.splitOn_of_not_mem (hNone '&' (by decide)), List.filter_cons,
    hSome, mapM_eq_ok]
  exact .cons hItem .nil

/-! ## The items of other keys -/

/-- The items whose key is another. -/
def without (items : Items) (key : String) : Items :=
  items.filter fun item => item.1 != key

/-- What a query string says about its position. -/
theorem cursor_of_compile {items : Items} {params : Params}
    (h : items.compile = .ok params) :
    Cursor.readColumn (items.first? "cursor_column") =
      .ok params.cursorColumn ∧
    Cursor.resolve (items.first? "cursor") params.cursorColumn =
      .ok params.cursor := by
  obtain ⟨selection, -, h⟩ := bind_eq_ok.1 h
  obtain ⟨plain, -, h⟩ := bind_eq_ok.1 h
  obtain ⟨grouped, -, h⟩ := bind_eq_ok.1 h
  obtain ⟨column, hColumn, h⟩ := bind_eq_ok.1 h
  obtain ⟨order, -, h⟩ := bind_eq_ok.1 h
  obtain ⟨limit, -, h⟩ := bind_eq_ok.1 h
  obtain ⟨offset, -, h⟩ := bind_eq_ok.1 h
  obtain ⟨count, -, h⟩ := bind_eq_ok.1 h
  obtain ⟨cursor, hCursor, h⟩ := bind_eq_ok.1 h
  rw [← pure_eq_ok.1 h]
  exact ⟨hColumn, hCursor⟩

end TableGate.Items

namespace TableGate.Document

open Result (bind_eq_ok pure_eq_ok)

/-- The count type of a document. -/
def countType (document : Document) : Result (Option CountType) :=
  match document.count with
  | some token => CountType.read token
  | none => .ok none

/-- The steps of compiling, the count type in one. -/
theorem compile_eq (document : Document) :
    document.compile = (do
      let selection ← Selection.read document.select
      let filters ← Items.fromOne document.compileFilters
      let cursorColumn ← Cursor.readColumn document.cursorColumn
      let count ← document.countType
      let cursor ← Cursor.resolve document.cursor cursorColumn
      return {
        select := selection.columns
        aggregations := selection.aggregations
        filters, count, cursor, cursorColumn
        order := document.order.map orderBy
        limit := document.limit.map Int.ofNat
        offset := document.offset.map Int.ofNat
        groupBy := (document.groupBy.map Text.trim).filter (· != "") }) := by
  rw [compile, countType]
  cases document.count <;> rfl

/-- What a document says about its position. -/
theorem cursor_of_compile {document : Document} {params : Params}
    (h : document.compile = .ok params) :
    Cursor.readColumn document.cursorColumn = .ok params.cursorColumn ∧
    Cursor.resolve document.cursor params.cursorColumn =
      .ok params.cursor := by
  rw [compile_eq] at h
  obtain ⟨selection, -, h⟩ := bind_eq_ok.1 h
  obtain ⟨filters, -, h⟩ := bind_eq_ok.1 h
  obtain ⟨column, hColumn, h⟩ := bind_eq_ok.1 h
  obtain ⟨count, -, h⟩ := bind_eq_ok.1 h
  obtain ⟨cursor, hCursor, h⟩ := bind_eq_ok.1 h
  rw [← pure_eq_ok.1 h]
  exact ⟨hColumn, hCursor⟩

end TableGate.Document
