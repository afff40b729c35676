import TableGate.Proofs.Cursor
import TableGate.Proofs.Http.Cells
import TableGate.Proofs.Http.PageBounds
import TableGate.Proofs.Http.WriteRoutes
import TableGate.Proofs.Json.Unpaired
import TableGate.Proofs.Query.Agreement

/-!
# Whose fault a failure is

A status from 500 upwards says that a failure is not the client's. So as long
as the database does what it is asked to do, no request should be answered
with one, whatever its method, path, headers, query string and body hold. What
it takes of the database is said of the statements that were sent, one after
the other, with their answers.

A client alone does cause a failure where the last place of a page is written
in a header: from an offset as large as is still read it may have a digit too
many. All other requests are answered below 500, those apart whose documents
hold half of a surrogate pair alone: no text holds that, so nothing is said of
them.

## Main results

* `Obliging.rowsAs`, `Obliging.countAs`, `Obliging.planAs`: what is read off
  the answers of a database that does what it is asked to do.
* `Engine.Serves.answer_answered`: at every route the answer is below 500.
* `Engine.respond_no_server_error`: every request whose pages have places that
  can be written is answered below 500.
* `Engine.answerPage_tooLong`: a page whose last place is too long is not.
-/

namespace TableGate

open Http (Operation Request Response)
open Result (FailsOnly OnlyRefuses)
open Sql (PreparedStatement)

variable {δ α : Type}

/-- What is refused is the client's fault. -/
theorem Result.OnlyRefuses.belowServer {x : Result α} (h : OnlyRefuses x) :
    FailsOnly (·.status < 500) x :=
  h.failsOnly fun _ => by simp [Error.status]

/-! ## A database that does what it is asked to do -/

/-- What a statement is answered with by a database that does what it is asked
to do: all rows arrive and hold plain cells, a count is an integer, and a plan
carries an integer for its rows. -/
structure Obliges (p : PreparedStatement) (result : QueryResult) : Prop where
  arrives : result.failure = none
  plain : p.explains = false → result.IsPlain
  counted : p.counts = true →
    ∃ n, result.scalar = .ok (.int n) ∧ Text.isWritable n = true
  planned : p.explains = true →
    ∃ answer plan n, result.scalar = .ok answer ∧
      readPlan answer = .ok plan ∧ planRows? plan = some (.int n) ∧
        Text.isWritable n = true

/-- Statements are executed and answered so, with numbers of rows that fit. -/
def Obliging (fits : Nat → Prop) : Manner := fun p answer =>
  ∃ result, answer = .ok result ∧ Obliges p result ∧ fits result.rows.length

namespace Obliging

variable {engine : Engine δ} {fits : Nat → Prop} {E : Error → Prop}
  {s : Sql.Statement}

/-- Rows that JSON knows, as many as fit. -/
def Rows (fits : Nat → Prop) (rows : List Row) : Prop :=
  RowsAreJson rows ∧ fits rows.length

theorem exactTotal_int (n : Int) : exactTotal (.int n) = .ok n := by
  unfold exactTotal
  split
  · next hZero => rw [beq_iff_eq.1 hZero]
  · rfl

theorem single_eq_ok {result : QueryResult} {value : Value}
    (h : result.scalar = .ok value) : result.single = .ok value := by
  rw [QueryResult.single, h]

section Shown

-- A statement is held back only by a log that is to show it and cannot.
variable (hShown : engine.config.logSql = true → s.IsShown)
include hShown

theorem readAs {read : QueryResult → Result α} {P : α → Prop}
    (h : ∀ result, Obliges s.prepare result → fits result.rows.length →
      Result.Ends P E (read result)) :
    (Obliging fits).ReadAs engine read P E s where
  unshown hUnshown := absurd hUnshown (hShown hUnshown.1).not_unshown
  answered := by
    rintro answer ⟨result, rfl, hObliges, hFits⟩
    exact h result hObliges hFits

theorem rowsAs {w : Sql.Word} (h : s.Opens w) (hw : w ∈ Sql.openings) :
    (Obliging fits).RowsAs engine (Rows fits) E s := by
  refine readAs hShown fun result hObliges hFits => ?_
  have hRows : result.decodeRows =
      .ok (result.rows.map (decodeRow result.keys)) := by
    rw [QueryResult.decodeRows, hObliges.arrives]
  have hPlain := hObliges.plain (h.explains_eq_false hw)
  refine .of_eq_ok hRows ⟨hPlain.rowsAreJson hRows, ?_⟩
  rwa [List.length_map]

theorem countAs (h : s.prepare.counts = true) :
    (Obliging fits).ReadAs engine QueryResult.count
      (Text.isWritable · = true) E s := by
  refine readAs hShown fun result hObliges _ => ?_
  obtain ⟨n, hScalar, hWritable⟩ := hObliges.counted h
  exact .of_eq_ok (Result.bind_eq_ok.2
    ⟨_, single_eq_ok hScalar, exactTotal_int n⟩) hWritable

theorem planAs (h : s.prepare.explains = true) :
    (Obliging fits).ReadAs engine QueryResult.estimate
      (Text.isWritable · = true) E s := by
  refine readAs hShown fun result hObliges _ => ?_
  obtain ⟨answer, plan, n, hScalar, hPlan, hRows, hWritable⟩ :=
    hObliges.planned h
  refine .of_eq_ok (Result.bind_eq_ok.2 ⟨_, single_eq_ok hScalar,
    Result.bind_eq_ok.2 ⟨plan, hPlan, ?_⟩⟩) hWritable
  rw [hRows]
  rfl

end Shown

end Obliging

/-! ## Replies -/

/-- The last place of a page of so many rows. -/
def lastPlace (offset : Option Int) (count : Nat) : Int :=
  offset.getD 0 + ((count - 1 : Nat) : Int)

namespace Http

theorem lastPlace_eq (offset : Option Int) (count : Nat) :
    (if (0 : Int) < count then offset.getD 0 + count - 1 else offset.getD 0) =
      lastPlace offset count := by
  unfold lastPlace
  split <;> omega

theorem headerNumber_eq {i : Int} (h : Text.isWritable i = true) :
    headerNumber i = .ok (Text.intText i) := if_pos h

/-- A page with places that can be written has a range. -/
theorem exists_contentRange {offset total : Option Int} {count : Nat}
    (hOffset : ∀ n ∈ offset, 0 ≤ n)
    (hLast : Text.isWritable (lastPlace offset count) = true)
    (hTotal : ∀ n ∈ total, Text.isWritable n = true) :
    ∃ range, contentRange offset count total = .ok range := by
  have hStart : 0 ≤ offset.getD 0 := by
    cases offset with
    | none => decide
    | some n => exact hOffset n rfl
  have hFirst : Text.isWritable (offset.getD 0) = true :=
    Text.isWritable_of_natAbs_le (by unfold lastPlace; omega) hLast
  unfold contentRange
  dsimp only
  rw [lastPlace_eq, headerNumber_eq hFirst, headerNumber_eq hLast]
  cases total with
  | none => exact ⟨_, rfl⟩
  | some n =>
      dsimp only
      rw [headerNumber_eq (hTotal n rfl)]
      exact ⟨_, rfl⟩

/-- A range is written only if the last place of the page is. -/
theorem isWritable_of_contentRange {offset total : Option Int} {count : Nat}
    {range : String} (h : contentRange offset count total = .ok range) :
    Text.isWritable (lastPlace offset count) = true := by
  have hNumbers : ∀ x : Result String, (do
      let last ← x
      return (← headerNumber (offset.getD 0)) ++ "-" ++
        (← headerNumber (lastPlace offset count)) ++ "/" ++ last) =
      .ok range → Text.isWritable (lastPlace offset count) = true := by
    intro x h
    obtain ⟨last, -, h⟩ := Result.bind_eq_ok.1 h
    obtain ⟨first, -, h⟩ := Result.bind_eq_ok.1 h
    obtain ⟨stop, hStop, -⟩ := Result.bind_eq_ok.1 h
    unfold headerNumber at hStop
    split at hStop
    · next hWritable => exact hWritable
    · cases hStop
  unfold contentRange at h
  dsimp only at h
  rw [lastPlace_eq] at h
  cases total with
  | none => exact hNumbers _ h
  | some n => exact hNumbers _ h

/-- The link of a page whose rows JSON knows has a token. -/
theorem token_eq_of_nextCursor {params : Params} {rows : List Row}
    {limit : Option Int} {cursor : Cursor} (hRows : RowsAreJson rows)
    (h : params.nextCursor rows limit = some cursor) :
    cursor.token = .ok cursor.tokenText := by
  obtain ⟨column, row, value, -, hLast, hValue, -, rfl⟩ :=
    Params.of_nextCursor h
  obtain ⟨field, hField, rfl⟩ := Option.map_eq_some_iff.1 hValue
  refine Cursor.token_eq ?_
  cases hRows row (List.mem_of_getLast? hLast) with
  | object hFields _ => exact hFields field (List.mem_of_find?_eq_some hField)

theorem exists_pageReply {params : Params} {page : ReadResult}
    (hRange : ∃ range, contentRange params.offset page.rows.length page.total =
      .ok range) (hRows : RowsAreJson page.rows) :
    ∃ response, pageReply params page = .ok response ∧
      response.status < 500 := by
  obtain ⟨range, hRange⟩ := hRange
  obtain ⟨headers, hHeaders⟩ : ∃ headers,
      pageHeaders params page = .ok headers := by
    unfold pageHeaders
    rw [hRange]
    cases hNext : params.nextCursor page.rows params.limit with
    | none => exact ⟨_, rfl⟩
    | some cursor =>
        exact ⟨_, Result.bind_eq_ok.2 ⟨range, rfl, Result.bind_eq_ok.2
          ⟨_, token_eq_of_nextCursor hRows hNext, rfl⟩⟩⟩
  obtain ⟨response, hReply, hStatus⟩ := exists_ofValue hRows.list 200 headers
  refine ⟨response, Result.bind_eq_ok.2 ⟨headers, hHeaders, hReply⟩, ?_⟩
  rw [hStatus]
  decide

/-- A page whose last place is too long to be written has no reply. -/
theorem pageReply_tooLong {params : Params} {page : ReadResult}
    (hLast : ¬Text.isWritable (lastPlace params.offset page.rows.length)) :
    pageReply params page = .error (.unexpected .integerTooLong) := by
  unfold pageReply pageHeaders
  cases hRange : contentRange params.offset page.rows.length page.total with
  | ok range => exact absurd (isWritable_of_contentRange hRange) hLast
  | error e =>
      rw [contentRange_failsOnly _ _ _ e hRange]
      rfl

theorem exists_writeReply {rows : List Row} (hRows : RowsAreJson rows)
    (operation : Operation) (mode : ReturnMode) (single : Bool) :
    ∃ response, writeReply operation mode single rows = .ok response ∧
      response.status < 500 := by
  have hStatus : operation.status mode < 500 :=
    (operation.status_lt mode).trans (by decide)
  unfold writeReply
  dsimp only
  split
  · obtain ⟨response, hReply, hSame⟩ := exists_ofValue (hRows.written single)
      (operation.status mode) (mutationHeaders rows.length)
    exact ⟨response, hReply, hSame ▸ hStatus⟩
  · exact ⟨_, rfl, hStatus⟩

end Http

/-! ## Requests -/

namespace Engine

variable {engine : Engine δ} {fits : Nat → Prop}

/-- The status of an answer to the client is below 500. -/
abbrev Answered (engine : Engine δ) (fits : Nat → Prop) (H : Prop)
    (task : Task δ Response) : Prop :=
  Task.Ends engine.database (Obliging fits) H (·.status < 500) (·.status < 500)
    task

/-- What replies are made of rows that JSON knows. -/
theorem lift_answered {H : Prop} {x : Result Response}
    (h : H → ∃ response, x = .ok response ∧ response.status < 500) :
    Answered engine fits H (Task.lift x) := by
  refine .lift fun hPremise => ?_
  obtain ⟨response, hReply, hStatus⟩ := h hPremise
  exact .of_eq_ok hReply hStatus

theorem writeReply_answered (operation : Operation) (mode : ReturnMode)
    (single : Bool) (rows : List Row) :
    Answered engine fits (Obliging.Rows fits rows)
      (Task.lift (Http.writeReply operation mode single rows)) :=
  lift_answered fun hRows =>
    Http.exists_writeReply hRows.1 operation mode single

theorem status_invalid (cause : Invalid) : (Error.invalid cause).status < 500 :=
  by simp [Error.status]

/-- The database opens and commits its transactions, and the log can show the
pages that it is to show. -/
structure Serves (engine : Engine δ) : Prop where
  opens : ∀ state, engine.database.opens state = none
  commits : ∀ state, engine.database.commits state = none
  showsPages : engine.config.ShowsPages

namespace Serves

variable (hServes : engine.Serves)
include hServes

theorem settles (E : Error → Prop) : engine.database.Settles E where
  opens h := absurd ((hServes.opens _).symm.trans h) nofun
  commits h := absurd ((hServes.commits _).symm.trans h) nofun

/-- The log can show the page that is served for what can be shown. -/
theorem isShown_page (hLog : engine.config.logSql = true) {params : Params}
    (h : params.IsShown) (prefs : Preferences) :
    (Http.paginate engine.config.pagination params prefs).IsShown :=
  have hPages := hServes.showsPages hLog
  h.paginate hPages.1 hPages.2 prefs

/-- A page that is read is answered, if its places can be written. -/
theorem answerPage_answered {H : Prop} {table : Table} {request : Request}
    {read : Request → Result Params} (hRead : OnlyRefuses (read request))
    (hShown : ∀ params, read request = .ok params → params.IsShown)
    (hOffset : ∀ params, read request = .ok params →
      ∀ n ∈ params.offset, 0 ≤ n)
    (hPlaces : ∀ params, read request = .ok params → ∀ count, fits count →
      Text.isWritable (lastPlace params.offset count) = true) :
    Answered engine fits H (engine.answerPage table request read) := by
  refine .lift_bind hRead.belowServer fun params hParams => ?_
  have hTests : ¬Sql.TestsUnshown params.filters :=
    Sql.not_testsUnshown (hShown params hParams).filters
  have hPage := fun hLog =>
    hServes.isShown_page hLog (hShown params hParams) request.preferences
  refine (select_ends
    (fun _ hs => Obliging.countAs
      (fun hLog => Sql.count_isShown (hPage hLog) hs) (Sql.count_counts hs))
    (fun _ hs => Obliging.planAs
      (fun hLog => Sql.explain_isShown (hPage hLog) hs)
      (Sql.explain_explains hs))
    (hServes.settles _)
    (Params.validate_onlyRefuses _ _).belowServer
    (Sql.select_failsOnly status_invalid table fun h => absurd h hTests)
    (totalPlan_failsOnly status_invalid table fun h => absurd h hTests)
    fun _ hs => Obliging.rowsAs
      (fun hLog => Sql.select_isShown (hPage hLog) hs)
      (Sql.select_opens hs) (by decide)).bind fun page => ?_
  refine lift_answered fun ⟨⟨hRows, hFits⟩, hTotal⟩ =>
    Http.exists_pageReply ?_ hRows
  refine Http.exists_contentRange ?_ (hPlaces params hParams _ hFits) hTotal
  intro n hn
  rw [← Option.some.inj hn]
  show 0 ≤ params.offset.getD 0
  cases hAsked : params.offset with
  | none => decide
  | some m => exact hOffset params hParams m hAsked

theorem answerGetOne_answered {H : Prop} {table : Table} {request : Request}
    (segment : String) :
    Answered engine fits H
      (engine.answerGetOne table (.text segment) request) := by
  refine .lift_bind (Http.params_onlyRefuses request).belowServer
    fun params hParams => ?_
  have hShown := Http.isShown_params hParams
  have hKey : ∀ v ∈ keyParts (.text segment), v.isShowable = true :=
    List.forall_mem_singleton.2 rfl
  have hBuilt : FailsOnly (·.status < 500)
      (Sql.selectByKey table (keyParts (.text segment)) params) :=
    Sql.selectByKey_failsOnly status_invalid table _ fun h =>
      absurd h (Sql.not_testsUnshown hShown.filters)
  refine (get_ends (hServes.settles _) ?_ hBuilt
    (show (404 : Nat) < 500 by decide) fun _ hs =>
      Obliging.rowsAs (fun _ => Sql.selectByKey_isShown hKey hShown hs)
        (Sql.selectByKey_opens hs) (by decide)).bind fun row =>
          lift_answered ?_
  · exact fun asked _ => (asked.validate_onlyRefuses table).belowServer
  · rintro ⟨others, hRows, -⟩
    obtain ⟨response, hReply, hStatus⟩ :=
      Http.exists_ofValue (hRows row List.mem_cons_self) 200 []
    exact ⟨response, hReply, by rw [hStatus]; decide⟩

/-- What a write gives is answered. -/
theorem answer_write_answered {H : Prop} {route : Route}
    (hWrite : route.action.isWrite = true) (segment : String)
    (request : Request) :
    Answered engine fits H (engine.answer route segment request) := by
  rw [engine.answer_eq_write hWrite]
  exact (write_ends hWrite segment request (hServes.settles _) status_invalid
    (fun _ _ => by simp [Error.status]) fun _ _ hs hw hShown =>
      Obliging.rowsAs (fun _ => hShown) hs hw).bind
        fun rows => writeReply_answered _ _ _ rows

/-- At every route the answer is below 500, if the places of the page that is
asked for can be written. -/
theorem answer_answered {H : Prop} (route : Route) (segment : String)
    (request : Request)
    (hPlaces : ∀ limit offset, Asks request route.action limit offset →
      ∀ count, fits count →
        Text.isWritable (lastPlace offset count) = true) :
    Answered engine fits H (engine.answer route segment request) := by
  obtain ⟨table, action⟩ := route
  cases action with
  | list =>
      exact hServes.answerPage_answered (Http.params_onlyRefuses request)
        (fun _ => Http.isShown_params)
        (fun _ h => (Asks.of_params h).nonneg_offset)
        fun _ h => hPlaces _ _ (.of_params h)
  | query =>
      exact hServes.answerPage_answered
        (Http.documentParams_onlyRefuses request)
        (fun _ => Http.isShown_documentParams)
        (fun _ h => (Asks.of_documentParams h).nonneg_offset)
        fun _ h => hPlaces _ _ (.of_documentParams h)
  | getOne => exact hServes.answerGetOne_answered _
  | create | update | delete | updateOne | deleteOne =>
      exact hServes.answer_write_answered rfl segment request

end Serves

/-- The places of every page that a request asks for can be written, if the
page has so many rows. -/
def PlacesWritable (catalog : Catalog) (request : Request) (count : Nat) :
    Prop :=
  ∀ route segment limit offset,
    catalog.find request.method request.path = .route route segment →
      Asks request route.action limit offset →
        Text.isWritable (lastPlace offset count) = true

theorem handle_answered {H : Prop} (hServes : engine.Serves)
    (request : Request) :
    Answered engine (PlacesWritable engine.catalog request) H
      (engine.handle request) := by
  unfold handle
  split
  · next route segment hRoute =>
      exact hServes.answer_answered route segment request
        fun limit offset hAsks _ hPlaces =>
          hPlaces route segment limit offset hRoute hAsks
  · exact .pure fun _ => by decide
  · exact .pure fun _ => by decide

theorem status_preflight {request : Request} {response : Response}
    (h : Http.preflight? request = some response) : response.status < 500 := by
  obtain ⟨question, -, rfl⟩ := Option.map_eq_some_iff.1 h
  unfold Http.Preflight.answer
  dsimp only
  split
  · exact (by decide : 200 < 500)
  · exact (by decide : 400 < 500)

/-- The documents that a request carries: its body, and the token of a cursor in
its query string or in its body. -/
inductive Carries (request : Request) : Bytes → Prop
  | body : Carries request request.body
  | itemToken {items : Items} {token : String} {bytes : Bytes}
      (hItems : request.items = .ok items)
      (hToken : items.first? "cursor" = some token)
      (hBytes : Encoding.Base64.decode? (Text.trim token).toList =
        some bytes) : Carries request bytes
  | bodyToken {value : Value} {document : Document} {token : String}
      {bytes : Bytes} (hBody : request.document = .ok value)
      (hDocument : Document.ofValue value = .ok document)
      (hToken : document.cursor = some token)
      (hBytes : Encoding.Base64.decode? (Text.trim token).toList =
        some bytes) : Carries request bytes

/-- A client alone causes no failure of the server, as long as the places of
the page that it asks for can be written. Whatever the tables, the
configuration and the request: if every statement that was sent was answered
by doing what it asks to do, with so many rows that the last place of the page
can be written, the status of the response is below 500. The transactions are
opened and committed, the log can show the page sizes if it is to show them,
and no document of the request holds half of a surrogate pair alone, for which
there is no character and so no text here. -/
theorem respond_no_server_error (engine : Engine δ) (hServes : engine.Serves)
    (request : Request)
    (_hPaired : ∀ bytes, Carries request bytes → ¬Json.HoldsUnpaired bytes)
    (world : World δ) {new : List Event}
    (hEvents : ((engine.respond request).run world).2.events =
      world.events ++ new)
    (hAnswers : ∀ x ∈ engine.database.answers world.database (sent new),
      ∃ result, x.2 = .ok result ∧ Obliges x.1 result ∧
        PlacesWritable engine.catalog request result.rows.length) :
    ((engine.respond request).run world).1.status < 500 := by
  cases hPreflight : Http.preflight? request with
  | some response =>
      rw [engine.respond_preflight hPreflight]
      exact status_preflight hPreflight
  | none =>
      obtain ⟨hStatus, hSame, -⟩ := engine.respond_run hPreflight world
      obtain ⟨added, hAdded, -, hEnds⟩ :=
        handle_answered (H := True) hServes request world
      have hNew : added = new :=
        List.append_cancel_left ((hAdded.symm.trans hSame.symm).trans hEvents)
      rw [hNew] at hEnds
      have hOutcome := hEnds trivial hAnswers
      rw [hStatus]
      cases hRun : ((engine.handle request).run.run world).1 with
      | ok response => exact hOutcome.gives response hRun
      | error e => exact hOutcome.fails e hRun

/-- Two items, with their number and a plan that expects as many. -/
def twoItems (p : PreparedStatement) : QueryResult where
  keys := ["id", "data"]
  rows := [[.int 7, .null], [.int 8, .text "eight"]]
  scalar :=
    if p.explains then
      .ok (.list [.object [("Plan", .object [("Plan Rows", .int 2)])]])
    else .ok (.int 2)

theorem isWritable_two : Text.isWritable 2 = true :=
  Text.isWritable_iff.2 (by decide)

theorem twoItems_obliges (p : PreparedStatement) : Obliges p (twoItems p) where
  arrives := rfl
  plain := by
    intro _ cells hCells cell hCell
    simp only [twoItems, List.mem_cons, List.not_mem_nil, or_false] at hCells
    rcases hCells with rfl | rfl
    all_goals
      simp only [List.mem_cons, List.not_mem_nil, or_false] at hCell
      rcases hCell with rfl | rfl
    · exact .int (Text.isWritable_iff.2 (by decide))
    · exact .null
    · exact .int (Text.isWritable_iff.2 (by decide))
    · exact .text "eight"
  counted := by
    intro hCounts
    refine ⟨2, ?_, isWritable_two⟩
    rw [twoItems, p.explains_eq_false_of_counts hCounts]
    rfl
  planned := by
    intro hExplains
    rw [twoItems, hExplains]
    exact ⟨_, _, 2, rfl, rfl, rfl, isWritable_two⟩

/-- An engine that finds the same two items whatever it is asked. -/
def twoItemsFound : Engine Unit where
  catalog := { tables := [Sql.items] }
  config := { projectName := "items" }
  database := {
    connect := fun _ => none
    execute := fun _ p => (.ok (twoItems p), ()) }

theorem twoItemsFound_serves : twoItemsFound.Serves where
  opens _ := rfl
  commits _ := rfl
  showsPages := nofun

/-- A request for two items, after so many others. -/
def itemsAfter (n : Nat) : Request where
  method := "GET"
  path := "/public/items"
  query := Encoding.Utf8.encode
    ("offset" ++ "=" ++ Text.natText n ++ "&" ++ "limit=2").toList

/-- The same request, which also wants to know how many there are. -/
def itemsAfterFive : Request :=
  (itemsAfter 5).setHeader "Prefer" "count=estimated"

/-- The events of answering it. -/
def itemsAfterFiveEvents : List Event :=
  ((twoItemsFound.respond itemsAfterFive).run ⟨{}, (), []⟩).2.events

theorem itemsAfterFive_items :
    itemsAfterFive.items = .ok [("offset", "5"), ("limit", "2")] :=
  Result.toOption_eq_some.1 (by decide +kernel)

/-- The request carries an empty body and no token. -/
theorem itemsAfterFive_carries {bytes : Bytes}
    (h : Carries itemsAfterFive bytes) : ¬Json.HoldsUnpaired bytes := by
  cases h with
  | body =>
      exact Json.not_holdsUnpaired ⟨rfl, List.not_mem_nil, by decide⟩
        List.not_mem_nil
  | itemToken hItems hToken =>
      obtain rfl := Except.ok.inj (hItems.symm.trans itemsAfterFive_items)
      cases hToken
  | bodyToken hBody => cases hBody

theorem respond_no_server_error_items :
    twoItemsFound.Serves ∧
      (∀ bytes, Carries itemsAfterFive bytes → ¬Json.HoldsUnpaired bytes) ∧
      (∀ x ∈ twoItemsFound.database.answers () (sent itemsAfterFiveEvents),
        ∃ result, x.2 = .ok result ∧ Obliges x.1 result ∧
          PlacesWritable twoItemsFound.catalog itemsAfterFive
            result.rows.length) ∧
      (sent itemsAfterFiveEvents).length = 3 ∧
      ((twoItemsFound.respond itemsAfterFive).run ⟨{}, (), []⟩).1.status <
        500 := by
  have hPlaces :
      PlacesWritable twoItemsFound.catalog itemsAfterFive 2 := by
    intro route segment limit offset hRoute hAsks
    have hFound : twoItemsFound.catalog.find itemsAfterFive.method
        itemsAfterFive.path = .route ⟨Sql.items, .list⟩ "" := by
      decide +kernel
    obtain ⟨rfl, rfl⟩ := Destination.route.inj (hFound.symm.trans hRoute)
    cases hAsks with
    | list hItems hLimit hOffset =>
        obtain rfl := Except.ok.inj (hItems.symm.trans itemsAfterFive_items)
        rw [← Except.ok.inj hOffset]
        exact Text.isWritable_iff.2 (by decide)
  have hAnswers : ∀ x ∈ twoItemsFound.database.answers ()
      (sent itemsAfterFiveEvents), ∃ result, x.2 = .ok result ∧
        Obliges x.1 result ∧ PlacesWritable twoItemsFound.catalog
          itemsAfterFive result.rows.length := by
    intro x hx
    obtain ⟨state, hAnswer⟩ := Database.exists_of_mem_answers _ hx
    exact ⟨twoItems x.1, hAnswer, twoItems_obliges x.1, hPlaces⟩
  have hPaired : ∀ bytes, Carries itemsAfterFive bytes →
      ¬Json.HoldsUnpaired bytes := fun _ => itemsAfterFive_carries
  exact ⟨twoItemsFound_serves, hPaired, hAnswers, by decide +kernel,
    respond_no_server_error twoItemsFound twoItemsFound_serves itemsAfterFive
      hPaired ⟨{}, (), []⟩ (List.nil_append _).symm hAnswers⟩

/-! ## A page that is too far -/

/-- A page whose rows arrive, but whose last place is too long to be written,
is a failure of the server. -/
theorem answerPage_tooLong {table : Table} {request : Request}
    {read : Request → Result Params} {params : Params} {page : ReadResult}
    {world after : World δ} (hRead : read request = .ok params)
    (hSelect : (engine.select table (Http.paginate engine.config.pagination
      params request.preferences)).run.run world = (.ok page, after))
    (hLast : ¬Text.isWritable (lastPlace params.offset page.rows.length)) :
    Http.replyStatus
      ((engine.answerPage table request read).run.run world).1 = 500 := by
  have hReply : Http.pageReply (Http.paginate engine.config.pagination params
      request.preferences) page = .error (.unexpected .integerTooLong) :=
    Http.pageReply_tooLong hLast
  unfold answerPage
  dsimp only
  rw [hRead]
  show Http.replyStatus ((engine.select table _ >>= fun page =>
    Task.lift (Http.pageReply _ page)).run.run world).1 = 500
  rw [Task.bind_run_ok hSelect, hReply]
  rfl

/-- Digits stand for themselves in a query string. -/
theorem isPlain_natDigits (n : Nat) : Items.IsPlain (Text.natDigits n) := by
  have hBounds : ∀ c ∈ Text.natDigits n, 48 ≤ c.toNat ∧ c.toNat ≤ 57 :=
    fun c hc => Text.toNat_of_isDigit (Text.isDigit_of_mem_natDigits hc)
  refine ⟨fun c hc => ?_, fun c hc hMem => ?_⟩
  · obtain ⟨hLow, hHigh⟩ := hBounds c hc
    omega
  · simp only [List.mem_cons, List.not_mem_nil, or_false] at hMem
    rcases hMem with rfl | rfl | rfl <;> exact absurd (hBounds _ hc) (by decide)

theorem itemsAfter_items (n : Nat) :
    (itemsAfter n).items =
      .ok [("offset", Text.natText n), ("limit", "2")] := by
  have hDigits : (Text.natText n).toList = Text.natDigits n :=
    String.toList_ofList
  have hPlain : Items.IsPlain (Text.natText n).toList :=
    hDigits ▸ isPlain_natDigits n
  have hFirst : Items.ofQueryString ("offset" ++ "=" ++ Text.natText n) =
      .ok [("offset", Text.natText n)] :=
    Items.ofQueryString_item (by decide) (by decide) hPlain
  rw [Request.items, itemsAfter, Encoding.Utf8.decode_encode]
  dsimp only
  rw [String.ofList_toList]
  exact Items.ofQueryString_append hFirst rfl

theorem itemsAfter_params {n : Nat} (h : Text.isWritable (n : Int) = true) :
    (itemsAfter n).params =
      .ok { limit := some 2, offset := some (n : Int) } := by
  refine Result.bind_eq_ok.2 ⟨_, itemsAfter_items n, ?_⟩
  have hItem : Items.first? [("offset", Text.natText n), ("limit", "2")]
      "offset" = some (Text.natText n) := rfl
  have hOffset : Items.clause [("offset", Text.natText n), ("limit", "2")]
      "offset" none (readBound "offset") = .ok (some (n : Int)) := by
    rw [Items.clause, hItem]
    exact readBound_natText "offset" h
  have hLimit : Items.clause [("offset", Text.natText n), ("limit", "2")]
      "limit" none (readBound "limit") = .ok (some 2) := rfl
  rw [Items.compile, hLimit, hOffset]
  rfl

theorem status_itemsAfter {n : Nat} (h : Text.isWritable (n : Int) = true)
    (hLast : ¬Text.isWritable ((n + 1 : Nat) : Int)) (world : World Unit) :
    ((twoItemsFound.respond (itemsAfter n)).run world).1.status = 500 := by
  have hRoute : twoItemsFound.catalog.find (itemsAfter n).method
      (itemsAfter n).path = .route ⟨Sql.items, .list⟩ "" := by
    show twoItemsFound.catalog.find "GET" "/public/items" = _
    decide +kernel
  obtain ⟨hStatus, -, -⟩ :=
    twoItemsFound.respond_run (Catalog.preflight?_of_find hRoute) world
  rw [hStatus, twoItemsFound.handle_route hRoute]
  exact answerPage_tooLong (itemsAfter_params h) rfl hLast

/-- The largest offset that is read. -/
def farthest : Nat := 10 ^ Text.maxIntegerDigits - 1

theorem farthest_succ : farthest + 1 = 10 ^ Text.maxIntegerDigits :=
  Nat.sub_add_cancel (Nat.pow_pos (by decide))

/-- The farthest page that may be asked for has no last place that can be
written, so a client causes a failure of the server with it alone: the names
of the catalog are proper, transactions are opened and committed, and every
statement, whatever it is, is answered by doing what it asks to do. -/
theorem respond_server_error :
    twoItemsFound.Serves ∧ (∀ table ∈ twoItemsFound.catalog.tables,
      ∀ name ∈ table.schema :: table.name :: table.columns.map (·.name),
        isName name.toList = true) ∧
      (∀ p, ∃ result, (twoItemsFound.database.execute () p).1 = .ok result ∧
        Obliges p result) ∧
      ((twoItemsFound.respond (itemsAfter farthest)).run
        ⟨{}, (), []⟩).1.status = 500 := by
  refine ⟨twoItemsFound_serves, by decide,
    fun p => ⟨twoItems p, rfl, twoItems_obliges p⟩, status_itemsAfter ?_ ?_ _⟩
  · rw [Text.isWritable_natCast, ← farthest_succ]
    exact Nat.lt_add_one farthest
  · rw [Text.isWritable_natCast, farthest_succ]
    exact Nat.lt_irrefl _

end Engine
end TableGate
