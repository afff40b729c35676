import TableGate.Proofs.Http.Cells
import TableGate.Proofs.Http.WriteRoutes

/-!
# What a write answers with makes no difference to the write

A client may ask for less than the rows that its write has touched. It asks in
the header `Prefer`, where it also says what should happen to records that
exist already, so the one part of the header must not change what the other
leads to.

Two requests that differ in what they want returned, and in nothing else, are
followed side by side. Everything that a write does is `Engine.write`, a task
that does not look at the return mode; the reply is put together behind it.

## Main results

* `Preferences.agree_ofHeader`: what a header says besides the return mode is
  said by the tokens that do not name it.
* `Engine.returns_change_answers_only`: two requests that differ in what they
  want returned do the same to the database, and their answers differ in the
  body and in what says that there is one.
* `Engine.returns_change_failure`: one of them may fail where the other does
  not, if a row holds a number that is too long.
-/

namespace TableGate

open Http (Headers Operation Request Response mutationHeaders shareWith
  writeReply)

variable {δ : Type}

/-! ## Preferences -/

namespace Preferences

/-- Preferences that differ in the return mode at most. -/
structure Agree (p q : Preferences) : Prop where
  resolution : p.resolution = q.resolution
  missingDefault : p.missingDefault = q.missingDefault
  count : p.count = q.count

namespace Agree

variable {p q r : Preferences}

theorem refl (p : Preferences) : Agree p p := ⟨rfl, rfl, rfl⟩

theorem symm (h : Agree p q) : Agree q p :=
  ⟨h.resolution.symm, h.missingDefault.symm, h.count.symm⟩

theorem trans (h : Agree p q) (hNext : Agree q r) : Agree p r :=
  ⟨h.resolution.trans hNext.resolution,
    h.missingDefault.trans hNext.missingDefault,
    h.count.trans hNext.count⟩

/-- A token that names the return mode changes nothing else. -/
theorem apply_return {token : Token} (hName : token.name = "return")
    (h : Agree p q) : Agree (p.apply token) q := by
  unfold apply
  rw [if_pos hName]
  split
  · exact ⟨h.resolution, h.missingDefault, h.count⟩
  · exact h

/-- A token means the same beside every return mode. -/
theorem apply (token : Token) (h : Agree p q) :
    Agree (p.apply token) (q.apply token) := by
  unfold Preferences.apply
  split_ifs
  · split
    · exact ⟨h.resolution, h.missingDefault, h.count⟩
    · exact h
  · split
    · exact ⟨rfl, h.missingDefault, h.count⟩
    · exact h
  · exact ⟨h.resolution, rfl, h.count⟩
  · exact h
  · split
    · exact ⟨h.resolution, h.missingDefault, rfl⟩
    · exact h
  · exact h

end Agree

/-- The tokens that do not name the return mode. -/
def withoutReturn (tokens : List Token) : List Token :=
  tokens.filter fun token => token.name != "return"

/-- The tokens of a header that may be missing. -/
def tokensOf (header : Option String) : List Token :=
  (header.map tokens).getD []

theorem ofHeader_eq (header : Option String) :
    ofHeader header = (tokensOf header).foldl apply {} := by
  cases header <;> rfl

theorem agree_foldl (tokens : List Token) {p q : Preferences}
    (h : Agree p q) :
    Agree (tokens.foldl apply p) ((withoutReturn tokens).foldl apply q) := by
  induction tokens generalizing p q with
  | nil => exact h
  | cons token rest ih =>
      by_cases hName : token.name = "return"
      · rw [List.foldl_cons, withoutReturn,
          List.filter_cons_of_neg (by simp [hName])]
        exact ih (h.apply_return hName)
      · rw [List.foldl_cons, withoutReturn,
          List.filter_cons_of_pos (by simp [hName]), List.foldl_cons]
        exact ih (h.apply token)

/-- What a header says besides the return mode is said by the tokens that do
not name it. -/
theorem agree_ofHeader {a b : Option String}
    (h : withoutReturn (tokensOf a) = withoutReturn (tokensOf b)) :
    Agree (ofHeader a) (ofHeader b) := by
  rw [ofHeader_eq, ofHeader_eq]
  refine (agree_foldl _ (.refl {})).trans ?_
  rw [h]
  exact (agree_foldl _ (.refl {})).symm

/-- What stands between commas is read on its own. -/
theorem tokens_append (before after : String) :
    tokens (before ++ "," ++ after) = tokens before ++ tokens after := by
  have hComma : (before ++ "," ++ after).toList =
      before.toList ++ ',' :: after.toList := by
    rw [String.toList_append, String.toList_append, List.append_assoc]
    rfl
  unfold tokens
  dsimp only
  rw [hComma, List.map_append, List.map_cons, if_neg (by decide),
    Text.splitOn_append, List.map_append, List.filter_append, List.map_append]

/-- The text that asks for a return mode. -/
def returnText (mode : ReturnMode) : String := "return=" ++ mode.token

theorem withoutReturn_returnText (mode : ReturnMode) :
    withoutReturn (tokens (returnText mode)) = [] := by
  cases mode <;> rfl

/-- Asking for a return mode anywhere in a header says nothing else. -/
theorem withoutReturn_insert (before after : String) (mode : ReturnMode) :
    withoutReturn (tokens (before ++ "," ++ returnText mode ++ "," ++ after)) =
      withoutReturn (tokens (before ++ "," ++ after)) := by
  have hNone := withoutReturn_returnText mode
  unfold withoutReturn at hNone ⊢
  rw [tokens_append, tokens_append, tokens_append, List.filter_append,
    List.filter_append, List.filter_append, hNone, List.append_nil]

end Preferences

open Preferences (Agree tokensOf withoutReturn)

theorem Http.upsert?_agree {p q : Preferences} (h : Agree p q)
    (items : Items) : upsert? items p = upsert? items q := by
  unfold upsert?
  rw [h.resolution, h.missingDefault]

/-! ## Requests -/

namespace Http.Request

/-- Requests that differ in what they want returned, and in nothing else. -/
structure SameButReturn (a b : Request) : Prop where
  method : a.method = b.method
  path : a.path = b.path
  query : a.query = b.query
  body : a.body = b.body
  headers : (a.headers.filter fun header => !sameName header.1 "Prefer") =
    b.headers.filter fun header => !sameName header.1 "Prefer"
  preferences : withoutReturn (tokensOf (a.header? "Prefer")) =
    withoutReturn (tokensOf (b.header? "Prefer"))

namespace SameButReturn

variable {a b : Request}

theorem agree (h : SameButReturn a b) : Agree a.preferences b.preferences :=
  Preferences.agree_ofHeader h.preferences

theorem items (h : SameButReturn a b) : a.items = b.items := by
  rw [Request.items, Request.items, h.query]

theorem params (h : SameButReturn a b) : a.params = b.params := by
  rw [Request.params, Request.params, h.items]

theorem document (h : SameButReturn a b) : a.document = b.document := by
  rw [Request.document, Request.document, h.body]

theorem fields (h : SameButReturn a b) : a.fields = b.fields := by
  rw [Request.fields, Request.fields, h.document]

theorem origin (h : SameButReturn a b) :
    a.header? "Origin" = b.header? "Origin" := by
  have hOther : ∀ request : Request, request.header? "Origin" =
      ((request.headers.filter fun header =>
        !sameName header.1 "Prefer").find? fun header =>
          sameName header.1 "Origin").map (·.2) := by
    intro request
    rw [List.find?_filter, header?]
    congr 2
    funext header
    cases hName : sameName header.1 "Origin" with
    | false => simp
    | true =>
        have hPrefer : sameName header.1 "Prefer" = false := by
          rw [sameName, beq_iff_eq] at hName
          rw [sameName, hName]
          decide
        simp [hPrefer]
  rw [hOther a, hOther b, h.headers]

/-- Asking for a return mode is all that two such headers differ in. -/
theorem of_insert (request : Request) (before after : String)
    (mode : ReturnMode) :
    SameButReturn
      (request.setHeader "Prefer" (before ++ "," ++
        Preferences.returnText mode ++ "," ++ after))
      (request.setHeader "Prefer" (before ++ "," ++ after)) := by
  refine ⟨rfl, rfl, rfl, rfl, ?_, ?_⟩
  · rw [setHeader, setHeader, List.filter_cons_of_neg (by simp [sameName]),
      List.filter_cons_of_neg (by simp [sameName])]
  · rw [header?_setHeader, header?_setHeader]
    exact Preferences.withoutReturn_insert before after mode

end SameButReturn
end Http.Request

open Http.Request (SameButReturn)

/-! ## Writes -/

namespace Http

/-- Opening a response to its origin adds headers behind the others. -/
theorem exists_headers_shareWith (request : Request) (response : Response) :
    ∃ more, (shareWith request response).headers =
      response.headers ++ more := by
  unfold shareWith
  split
  · exact ⟨[], (List.append_nil _).symm⟩
  · exact ⟨_, List.append_assoc _ _ _⟩

theorem body_shareWith (request : Request) (response : Response) :
    (shareWith request response).body = response.body := by
  unfold shareWith
  split
  · rfl
  · rfl

end Http

theorem Error.le_status (e : Error) : 400 ≤ e.status := by
  cases e <;> simp [status]

namespace Engine

variable (engine : Engine δ) {a b : Request} {route : Route}
  {segment : String}

/-- A write does not look at what is wanted back. -/
theorem write_eq (h : SameButReturn a b) (route : Route) (segment : String) :
    engine.write route segment a = engine.write route segment b := by
  obtain ⟨table, action⟩ := route
  cases action with
  | create =>
      simp only [write, h.items, h.document, Http.upsert?_agree h.agree]
  | update => simp only [write, h.params, h.fields]
  | delete => simp only [write, h.params]
  | updateOne => simp only [write, h.fields]
  | deleteOne => rfl
  | list | query | getOne => rfl

/-! ## Responses -/

theorem failure_eq (h : SameButReturn a b) (e : Error) :
    engine.failure a e = engine.failure b e := by
  unfold failure shareWith
  rw [h.origin]

variable {engine}

/-- A request that is handled is answered with its response. -/
theorem respond_ok {request : Request} {world after : World δ}
    {response : Response} (hPreflight : Http.preflight? request = none)
    (h : (engine.handle request).run.run world = (.ok response, after)) :
    (engine.respond request).run world =
      (shareWith request response, after) := by
  rw [respond, hPreflight]
  dsimp only
  rw [StateT.run_bind, h]
  rfl

/-- A request that fails is answered with the failure. -/
theorem respond_error {request : Request} {world after : World δ} {e : Error}
    (hPreflight : Http.preflight? request = none)
    (h : (engine.handle request).run.run world = (.error e, after)) :
    (engine.respond request).run world = (engine.failure request e,
      { after with logger := e.report after.logger }) := by
  rw [respond, hPreflight]
  dsimp only
  rw [StateT.run_bind, h]
  rfl

/-- The three ways in which the rows of a write become an answer: without a
body, with one, or with a failure if a value in the rows cannot be written. -/
inductive Replied (engine : Engine δ) (request : Request)
    (operation : Operation) (single : Bool) (rows : List Row)
    (after : World δ) : Response × World δ → Prop
  | short (hMode : request.preferences.returnMode ≠ .representation) :
      Replied engine request operation single rows after
        (shareWith request {
          status := operation.status request.preferences.returnMode
          headers := mutationHeaders rows.length }, after)
  | full (hMode : request.preferences.returnMode = .representation)
      {response : Response}
      (h : Response.ofValue (operation.status .representation)
        (mutationHeaders rows.length) (Http.writtenRows single rows) =
          .ok response) :
      Replied engine request operation single rows after
        (shareWith request response, after)
  | failed (hMode : request.preferences.returnMode = .representation)
      {e : Error}
      (h : Response.ofValue (operation.status .representation)
        (mutationHeaders rows.length) (Http.writtenRows single rows) =
          .error e) :
      Replied engine request operation single rows after
        (engine.failure request e,
          { after with logger := e.report after.logger })

theorem replied (hRoute : engine.catalog.find a.method a.path =
      .route route segment) (hWrite : route.action.isWrite = true)
    {world after : World δ} {rows : List Row}
    (hRows : (engine.write route segment a).run.run world =
      (.ok rows, after)) :
    Replied engine a route.action.operation route.action.isSingle rows after
      ((engine.respond a).run world) := by
  have hPreflight := Catalog.preflight?_of_find hRoute
  have hHandle : (engine.handle a).run.run world =
      (writeReply route.action.operation a.preferences.returnMode
        route.action.isSingle rows, after) := by
    rw [engine.handle_route hRoute, engine.answer_eq_write hWrite,
      Task.bind_run_ok hRows]
    rfl
  by_cases hMode : a.preferences.returnMode = .representation
  · rw [writeReply, if_pos hMode, hMode] at hHandle
    cases hReply : Response.ofValue (route.action.operation.status
        .representation) (mutationHeaders rows.length)
        (Http.writtenRows route.action.isSingle rows) with
    | error e =>
        rw [hReply] at hHandle
        rw [respond_error hPreflight hHandle]
        exact .failed hMode hReply
    | ok response =>
        rw [hReply] at hHandle
        rw [respond_ok hPreflight hHandle]
        exact .full hMode hReply
  · rw [writeReply, if_neg hMode] at hHandle
    rw [respond_ok hPreflight hHandle]
    exact .short hMode

theorem respond_write_error (hRoute : engine.catalog.find a.method a.path =
      .route route segment) (hWrite : route.action.isWrite = true)
    {world after : World δ} {e : Error}
    (hFailed : (engine.write route segment a).run.run world =
      (.error e, after)) :
    (engine.respond a).run world = (engine.failure a e,
      { after with logger := e.report after.logger }) := by
  refine respond_error (Catalog.preflight?_of_find hRoute) ?_
  rw [engine.handle_route hRoute, engine.answer_eq_write hWrite,
    Task.bind_run_error hFailed]

/-! ## Two answers to one write -/

namespace Replied

variable {request : Request} {operation : Operation} {single : Bool}
  {rows : List Row} {after : World δ} {answer : Response × World δ}

theorem events
    (h : Replied engine request operation single rows after answer) :
    answer.2.events = after.events := by
  cases h <;> rfl

theorem database
    (h : Replied engine request operation single rows after answer) :
    answer.2.database = after.database := by
  cases h <;> rfl

/-- An answer that is no failure counts the rows. -/
theorem affected
    (h : Replied engine request operation single rows after answer)
    (hDone : answer.1.status < 400) :
    ∀ header ∈ mutationHeaders rows.length,
      answer.1.headers.lookup header.1 = some header.2 := by
  have hCounts : ∀ more header, header ∈ mutationHeaders rows.length →
      (mutationHeaders rows.length ++ more).lookup header.1 =
        some header.2 := by
    intro more header hHeader
    simp only [mutationHeaders, List.mem_cons, List.not_mem_nil, or_false]
      at hHeader
    rcases hHeader with rfl | rfl
    · rfl
    · rfl
  intro header hHeader
  cases h with
  | short =>
      obtain ⟨more, hMore⟩ := Http.exists_headers_shareWith request
        { status := operation.status request.preferences.returnMode
          headers := mutationHeaders rows.length }
      rw [hMore]
      exact hCounts more header hHeader
  | @full _ response hReply =>
      obtain ⟨shown, -, rfl⟩ := Http.ofValue_eq_ok hReply
      obtain ⟨more, hMore⟩ := Http.exists_headers_shareWith request _
      rw [hMore, List.append_assoc]
      exact hCounts _ header hHeader
  | @failed _ e hReply =>
      rw [status_failure] at hDone
      exact absurd e.le_status (Nat.not_le.2 hDone)

/-- An answer that is no failure has a body exactly if one is wanted. -/
theorem body (h : Replied engine request operation single rows after answer)
    (hDone : answer.1.status < 400) :
    answer.1.body = "" ↔ request.preferences.returnMode ≠ .representation := by
  cases h with
  | short hMode =>
      rw [Http.body_shareWith]
      exact ⟨fun _ => hMode, fun _ => rfl⟩
  | full hMode hReply =>
      rw [Http.body_shareWith]
      exact ⟨fun hEmpty => absurd hEmpty (Http.body_ne_nil hReply),
        fun hOther => absurd hMode hOther⟩
  | @failed _ e hReply =>
      rw [status_failure] at hDone
      exact absurd e.le_status (Nat.not_le.2 hDone)

/-- A failure behind the write is the failure to write its rows. -/
theorem exists_failed
    (h : Replied engine request operation single rows after answer)
    (hFailed : 400 ≤ answer.1.status) :
    ∃ e, Response.ofValue (operation.status .representation)
        (mutationHeaders rows.length) (Http.writtenRows single rows) =
          .error e ∧ answer.1 = engine.failure request e := by
  cases h with
  | short =>
      rw [status_shareWith] at hFailed
      exact absurd (Http.Operation.status_lt _ _) (Nat.not_lt.2 hFailed)
  | full _ hReply =>
      obtain ⟨shown, -, rfl⟩ := Http.ofValue_eq_ok hReply
      rw [status_shareWith] at hFailed
      exact absurd (Http.Operation.status_lt _ _) (Nat.not_lt.2 hFailed)
  | failed _ hReply => exact ⟨_, hReply, rfl⟩

/-- Rows that JSON knows are answered without a failure. -/
theorem status_lt
    (h : Replied engine request operation single rows after answer)
    (hRows : RowsAreJson rows) : answer.1.status < 400 := by
  refine Nat.not_le.1 fun hFailed => ?_
  obtain ⟨e, hReply, -⟩ := h.exists_failed hFailed
  obtain ⟨response, hOther, -⟩ := Http.exists_ofValue (hRows.written single)
    (operation.status .representation) (mutationHeaders rows.length)
  rw [hReply] at hOther
  cases hOther

end Replied

/-- What the answers to two requests have in common that differ in what they
want returned, each with what is left of the world. -/
structure SameWrite (request : Request) (answer other : Response × World δ) :
    Prop where
  /-- The same statements are sent with the same values, in transactions that
  end alike. -/
  events : answer.2.events = other.2.events
  database : answer.2.database = other.2.database
  /-- Where neither is a failure, both count the same rows in their headers. -/
  affected : answer.1.status < 400 → other.1.status < 400 →
    ∃ count : Int, ∀ header ∈ mutationHeaders count,
      answer.1.headers.lookup header.1 = some header.2 ∧
        other.1.headers.lookup header.1 = some header.2
  /-- Where both are failures they are the same. -/
  failures : 400 ≤ answer.1.status → 400 ≤ other.1.status →
    answer.1 = other.1
  /-- An answer that is no failure has a body exactly if one is wanted. -/
  body : answer.1.status < 400 →
    (answer.1.body = "" ↔ request.preferences.returnMode ≠ .representation)

/-- Asking for a smaller answer never changes the write. Two requests to write
that differ in what they want returned, and in nothing else, do the same to
the database and are answered alike. If the cells of the database are plain,
and its integers have few enough digits to be written, the one fails exactly
if the other does, with the same answer. -/
theorem returns_change_answers_only (engine : Engine δ) {a b : Request}
    (h : SameButReturn a b) {route : Route} {segment : String}
    (hRoute : engine.catalog.find a.method a.path = .route route segment)
    (hWrite : route.action.isWrite = true) (world : World δ) :
    SameWrite a ((engine.respond a).run world)
        ((engine.respond b).run world) ∧
      (engine.database.IsPlain →
        400 ≤ ((engine.respond a).run world).1.status →
          (engine.respond b).run world = (engine.respond a).run world) := by
  have hOther : engine.catalog.find b.method b.path = .route route segment := by
    rw [← h.method, ← h.path]
    exact hRoute
  rcases hRun : (engine.write route segment a).run.run world with
    ⟨e | rows, after⟩
  · have hSame := engine.respond_write_error hRoute hWrite hRun
    rw [engine.write_eq h] at hRun
    have hSameOther := engine.respond_write_error hOther hWrite hRun
    rw [hSame, hSameOther, engine.failure_eq h]
    have hStatus : ¬ (engine.failure b e).status < 400 := by
      rw [status_failure]
      exact Nat.not_lt.2 e.le_status
    exact ⟨⟨rfl, rfl, fun hDone => absurd hDone hStatus, fun _ _ => rfl,
      fun hDone => absurd hDone hStatus⟩, fun _ _ => rfl⟩
  · have hReplied := replied hRoute hWrite hRun
    have hPlain : engine.database.IsPlain → RowsAreJson rows := by
      intro hPlain
      obtain ⟨new, -, -, hEnds⟩ := write_ends (A := PlainCells) (H := True)
        (E := fun _ => True) hWrite segment a
        ⟨fun _ => trivial, fun _ => trivial⟩ (fun _ => trivial)
        (fun _ _ => trivial) (fun s _ _ _ _ => PlainCells.rowsAs engine s)
        world
      exact (hEnds trivial hPlain.answers).gives rows (congrArg Prod.fst hRun)
    rw [engine.write_eq h] at hRun
    have hRepliedOther := replied hOther hWrite hRun
    refine ⟨⟨hReplied.events.trans hRepliedOther.events.symm,
      hReplied.database.trans hRepliedOther.database.symm,
      fun hDone hDoneOther => ⟨rows.length, fun header hHeader =>
        ⟨hReplied.affected hDone header hHeader,
          hRepliedOther.affected hDoneOther header hHeader⟩⟩,
      fun hFailed hFailedOther => ?_, hReplied.body⟩,
      fun hCells hFailed => ?_⟩
    · obtain ⟨e, hReply, hAnswer⟩ := hReplied.exists_failed hFailed
      obtain ⟨f, hReplyOther, hAnswerOther⟩ :=
        hRepliedOther.exists_failed hFailedOther
      rw [hReply, Except.error.injEq] at hReplyOther
      rw [hAnswer, hAnswerOther, engine.failure_eq h, hReplyOther]
    · exact absurd (hReplied.status_lt (hPlain hCells)) (Nat.not_lt.2 hFailed)

/-- An engine that serves items from a database that answers every statement
with the same item. -/
def oneItem : Engine Unit where
  catalog := { tables := [Sql.items] }
  config := { projectName := "items" }
  database := {
    connect := fun _ => none
    execute := fun _ _ => (.ok {
      keys := ["id", "data"]
      rows := [[.int 7, .null]] }, ()) }

/-- A request to create an item. -/
def createItem : Request where
  method := "POST"
  path := "/public/items"
  body := Encoding.Utf8.encode "\x7b\"id\": 7\x7d".toList

/-- The header says what should happen to an item that is there already. -/
def mergeItem : Request :=
  createItem.setHeader "Prefer" ("resolution=merge-duplicates" ++ "," ++ "")

/-- It may ask for a smaller answer in between. -/
def mergeItemBriefly : Request :=
  createItem.setHeader "Prefer" ("resolution=merge-duplicates" ++ "," ++
    Preferences.returnText .minimal ++ "," ++ "")

theorem returns_change_answers_only_items :
    SameButReturn mergeItemBriefly mergeItem ∧
      oneItem.database.IsPlain ∧
      SameWrite mergeItemBriefly
        ((oneItem.respond mergeItemBriefly).run ⟨{}, (), []⟩)
        ((oneItem.respond mergeItem).run ⟨{}, (), []⟩) ∧
      ((oneItem.respond mergeItemBriefly).run ⟨{}, (), []⟩).1.body = "" ∧
      ((oneItem.respond mergeItem).run ⟨{}, (), []⟩).1.body =
        "[\x7b\"id\":7,\"data\":null\x7d]" := by
  have hSame : SameButReturn mergeItemBriefly mergeItem :=
    .of_insert createItem "resolution=merge-duplicates" "" .minimal
  have hRoute : oneItem.catalog.find mergeItemBriefly.method
      mergeItemBriefly.path = .route ⟨Sql.items, .create⟩ "" := by
    decide +kernel
  have hPlain : oneItem.database.IsPlain := by
    intro state p result hAnswer cells hCells cell hCell
    rw [← Except.ok.inj hAnswer] at hCells
    obtain rfl := List.mem_singleton.1 hCells
    simp only [List.mem_cons, List.not_mem_nil, or_false] at hCell
    rcases hCell with rfl | rfl
    · exact .int (Text.isWritable_iff.2 (by decide))
    · exact .null
  obtain ⟨hWrite, -⟩ := returns_change_answers_only oneItem hSame hRoute rfl
    ⟨{}, (), []⟩
  exact ⟨hSame, hPlain, hWrite, by decide +kernel, by decide +kernel⟩

/-- An engine that serves items from a database that answers every statement
with the same item, whose number has a digit too many to be written. -/
def longItem : Engine Unit where
  catalog := { tables := [Sql.items] }
  config := { projectName := "items" }
  database := {
    connect := fun _ => none
    execute := fun _ _ => (.ok {
      keys := ["id", "data"]
      rows := [[.int (10 ^ Text.maxIntegerDigits : Nat), .null]] }, ()) }

/-- The same write is committed for both requests and its one row arrives. The
answer that wants it back fails, as its number cannot be written; the other
does not. -/
theorem returns_change_failure :
    SameButReturn mergeItemBriefly mergeItem ∧
      (∀ state p, ∃ n : Int, (longItem.database.execute state p).1 =
        .ok { keys := ["id", "data"], rows := [[.int n, .null]] }) ∧
      ((longItem.respond mergeItemBriefly).run ⟨{}, (), []⟩).1.status = 201 ∧
      ((longItem.respond mergeItem).run ⟨{}, (), []⟩).1.status = 500 ∧
      ((longItem.respond mergeItem).run ⟨{}, (), []⟩).2.events.getLast? =
        some .commit :=
  ⟨.of_insert createItem "resolution=merge-duplicates" "" .minimal,
    fun _ _ => ⟨_, rfl⟩, by decide +kernel, by decide +kernel,
    by decide +kernel⟩

end Engine
end TableGate
