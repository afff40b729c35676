import TableGate.Proofs.Http.Refusal
import TableGate.Proofs.Sql.Guarded
import TableGate.Proofs.Sql.Opening

/-!
# No request writes without a condition

Whatever a request holds, every UPDATE and DELETE it leads to has a WHERE
clause: on the routes of a collection the conjuncts of the filters of the query
string, and on the routes of a single row the test of the primary key for the
segment of the path. No other route sends an UPDATE or DELETE at all.

A key column that is spelled as a path is not tested under its own name.

The statements are followed from the trace back to their builders: what is
sent is the text of a statement, and the text of a statement that reads or
inserts starts with another word.

## Main results

* `writes_guarded`: no statement that updates or deletes lacks a condition, as
  it is built and as it is sent.
* `write_tests_path`: the condition may be on another column than the key.
-/

namespace TableGate

open Sql (GuardedBy GuardedByKey IsKeyTest KeyTest PreparedStatement Statement
  TestsKey Word)
open Http (Request)
open Result (bind_eq_ok of_check_eq_ok pure_eq_ok)
open TableGate.Task (Sends)

/-! ## Statements that change rows -/

namespace Sql

/-- The word a text starts with. -/
def PreparedStatement.verb (p : PreparedStatement) : String :=
  .ofList (p.sql.toList.takeWhile Char.isAlpha)

/-- Whether a text updates or deletes. -/
def PreparedStatement.alters (p : PreparedStatement) : Bool :=
  p.verb == "UPDATE" || p.verb == "DELETE"

/-- The words with which statements begin that read or insert. -/
def keepingWords : List Word := [.select, .selectCount, .explain, .insertInto]

/-- The statement begins with a word that reads or inserts. -/
def Statement.Keeps (s : Statement) : Prop :=
  ∃ w ∈ keepingWords, ∃ rest, s.pieces = .word w :: rest

theorem keepingWords_start : ∀ w ∈ keepingWords, ∃ c rest,
    w.text.toList = c :: rest ∧ c.isAlpha = true ∧ c ≠ 'U' ∧ c ≠ 'D' := by
  intro w hw
  simp only [keepingWords, List.mem_cons, List.not_mem_nil, or_false] at hw
  rcases hw with rfl | rfl | rfl | rfl
  all_goals exact ⟨_, _, rfl, by decide, by decide, by decide⟩

/-- The text of such a statement neither updates nor deletes. -/
theorem Statement.Keeps.alters_eq_false {s : Statement} (h : s.Keeps) :
    s.prepare.alters = false := by
  obtain ⟨w, hw, hOpens⟩ := h
  obtain ⟨c, others, hText, hAlpha, hUpdate, hDelete⟩ :=
    keepingWords_start w hw
  obtain ⟨more, hSql⟩ := Statement.Opens.toList_prepare hOpens
  rw [hText, List.cons_append] at hSql
  have hVerb : ∃ letters, s.prepare.verb.toList = c :: letters := by
    refine ⟨(others ++ more).takeWhile Char.isAlpha, ?_⟩
    rw [PreparedStatement.verb, String.toList_ofList, hSql,
      List.takeWhile_cons_of_pos hAlpha]
  obtain ⟨letters, hLetters⟩ := hVerb
  have hNot : ∀ (word : String) (d : Char) (rest : List Char),
      word.toList = d :: rest → c ≠ d → s.prepare.verb ≠ word := by
    rintro word d rest hWord hOther rfl
    rw [hLetters] at hWord
    exact hOther (List.cons.inj hWord).1
  rw [PreparedStatement.alters, Bool.or_eq_false_iff, beq_eq_false_iff_ne,
    beq_eq_false_iff_ne]
  exact ⟨hNot "UPDATE" 'U' _ rfl hUpdate, hNot "DELETE" 'D' _ rfl hDelete⟩

theorem Statement.Opens.keeps {w : Word} {s : Statement} (h : s.Opens w)
    (hw : w ∈ keepingWords) : s.Keeps := ⟨w, hw, h⟩

end Sql

/-! ## Requests -/

/-- What guards a statement that a request leads to. -/
def GuardedAt (request : Request) (route : Route) (segment : String)
    (s : Statement) : Prop :=
  match route.action with
  | .update | .delete =>
      ∃ params, request.params = .ok params ∧ GuardedBy params.filters s
  | .updateOne | .deleteOne =>
      ∃ name test, route.table.primaryKey = [name] ∧
        IsKeyTest (name, .text segment) test ∧
        (name ∈ route.table.columnNames →
          KeyTest (name, .text segment) test) ∧
        s.conjuncts? = some [[test]]
  | _ => False

/-- If a statement updates or deletes, it is guarded. -/
def SafeAt (request : Request) (route : Route) (segment : String)
    (p : PreparedStatement) : Prop :=
  p.alters = true →
    ∃ s, p = s.prepare ∧ GuardedAt request route segment s

variable {δ : Type} {request : Request} {route : Route} {segment : String}
  {s : Statement}

theorem SafeAt.of_opens {w : Word} (h : s.Opens w)
    (hw : w ∈ Sql.keepingWords) :
    SafeAt request route segment s.prepare := by
  intro hAlters
  rw [(h.keeps hw).alters_eq_false] at hAlters
  exact absurd hAlters (by decide)

/-- With the key from a path there is one test. -/
theorem exists_test_of_segment {table : Table} (values : Fields)
    (h : Sql.updateByKey table (Engine.keyParts (.text segment)) values =
        .ok s ∨
      Sql.deleteByKey table (Engine.keyParts (.text segment)) = .ok s) :
    ∃ name test, table.primaryKey = [name] ∧
      IsKeyTest (name, .text segment) test ∧
      (name ∈ table.columnNames → KeyTest (name, .text segment) test) ∧
      s.conjuncts? = some [[test]] := by
  obtain ⟨-, hLength, tests, hTests, hConjuncts⟩ :=
    h.elim Sql.updateByKey_guarded Sql.deleteByKey_guarded
  obtain ⟨name, hName⟩ : ∃ name, table.primaryKey = [name] :=
    List.length_eq_one_iff.1 hLength.symm
  have hListed := Sql.isName_of_writeByKey h
  rw [hName] at hTests
  obtain ⟨test, hTest, rfl⟩ : ∃ test, IsKeyTest (name, .text segment) test ∧
      tests = [test] := by
    cases hTests with
    | cons hFirst hRest =>
        cases hRest
        exact ⟨_, hFirst, rfl⟩
  exact ⟨name, test, hName, hTest, fun hIn => hTest.keyTest (hListed name hIn),
    hConjuncts⟩

open Engine in
/-- At every route the statements that are sent are guarded. -/
theorem answer_safe (engine : Engine δ) (route : Route) (segment : String)
    (request : Request) :
    Sends (SafeAt request route segment)
      (engine.answer route segment request) := by
  obtain ⟨table, action⟩ := route
  have hPage : ∀ read : Request → Result Params,
      Sends (SafeAt request ⟨table, action⟩ segment)
        (engine.answerPage table request read) := fun read =>
    (Sends.lift _).bind fun _ => (engine.select_sends
      (fun s hs => .of_opens (Sql.select_opens hs) (by decide))
      (fun s hs => hs.elim
        (fun hCount => .of_opens (Sql.count_opens hCount) (by decide))
        (fun hExplain => .of_opens (Sql.explain_opens hExplain)
          (by decide)))).bind fun _ => .lift _
  cases action with
  | list => exact hPage _
  | query => exact hPage _
  | create =>
      exact (Sends.lift _).bind fun _ => (Sends.lift _).bind fun _ =>
        (engine.insert_sends fun s hs =>
          .of_opens (insertion_opens hs) (by decide)).bind
            fun _ => .lift _
  | update =>
      refine Sends.lift_bind fun params hParams => (Sends.lift _).bind
        fun values => (engine.update_sends fun s hs _ => ?_).bind
          fun _ => .lift _
      exact ⟨s, rfl, params, hParams, Sql.update_guarded hs⟩
  | delete =>
      refine Sends.lift_bind fun params hParams =>
        (engine.delete_sends fun s hs _ => ?_).bind fun _ => .lift _
      exact ⟨s, rfl, params, hParams, Sql.delete_guarded hs⟩
  | getOne =>
      exact (Sends.lift _).bind fun _ => (engine.get_sends fun s hs =>
        .of_opens (Sql.selectByKey_opens hs) (by decide)).bind
          fun _ => .lift _
  | updateOne =>
      refine (Sends.lift _).bind fun values =>
        (engine.updateByKey_sends fun s hs _ => ?_).bind fun _ => .lift _
      exact ⟨s, rfl, exists_test_of_segment _ (.inl hs)⟩
  | deleteOne =>
      refine (engine.deleteByKey_sends fun s hs _ => ?_).bind fun _ => .lift _
      exact ⟨s, rfl, exists_test_of_segment [] (.inr hs)⟩

/-- If a statement updates or deletes, the request has a route, and the
statement is guarded there. -/
def SafeFor (catalog : Catalog) (request : Request)
    (p : PreparedStatement) : Prop :=
  p.alters = true → ∃ route segment s,
    catalog.find request.method request.path = .route route segment ∧
      p = s.prepare ∧ GuardedAt request route segment s

theorem handle_safe (engine : Engine δ) (request : Request) :
    Sends (SafeFor engine.catalog request) (engine.handle request) := by
  unfold Engine.handle
  split
  · next route segment hFind =>
      refine (answer_safe engine route segment request).mono
        fun p hSafe hAlters => ?_
      obtain ⟨s, hSame, hGuarded⟩ := hSafe hAlters
      exact ⟨route, segment, s, hFind, hSame, hGuarded⟩
  · exact .pure _
  · exact .pure _

/-- Whatever a request sends is safe for it. -/
theorem respond_safe (engine : Engine δ) (request : Request)
    (world : World δ) :
    ∃ new, ((engine.respond request).run world).2.events =
        world.events ++ new ∧
      ∀ p, .statement p ∈ new → SafeFor engine.catalog request p :=
  engine.respond_sends (handle_safe engine request) world

/-- No write lacks a condition. A batch write has the conjuncts of the filters
of its request, a write to one record a test for each column of the primary
key, and there is always one. The key columns themselves are tested just when
their names may stand in a statement, and always if the table lists them.
Whatever a request holds, each UPDATE and DELETE that it leads to is such a
write, on a route that writes. -/
theorem writes_guarded (table : Table) (values : Fields) (params : Params)
    (key : List Value) (engine : Engine δ) (request : Request)
    (world : World δ) :
    (∀ s, Sql.update table values params = .ok s ∨
        Sql.delete table params = .ok s → GuardedBy params.filters s) ∧
    (∀ s, Sql.updateByKey table key values = .ok s ∨
        Sql.deleteByKey table key = .ok s →
      GuardedByKey table key s ∧
      (TestsKey table key s ↔
        ∀ name ∈ table.primaryKey, isName name.toList = true) ∧
      (table.primaryKey ⊆ table.columnNames → TestsKey table key s)) ∧
    ∃ new, ((engine.respond request).run world).2.events =
        world.events ++ new ∧
      ∀ p, .statement p ∈ new → SafeFor engine.catalog request p := by
  refine ⟨fun s h => h.elim Sql.update_guarded Sql.delete_guarded,
    fun s h => ?_, respond_safe engine request world⟩
  have hGuarded : GuardedByKey table key s :=
    h.elim Sql.updateByKey_guarded Sql.deleteByKey_guarded
  refine ⟨hGuarded, hGuarded.testsKey_iff, fun hListed => ?_⟩
  exact hGuarded.testsKey_iff.2 fun name hName =>
    Sql.isName_of_writeByKey h name (hListed hName)

/-- A table whose key has two columns. -/
def pairs : Table where
  schema := "public"
  name := "pairs"
  primaryKey := ["left", "right"]
  columns := [{ name := "left" }, { name := "right" }]

/-- A request to delete the items that two groups without filters select. -/
def deleteUnfiltered : Request where
  method := "DELETE"
  path := "/public/items"
  query := Encoding.Utf8.encode "or=()&and=(or())".toList

open Engine in
theorem writes_guarded_items :
    (∃ s, Sql.update Sql.items [("id", .int 1)]
        { filters := Sql.interleaved } = .ok s ∧
      GuardedBy Sql.interleaved s) ∧
    (∃ s, Sql.deleteByKey pairs [.int 7, .null] = .ok s ∧
      GuardedByKey pairs [.int 7, .null] s ∧
      TestsKey pairs [.int 7, .null] s) ∧
    .statement itemDeleted ∈
        ((tiringItems.respond deleteOne).run ⟨{}, 0, []⟩).2.events ∧
      itemDeleted.alters = true ∧
      SafeFor tiringItems.catalog deleteOne itemDeleted := by
  have hGuarded (table : Table) (key : List Value) :=
    writes_guarded table [("id", .int 1)] { filters := Sql.interleaved } key
      tiringItems deleteOne ⟨{}, 0, []⟩
  obtain ⟨hBatch, -, new, hEvents, hSafe⟩ := hGuarded Sql.items []
  obtain ⟨-, hKey, -⟩ := hGuarded pairs [.int 7, .null]
  obtain ⟨batch, hUpdate⟩ : ∃ s, Sql.update Sql.items [("id", .int 1)]
      { filters := Sql.interleaved } = .ok s := ⟨_, rfl⟩
  obtain ⟨one, hDelete⟩ : ∃ s,
      Sql.deleteByKey pairs [.int 7, .null] = .ok s := ⟨_, rfl⟩
  have hSent : .statement itemDeleted ∈
      ((tiringItems.respond deleteOne).run ⟨{}, 0, []⟩).2.events := by
    decide +kernel
  rw [List.nil_append] at hEvents
  obtain ⟨hByKey, -, hListed⟩ := hKey one (Or.inr hDelete)
  exact ⟨⟨batch, hUpdate, hBatch batch (Or.inl hUpdate)⟩,
    ⟨one, hDelete, hByKey, hListed (by decide)⟩, hSent, by decide +kernel,
    hSafe _ (hEvents ▸ hSent)⟩

example : ((Engine.tiringItems.respond deleteUnfiltered).run
    ⟨{}, 0, []⟩).2.events = [] := by
  decide +kernel

/-- A table with a key column that is spelled as a path. -/
def keyedByPath : Table where
  schema := "public"
  name := "t"
  primaryKey := ["data->x"]

/-- The record with such a key is not deleted by the test of its column: what
is tested is a part of the document in another column. -/
theorem write_tests_path :
    ∃ s, Sql.deleteByKey keyedByPath [.int 5] = .ok s ∧
      s.sql = "DELETE FROM \"public\".\"t\" WHERE \"data\"->'x' = $1" ++
        " RETURNING *" ∧
      ¬TestsKey keyedByPath [.int 5] s := by
  obtain ⟨s, hDelete⟩ :
      ∃ s, Sql.deleteByKey keyedByPath [.int 5] = .ok s := ⟨_, rfl⟩
  refine ⟨s, hDelete, ?_, fun hTests => ?_⟩
  · obtain rfl := Except.ok.inj hDelete
    decide +kernel
  · have hNames := (Sql.deleteByKey_guarded hDelete).testsKey_iff.1 hTests
    exact absurd (hNames "data->x" (by decide)) (by decide)

end TableGate
