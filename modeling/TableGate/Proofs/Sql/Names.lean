import TableGate.Proofs.Sql.Composed
import TableGate.Proofs.Sql.Placeholders

/-!
# The names in the text of a statement

Double quotes stand around the names of a statement and nowhere else in its
text, so the names can be read back from the text. Each is a column, the table
after its schema, or the name that a column of the result is given.

## Main results

* `Composed.names`: the names in a text are those of the pieces it is composed
  of.
-/

namespace TableGate.Sql

/-! ## Double-quoted names -/

/-- A double-quoted name of a text, with what stands before and after it.
Quotes come in pairs, so an even number of them stands before the first quote
of a name. -/
structure QuotedAt (text before name after : List Char) : Prop where
  text_eq : text = before ++ '\x22' :: (name ++ '\x22' :: after)
  opens : before.count '\x22' % 2 = 0
  closes : '\x22' ∉ name

namespace QuotedAt

variable {cs rest before name after : List Char}

/-- No name starts within text that has no quotes. -/
theorem of_append (hPlain : '\x22' ∉ cs)
    (h : QuotedAt (cs ++ rest) before name after) :
    ∃ later, before = cs ++ later ∧ QuotedAt rest later name after := by
  obtain ⟨hText, hOpens, hCloses⟩ := h
  rcases List.append_eq_append_iff.1 hText with
    ⟨later, rfl, hRest⟩ | ⟨left, rfl, hRest⟩
  · refine ⟨later, rfl, hRest, ?_, hCloses⟩
    rwa [List.count_append, List.count_eq_zero.2 hPlain, Nat.zero_add]
      at hOpens
  · cases left with
    | nil => exact ⟨[], by simp, hRest.symm, rfl, hCloses⟩
    | cons c left =>
        rw [List.cons_append] at hRest
        rw [(List.cons.inj hRest).1] at hPlain
        simp at hPlain

/-- A name ends at the first quote. -/
theorem eq_of_append_eq {as bs more : List Char} (ha : '\x22' ∉ as)
    (hb : '\x22' ∉ bs) (h : as ++ '\x22' :: rest = bs ++ '\x22' :: more) :
    as = bs ∧ rest = more := by
  have hEnds : ∀ (xs tail : List Char), '\x22' ∉ xs →
      (xs ++ '\x22' :: tail).takeWhile (· != '\x22') = xs ∧
        (xs ++ '\x22' :: tail).dropWhile (· != '\x22') = '\x22' :: tail :=
    fun xs tail hNone => takeWhile_append_of_ends
      (fun c hc => bne_iff_ne.2 fun hEq => hNone (hEq ▸ hc))
      (by simp)
  obtain ⟨hTake, hDrop⟩ := hEnds as rest ha
  obtain ⟨hOther, hMore⟩ := hEnds bs more hb
  rw [h] at hTake hDrop
  exact ⟨hTake.symm.trans hOther,
    (List.cons.inj (hDrop.symm.trans hMore)).2⟩

/-- A text that starts with a name has that name and those of the rest. -/
theorem of_quoted (hName : '\x22' ∉ cs)
    (h : QuotedAt (('\x22' :: cs ++ ['\x22']) ++ rest) before name after) :
    (before = [] ∧ name = cs ∧ after = rest) ∨
      ∃ later, before = ('\x22' :: cs ++ ['\x22']) ++ later ∧
        QuotedAt rest later name after := by
  obtain ⟨hText, hOpens, hCloses⟩ := h
  simp only [List.cons_append, List.append_assoc, List.nil_append] at hText
  cases before with
  | nil =>
      obtain ⟨hSame, hRest⟩ := eq_of_append_eq hName hCloses
        (List.cons.inj hText).2
      exact .inl ⟨rfl, hSame.symm, hRest.symm⟩
  | cons c before =>
      -- One quote is passed, so the quotes that are left before the name are
      -- odd in number, and the first of them closes this one.
      obtain ⟨rfl, hTail⟩ := List.cons.inj hText
      rw [List.count_cons_self] at hOpens
      rcases List.append_eq_append_iff.1 hTail with
        ⟨later, rfl, hEnd⟩ | ⟨left, rfl, -⟩
      · rw [List.count_append, List.count_eq_zero.2 hName] at hOpens
        cases later with
        | nil => simp at hOpens
        | cons d later =>
            obtain ⟨rfl, hRest⟩ := List.cons.inj hEnd
            rw [List.count_cons_self] at hOpens
            exact .inr ⟨later, by simp, hRest, by omega, hCloses⟩
      · have hNone : before.count '\x22' = 0 :=
          List.count_eq_zero.2 fun hMem => hName (List.mem_append_left _ hMem)
        omega

end QuotedAt

/-! ## What the names stand for -/

/-- What a double-quoted name of a statement stands for: a column of the
table, the table after its schema, or a name that is given after AS. -/
inductive StandsFor (table : Table) (before name after : List Char) : Prop
  | column (h : String.ofList name ∈ table.columnNames)
  | schema (hName : name = table.schema.toList)
      (hAfter : '.' :: ('\x22' :: table.name.toList ++ ['\x22']) <+: after)
  | table (hName : name = table.name.toList)
      (hBefore : ('\x22' :: table.schema.toList ++ ['\x22']) ++ ['.'] <:+
        before)
  | label (h : " AS ".toList <:+ before)

variable {table : Table} {before name after : List Char}

theorem StandsFor.append (h : StandsFor table before name after)
    (earlier : List Char) :
    StandsFor table (earlier ++ before) name after := by
  have hLater : before <:+ earlier ++ before := List.suffix_append _ _
  cases h with
  | column h => exact .column h
  | schema hName hAfter => exact .schema hName hAfter
  | table hName hBefore => exact .table hName (hBefore.trans hLater)
  | label h => exact .label (h.trans hLater)

/-- The names of a text are columns of the table, the table itself, and names
given after AS. -/
def OnlyColumns (table : Table) (text : String) : Prop :=
  ∀ before name after, QuotedAt text.toList before name after →
    StandsFor table before name after

theorem Word.quote_notMem (w : Word) : '\x22' ∉ w.text.toList := by
  have hAll : ∀ w ∈ Word.all, '\x22' ∉ w.text.toList := by decide +kernel
  exact hAll w w.mem_all

theorem quote_notMem_name (id : Identifier) : '\x22' ∉ id.text.toList :=
  id.notMem_text (by decide)

/-- Only names bring quotes. -/
theorem quote_notMem_chars {piece : Piece} (h : piece.isPlain = true)
    (mark : List Char) : '\x22' ∉ piece.chars mark := by
  cases piece with
  | word w => exact w.quote_notMem
  | field id =>
      rw [Piece.chars_eq rfl, toList_field]
      simp [quote_notMem_name id]
  | index digits =>
      intro hMem
      exact absurd (isDigit_of_mem_isDigits digits.isDigits _ hMem) (by decide)
  | _ => exact absurd h Bool.false_ne_true

/-- The names in the text of a fragment are those it is composed of. -/
theorem Composed.names {values : Prop} {fragment : Fragment}
    (h : Composed table (· ∈ table.columnNames) values fragment)
    {mark : Nat → List Char} (hMark : ∀ n, '\x22' ∉ mark n) (count : Nat)
    (hAt : QuotedAt (charsWith mark count fragment) before name after) :
    StandsFor table before name after := by
  induction h generalizing count before with
  | nil =>
      have hNone := congrArg List.length hAt.text_eq
      simp [charsWith] at hNone
  | plain hPlain _ ih =>
      rw [charsWith] at hAt
      obtain ⟨later, rfl, hRest⟩ := hAt.of_append (quote_notMem_chars hPlain _)
      exact (ih _ hRest).append _
  | @target schema id rest hSchema hName _ ih =>
      have hText : charsWith mark count (.table schema id :: rest) =
          ('\x22' :: schema.text.toList ++ ['\x22']) ++ (['.'] ++
            (('\x22' :: id.text.toList ++ ['\x22']) ++
              charsWith mark count rest)) := by
        rw [charsWith, Piece.chars_eq rfl, toList_table, toList_quoted,
          toList_quoted]
        simp [Piece.values]
      rw [hText] at hAt
      rcases hAt.of_quoted (quote_notMem_name schema) with
        ⟨rfl, rfl, rfl⟩ | ⟨dotted, rfl, hDotted⟩
      · refine .schema (by rw [hSchema]) ?_
        rw [← hName, List.singleton_append]
        exact List.prefix_append _ _
      · obtain ⟨second, rfl, hSecond⟩ := hDotted.of_append (by simp)
        rcases hSecond.of_quoted (quote_notMem_name id) with
          ⟨rfl, rfl, rfl⟩ | ⟨later, rfl, hRest⟩
        · refine .table (by rw [hName]) ⟨[], ?_⟩
          simp [hSchema]
        · exact (((ih _ hRest).append _).append _).append _
  | @column id rest hColumn _ ih =>
      rw [charsWith, Piece.chars_eq rfl, Piece.text, toList_quoted] at hAt
      rcases hAt.of_quoted (quote_notMem_name id) with
        ⟨rfl, rfl, rfl⟩ | ⟨later, rfl, hRest⟩
      · exact .column (by rwa [String.ofList_toList])
      · exact (ih _ hRest).append _
  | @named id rest _ ih =>
      rw [charsWith] at hAt
      obtain ⟨given, rfl, hGiven⟩ := hAt.of_append Word.asName.quote_notMem
      rw [charsWith, Piece.chars_eq rfl, Piece.text, toList_quoted] at hGiven
      rcases hGiven.of_quoted (quote_notMem_name id) with
        ⟨rfl, rfl, rfl⟩ | ⟨later, rfl, hRest⟩
      · exact .label ⟨[], (List.append_nil _).symm⟩
      · exact ((ih _ hRest).append _).append _
  | bind _ _ ih =>
      rw [charsWith] at hAt
      obtain ⟨later, rfl, hRest⟩ := hAt.of_append (hMark _)
      exact (ih _ hRest).append _

/-- A statement that is composed of columns of a table sends no other
names. -/
theorem Composed.onlyColumns {s : Statement} {values : Prop}
    (h : Composed table (· ∈ table.columnNames) values s.pieces) :
    OnlyColumns table s.prepare.sql := by
  intro before name after hAt
  rw [s.toList_prepare] at hAt
  refine h.names (fun n hMem => ?_) 0 hAt
  have hDigits := notMem_natDigits (c := '\x22') (by decide) n
  simp [Sql.named, hDigits] at hMem

end TableGate.Sql
