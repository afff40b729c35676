import TableGate.Proofs.Json.Lexemes

/-!
# The reader and the grammar

The reader reads the text of every tree, and what it reads is the text of
some tree. So a document is refused for one of two reasons only: its text is
that of no tree, or one of its numbers is refused, and then the first of them
is reported.

## Main results

* `Document.readAll_text`: the text of a document is read as its value, or
  stops at the first number that is refused.
* `exists_document`: what is read is the text of a document.
* `readValue_of_lt`: the fuel of the reader is never used up.
* `Document.text_ne_of_fault`: what is at fault is the text of none.
* `read_eq_ok_iff`: the two together.
-/

namespace TableGate.Json

open Result (bind_eq_ok pure_eq_ok)

variable {allowed : Bool} {cs rest : List Char} {v : Value}

/-! ## Values -/

/-- The first number that is refused, as the reason for it. -/
def firstStop? (allowed : Bool) (numerals : List Numeral) : Option Stop :=
  numerals.findSome? (Numeral.stop? allowed)

theorem firstStop?_append (a b : List Numeral) :
    firstStop? allowed (a ++ b) =
      (firstStop? allowed a).or (firstStop? allowed b) :=
  List.findSome?_append

/-- A number is read wherever one may stand. -/
theorem Numeral.readValue_text (n : Numeral) (h : EndsNumber rest)
    (fuel : Nat) :
    readValue allowed (fuel + 1) (n.text ++ rest) =
      outcome (n.stop? allowed) (n.value, rest) := by
  have hFront : ∀ (whole : Whole) (negative : Bool) (tail : List Char),
      readValue allowed (fuel + 1)
          (signText negative ++ (whole.chars ++ tail)) =
        readNumber (signText negative ++ (whole.chars ++ tail)) := by
    intro whole negative tail
    obtain ⟨c, others, hChars, hDigit⟩ := whole.exists_chars
    rw [hChars]
    cases negative with
    | false => exact (readValue_of_isDigit hDigit fuel _).1
    | true => exact (readValue_of_isDigit hDigit fuel _).2
  cases n with
  | integer negative whole =>
      rw [← readNumber_integer negative whole h, text, List.append_assoc]
      exact hFront whole negative rest
  | decimal negative whole places power fractional =>
      rw [stop?, outcome, ← readNumber_decimal negative whole places power
        fractional h, text, List.append_assoc, List.append_assoc]
      exact hFront whole negative _
  | nan => cases allowed <;> rfl
  | infinity negative => cases negative <;> cases allowed <;> rfl

theorem Numeral.startsValue_text (n : Numeral) : StartsValue n.text := by
  have hFront : ∀ (whole : Whole) (negative : Bool) (tail : List Char),
      StartsValue (signText negative ++ (whole.chars ++ tail)) := by
    intro whole negative tail
    obtain ⟨c, others, hChars, hDigit⟩ := whole.exists_chars
    rw [hChars]
    cases negative with
    | false => exact startsValue_of_isDigit hDigit _
    | true => exact ⟨'-', _, rfl, rfl, by decide⟩
  cases n with
  | integer negative whole =>
      have hText := hFront whole negative []
      rwa [List.append_nil] at hText
  | decimal negative whole places power _ => exact hFront whole negative _
  | nan => exact ⟨'N', _, rfl, rfl, by decide⟩
  | infinity negative =>
      cases negative with
      | false => exact ⟨'I', _, rfl, rfl, by decide⟩
      | true => exact ⟨'-', _, rfl, rfl, by decide⟩

theorem Element.startsValue_chars (e : Element) : StartsValue e.chars := by
  cases e with
  | null => exact ⟨'n', _, rfl, rfl, by decide⟩
  | bool b =>
      cases b with
      | false => exact ⟨'f', _, rfl, rfl, by decide⟩
      | true => exact ⟨'t', _, rfl, rfl, by decide⟩
  | number n => exact n.startsValue_text
  | text q => exact ⟨quote, _, rfl, rfl, by decide⟩
  | emptyList inner => exact ⟨'[', _, rfl, rfl, by decide⟩
  | list inner elements => exact ⟨'[', _, rfl, rfl, by decide⟩
  | emptyObject inner => exact ⟨'\x7b', _, rfl, rfl, by decide⟩
  | object inner pairs => exact ⟨'\x7b', _, rfl, rfl, by decide⟩

theorem Elements.startsValue_chars (es : Elements) :
    StartsValue es.chars := by
  cases es with
  | last e after => exact e.startsValue_chars.append _
  | cons e after before rest => exact e.startsValue_chars.append _

theorem Pairs.exists_chars (ps : Pairs) :
    ∃ others, ps.chars = quote :: others := by
  cases ps with
  | last label e after => exact ⟨_, rfl⟩
  | cons label e after before rest => exact ⟨_, rfl⟩

/-- A list is read as its items are. -/
theorem readValue_list (inner : Gap) (es : Elements) {fuel : Nat}
    (h : readItems allowed fuel (es.chars ++ ']' :: rest) =
      outcome (firstStop? allowed es.numerals) (es.values, rest)) :
    readValue allowed (fuel + 1) ((Element.list inner es).chars ++ rest) =
      outcome (firstStop? allowed es.numerals) (.list es.values, rest) := by
  have hText : (Element.list inner es).chars ++ rest =
      '[' :: (inner.chars ++ (es.chars ++ ']' :: rest)) := by
    rw [Element.chars, List.cons_append, List.append_assoc, List.append_assoc]
    rfl
  have hSkip := skipBlanks_append inner.blank
    (es.startsValue_chars.append (']' :: rest))
  obtain ⟨c, others, hChars, -, hClose⟩ :=
    es.startsValue_chars.append (']' :: rest)
  rw [hText, readValue, hSkip]
  split
  · next hEmpty =>
      rw [hChars] at hEmpty
      exact absurd (List.cons.inj hEmpty).1 hClose
  · rw [h]
    cases firstStop? allowed es.numerals <;> rfl

/-- An object is read as its fields are. -/
theorem readValue_object (inner : Gap) (ps : Pairs) {fuel : Nat}
    (h : readFields allowed fuel (ps.chars ++ '\x7d' :: rest) =
      outcome (firstStop? allowed ps.numerals) (ps.values, rest)) :
    readValue allowed (fuel + 1) ((Element.object inner ps).chars ++ rest) =
      outcome (firstStop? allowed ps.numerals)
        (.object (Fields.ofPairs ps.values), rest) := by
  have hText : (Element.object inner ps).chars ++ rest =
      '\x7b' :: (inner.chars ++ (ps.chars ++ '\x7d' :: rest)) := by
    rw [Element.chars, List.cons_append, List.append_assoc, List.append_assoc]
    rfl
  obtain ⟨others, hChars⟩ := ps.exists_chars
  have hSkip : skipBlanks (inner.chars ++ (ps.chars ++ '\x7d' :: rest)) =
      ps.chars ++ '\x7d' :: rest := by
    rw [hChars]
    exact inner.skipBlanks_append rfl
  rw [hText, readValue, hSkip]
  split
  · next hEmpty =>
      rw [hChars] at hEmpty
      exact absurd (List.cons.inj hEmpty).1 (by decide)
  · rw [h]
    cases firstStop? allowed ps.numerals <;> rfl

theorem endsNumber_mark {mark : Char} (gap : Gap) (rest : List Char)
    (h : mark = ',' ∨ mark = ']' ∨ mark = '\x7d') :
    EndsNumber (gap.chars ++ mark :: rest) := by
  refine gap.endsNumber (endsNumber_cons ?_)
  rcases h with rfl | rfl | rfl
  all_goals decide

/-- A label is read up to the value. -/
theorem readFields_label (label : Label) (tail : List Char) (fuel : Nat)
    (hTail : StartsValue tail) :
    readFields allowed (fuel + 1) (label.text ++ tail) =
      match readValue allowed fuel tail with
      | .error stop => .error stop
      | .ok (value, afterValue) =>
          match skipBlanks afterValue with
          | '\x7d' :: remaining =>
              .ok ([(label.name.value, value)], remaining)
          | ',' :: more =>
              match readFields allowed fuel (skipBlanks more) with
              | .ok (fields, remaining) =>
                  .ok ((label.name.value, value) :: fields, remaining)
              | .error stop => .error stop
          | rest => .error (.fault .expectedComma rest.length) := by
  have hText : label.text ++ tail = '\x22' ::
      (label.name.glyphs.flatMap Glyph.text ++ quote ::
        (label.after.chars ++ ':' :: (label.before.chars ++ tail))) := by
    simp only [Label.text, Quoted.text, List.cons_append, List.append_assoc,
      List.nil_append]
  rw [hText, readFields, label.name.readText_glyphs]
  simp only
  rw [label.after.skipBlanks_append rfl]
  simp only
  generalize hBody : skipBlanks (label.before.chars ++ tail) = body
  obtain rfl : body = tail :=
    hBody.symm.trans (skipBlanks_append label.before.blank hTail)
  rfl

mutual

/-- An element is read wherever it stands, unless a number is refused. -/
theorem Element.readValue_chars : ∀ (e : Element) (fuel : Nat)
    (rest : List Char), e.chars.length ≤ fuel → EndsNumber rest →
      readValue allowed fuel (e.chars ++ rest) =
        outcome (firstStop? allowed e.numerals) (e.value, rest)
  | e, 0, rest, hFuel, _ => by
      obtain ⟨c, others, hChars, -⟩ := e.startsValue_chars
      rw [hChars] at hFuel
      exact absurd hFuel (Nat.not_succ_le_zero _)
  | .null, fuel + 1, rest, _, _ => rfl
  | .bool true, fuel + 1, rest, _, _ => rfl
  | .bool false, fuel + 1, rest, _, _ => rfl
  | .number n, fuel + 1, rest, _, hRest => by
      rw [Element.chars, n.readValue_text hRest, Element.numerals, firstStop?,
        List.findSome?_singleton]
      rfl
  | .text q, fuel + 1, rest, _, _ => by
      have hText : (Element.text q).chars ++ rest =
          '\x22' :: (q.glyphs.flatMap Glyph.text ++ quote :: rest) := by
        rw [Element.chars, Quoted.text, List.cons_append, List.append_assoc]
        rfl
      rw [hText, readValue, q.readText_glyphs]
      rfl
  | .emptyList inner, fuel + 1, rest, _, _ => by
      have hText : (Element.emptyList inner).chars ++ rest =
          '[' :: (inner.chars ++ ']' :: rest) := by
        rw [Element.chars, List.cons_append, List.append_assoc]
        rfl
      rw [hText, readValue, inner.skipBlanks_append rfl]
      rfl
  | .emptyObject inner, fuel + 1, rest, _, _ => by
      have hText : (Element.emptyObject inner).chars ++ rest =
          '\x7b' :: (inner.chars ++ '\x7d' :: rest) := by
        rw [Element.chars, List.cons_append, List.append_assoc]
        rfl
      rw [hText, readValue, inner.skipBlanks_append rfl]
      rfl
  | .list inner es, fuel + 1, rest, hFuel, _ => by
      have hShort : es.chars.length < fuel := by
        simp only [Element.chars, List.length_cons, List.length_append,
          List.length_nil] at hFuel
        omega
      exact readValue_list inner es (es.readItems_chars fuel rest hShort)
  | .object inner ps, fuel + 1, rest, hFuel, _ => by
      have hShort : ps.chars.length < fuel := by
        simp only [Element.chars, List.length_cons, List.length_append,
          List.length_nil] at hFuel
        omega
      exact readValue_object inner ps (ps.readFields_chars fuel rest hShort)

/-- The items of an array are read up to its bracket. -/
theorem Elements.readItems_chars : ∀ (es : Elements) (fuel : Nat)
    (rest : List Char), es.chars.length < fuel →
      readItems allowed fuel (es.chars ++ ']' :: rest) =
        outcome (firstStop? allowed es.numerals) (es.values, rest)
  | .last e after, fuel + 1, rest, hFuel => by
      have hShort : e.chars.length ≤ fuel := by
        simp only [Elements.chars, List.length_append] at hFuel
        omega
      have hItem := e.readValue_chars fuel _ hShort
        (endsNumber_mark after rest (Or.inr (Or.inl rfl)))
      rw [Elements.chars, List.append_assoc, readItems, hItem,
        Elements.numerals]
      cases firstStop? allowed e.numerals with
      | some stop => rfl
      | none =>
          dsimp only [outcome]
          rw [after.skipBlanks_append rfl]
          rfl
  | .cons e after before es, fuel + 1, rest, hFuel => by
      have hLength : e.chars.length + es.chars.length < fuel := by
        simp only [Elements.chars, List.length_append, List.length_cons]
          at hFuel
        omega
      have hText : (Elements.cons e after before es).chars ++ ']' :: rest =
          e.chars ++ (after.chars ++ ',' ::
            (before.chars ++ (es.chars ++ ']' :: rest))) := by
        simp only [Elements.chars, List.append_assoc, List.cons_append]
      have hItem := e.readValue_chars fuel _
        (Nat.le_of_lt (Nat.lt_of_le_of_lt (Nat.le_add_right _ _) hLength))
        (endsNumber_mark after
          (before.chars ++ (es.chars ++ ']' :: rest)) (Or.inl rfl))
      have hItems := es.readItems_chars fuel rest
        (Nat.lt_of_le_of_lt (Nat.le_add_left _ _) hLength)
      rw [hText, readItems, hItem, Elements.numerals, firstStop?_append]
      cases firstStop? allowed e.numerals with
      | some stop => rfl
      | none =>
          dsimp only [outcome]
          rw [after.skipBlanks_append rfl]
          simp only
          rw [skipBlanks_append before.blank (es.startsValue_chars.append _),
            hItems, Option.none_or]
          cases firstStop? allowed es.numerals <;> rfl

/-- The fields of an object are read up to its brace. -/
theorem Pairs.readFields_chars : ∀ (ps : Pairs) (fuel : Nat)
    (rest : List Char), ps.chars.length < fuel →
      readFields allowed fuel (ps.chars ++ '\x7d' :: rest) =
        outcome (firstStop? allowed ps.numerals) (ps.values, rest)
  | .last label e after, fuel + 1, rest, hFuel => by
      have hShort : e.chars.length ≤ fuel := by
        simp only [Pairs.chars, List.length_append] at hFuel
        omega
      have hText : (Pairs.last label e after).chars ++ '\x7d' :: rest =
          label.text ++ (e.chars ++ (after.chars ++ '\x7d' :: rest)) := by
        simp only [Pairs.chars, List.append_assoc]
      have hValue := e.readValue_chars fuel _ hShort
        (endsNumber_mark after rest (Or.inr (Or.inr rfl)))
      rw [hText, readFields_label label _ fuel (e.startsValue_chars.append _),
        hValue, Pairs.numerals]
      cases firstStop? allowed e.numerals with
      | some stop => rfl
      | none =>
          dsimp only [outcome]
          rw [after.skipBlanks_append rfl]
          rfl
  | .cons label e after before ps, fuel + 1, rest, hFuel => by
      have hLength : e.chars.length + ps.chars.length < fuel := by
        simp only [Pairs.chars, List.length_append, List.length_cons]
          at hFuel
        omega
      have hText : (Pairs.cons label e after before ps).chars ++
          '\x7d' :: rest =
          label.text ++ (e.chars ++ (after.chars ++ ',' ::
            (before.chars ++ (ps.chars ++ '\x7d' :: rest)))) := by
        simp only [Pairs.chars, List.append_assoc, List.cons_append]
      have hValue := e.readValue_chars fuel _
        (Nat.le_of_lt (Nat.lt_of_le_of_lt (Nat.le_add_right _ _) hLength))
        (endsNumber_mark after
          (before.chars ++ (ps.chars ++ '\x7d' :: rest)) (Or.inl rfl))
      have hFields := ps.readFields_chars fuel rest
        (Nat.lt_of_le_of_lt (Nat.le_add_left _ _) hLength)
      obtain ⟨others, hOthers⟩ := ps.exists_chars
      have hSkip : skipBlanks
          (before.chars ++ (ps.chars ++ '\x7d' :: rest)) =
          ps.chars ++ '\x7d' :: rest := by
        rw [hOthers]
        exact before.skipBlanks_append rfl
      rw [hText, readFields_label label _ fuel (e.startsValue_chars.append _),
        hValue, Pairs.numerals, firstStop?_append]
      cases firstStop? allowed e.numerals with
      | some stop => rfl
      | none =>
          dsimp only [outcome]
          rw [after.skipBlanks_append rfl]
          simp only
          rw [hSkip, hFields, Option.none_or]
          cases firstStop? allowed ps.numerals <;> rfl

end

/-! ## What is read is of the grammar -/

theorem exists_constant {word : String} {x : Number.Binary64}
    {remaining : List Char}
    (h : constant allowed word x remaining = .ok (v, rest)) :
    allowed = true ∧ .float x = v ∧ remaining = rest := by
  unfold constant at h
  split at h
  · next hAllowed => exact ⟨hAllowed, Prod.mk.inj (Except.ok.inj h)⟩
  · cases h

/-- What is read with so much fuel is of the grammar. -/
structure ReadsGrammar (allowed : Bool) (fuel : Nat) : Prop where
  value : ∀ {cs v rest}, readValue allowed fuel cs = .ok (v, rest) →
    ∃ e : Element, cs = e.chars ++ rest ∧ e.value = v ∧
      firstStop? allowed e.numerals = none
  items : ∀ {cs items rest}, readItems allowed fuel cs = .ok (items, rest) →
    ∃ es : Elements, cs = es.chars ++ ']' :: rest ∧ es.values = items ∧
      firstStop? allowed es.numerals = none
  fields : ∀ {cs fields rest},
    readFields allowed fuel cs = .ok (fields, rest) →
      ∃ ps : Pairs, cs = ps.chars ++ '\x7d' :: rest ∧ ps.values = fields ∧
        firstStop? allowed ps.numerals = none

namespace ReadsGrammar

variable {fuel : Nat}

theorem word_of_constant {word : String} {x : Number.Binary64}
    {remaining : List Char} {n : Numeral}
    (h : constant allowed word x remaining = .ok (v, rest))
    (hText : cs = n.text ++ remaining) (hValue : n.value = .float x)
    (hStop : n.stop? true = none) :
    ∃ e : Element, cs = e.chars ++ rest ∧ e.value = v ∧
      firstStop? allowed e.numerals = none := by
  obtain ⟨rfl, rfl, rfl⟩ := exists_constant h
  refine ⟨.number n, hText, hValue, ?_⟩
  rw [Element.numerals, firstStop?, List.findSome?_singleton, hStop]

theorem succ_value (ih : ReadsGrammar allowed fuel)
    (h : readValue allowed (fuel + 1) cs = .ok (v, rest)) :
    ∃ e : Element, cs = e.chars ++ rest ∧ e.value = v ∧
      firstStop? allowed e.numerals = none := by
  rw [readValue.eq_def] at h
  dsimp only at h
  split at h
  case h_1 tail =>
    split at h
    · next hText =>
        obtain ⟨rfl, rfl⟩ := Prod.mk.inj (Except.ok.inj h)
        obtain ⟨q, hChars, rfl⟩ := exists_quoted hText
        exact ⟨.text q, hChars, rfl, rfl⟩
    · cases h
  case h_2 tail =>
    obtain ⟨inner, hInner⟩ := exists_gap tail
    split at h
    · next hSkip =>
        obtain ⟨rfl, rfl⟩ := Prod.mk.inj (Except.ok.inj h)
        refine ⟨.emptyObject inner, ?_, rfl, rfl⟩
        rw [hInner, hSkip, Element.chars, List.cons_append, List.append_assoc]
        rfl
    · split at h
      · next hFields =>
          obtain ⟨rfl, rfl⟩ := Prod.mk.inj (Except.ok.inj h)
          obtain ⟨ps, hChars, rfl, hStop⟩ := ih.fields hFields
          refine ⟨.object inner ps, ?_, rfl, hStop⟩
          rw [hInner, hChars, Element.chars, List.cons_append,
            List.append_assoc, List.append_assoc]
          rfl
      · cases h
  case h_3 tail =>
    obtain ⟨inner, hInner⟩ := exists_gap tail
    split at h
    · next hSkip =>
        obtain ⟨rfl, rfl⟩ := Prod.mk.inj (Except.ok.inj h)
        refine ⟨.emptyList inner, ?_, rfl, rfl⟩
        rw [hInner, hSkip, Element.chars, List.cons_append, List.append_assoc]
        rfl
    · split at h
      · next hItems =>
          obtain ⟨rfl, rfl⟩ := Prod.mk.inj (Except.ok.inj h)
          obtain ⟨es, hChars, rfl, hStop⟩ := ih.items hItems
          refine ⟨.list inner es, ?_, rfl, hStop⟩
          rw [hInner, hChars, Element.chars, List.cons_append,
            List.append_assoc, List.append_assoc]
          rfl
      · cases h
  case h_4 =>
    obtain ⟨rfl, rfl⟩ := Prod.mk.inj (Except.ok.inj h)
    exact ⟨.null, rfl, rfl, rfl⟩
  case h_5 =>
    obtain ⟨rfl, rfl⟩ := Prod.mk.inj (Except.ok.inj h)
    exact ⟨.bool true, rfl, rfl, rfl⟩
  case h_6 =>
    obtain ⟨rfl, rfl⟩ := Prod.mk.inj (Except.ok.inj h)
    exact ⟨.bool false, rfl, rfl, rfl⟩
  case h_7 => exact word_of_constant (n := .nan) h rfl rfl rfl
  case h_8 => exact word_of_constant (n := .infinity false) h rfl rfl rfl
  case h_9 => exact word_of_constant (n := .infinity true) h rfl rfl rfl
  case h_10 =>
    obtain ⟨n, hText, hValue, hStop⟩ := exists_numeral h
    refine ⟨.number n, hText, hValue, ?_⟩
    rw [Element.numerals, firstStop?, List.findSome?_singleton, hStop]

theorem succ_items {items : List Value} (ih : ReadsGrammar allowed fuel)
    (h : readItems allowed (fuel + 1) cs = .ok (items, rest)) :
    ∃ es : Elements, cs = es.chars ++ ']' :: rest ∧ es.values = items ∧
      firstStop? allowed es.numerals = none := by
  rw [readItems.eq_def] at h
  dsimp only at h
  split at h
  · cases h
  next item afterItem hItem =>
    obtain ⟨e, rfl, rfl, hStop⟩ := ih.value hItem
    obtain ⟨after, hAfter⟩ := exists_gap afterItem
    split at h
    · next hClose =>
        obtain ⟨rfl, rfl⟩ := Prod.mk.inj (Except.ok.inj h)
        refine ⟨.last e after, ?_, rfl, hStop⟩
        rw [hAfter, hClose, Elements.chars, List.append_assoc]
    · next tail hComma =>
        obtain ⟨before, hBefore⟩ := exists_gap tail
        split at h
        · next hItems =>
            obtain ⟨rfl, rfl⟩ := Prod.mk.inj (Except.ok.inj h)
            obtain ⟨es, hChars, rfl, hStops⟩ := ih.items hItems
            refine ⟨.cons e after before es, ?_, rfl, ?_⟩
            · rw [hAfter, hComma, hBefore, hChars, Elements.chars]
              simp only [List.append_assoc, List.cons_append]
            · rw [Elements.numerals, firstStop?_append, hStop, hStops]
              rfl
        · cases h
    · cases h

theorem succ_fields {fields : List (String × Value)}
    (ih : ReadsGrammar allowed fuel)
    (h : readFields allowed (fuel + 1) cs = .ok (fields, rest)) :
    ∃ ps : Pairs, cs = ps.chars ++ '\x7d' :: rest ∧ ps.values = fields ∧
      firstStop? allowed ps.numerals = none := by
  rw [readFields.eq_def] at h
  dsimp only at h
  split at h
  · split at h
    · cases h
    next name afterName hName =>
      obtain ⟨q, hQuoted, rfl⟩ := exists_quoted hName
      obtain ⟨gap, hGap⟩ := exists_gap afterName
      split at h
      · next afterColon hColon =>
          obtain ⟨blanks, hBlanks⟩ := exists_gap afterColon
          split at h
          · cases h
          next value afterValue hValue =>
            obtain ⟨e, hChars, rfl, hStop⟩ := ih.value hValue
            obtain ⟨after, hAfter⟩ := exists_gap afterValue
            split at h
            · next hClose =>
                obtain ⟨rfl, rfl⟩ := Prod.mk.inj (Except.ok.inj h)
                refine ⟨.last ⟨q, gap, blanks⟩ e after, ?_, rfl, hStop⟩
                rw [hQuoted, hGap, hColon, hBlanks, hChars, hAfter, hClose,
                  Pairs.chars, Label.text]
                simp only [List.append_assoc, List.cons_append]
            · next tail hComma =>
                obtain ⟨before, hBefore⟩ := exists_gap tail
                split at h
                · next hFields =>
                    obtain ⟨rfl, rfl⟩ := Prod.mk.inj (Except.ok.inj h)
                    obtain ⟨ps, hPairs, rfl, hStops⟩ := ih.fields hFields
                    refine ⟨.cons ⟨q, gap, blanks⟩ e after before ps, ?_, rfl,
                      ?_⟩
                    · rw [hQuoted, hGap, hColon, hBlanks, hChars, hAfter,
                        hComma, hBefore, hPairs, Pairs.chars, Label.text]
                      simp only [List.append_assoc, List.cons_append]
                    · rw [Pairs.numerals, firstStop?_append, hStop, hStops]
                      rfl
                · cases h
            · cases h
      · cases h
  · cases h

end ReadsGrammar

theorem readsGrammar (fuel : Nat) : ReadsGrammar allowed fuel := by
  induction fuel with
  | zero => exact ⟨nofun, nofun, nofun⟩
  | succ fuel ih => exact ⟨ih.succ_value, ih.succ_items, ih.succ_fields⟩

/-! ## The fuel -/

theorem length_lt_of_readText {name : String}
    (h : readText cs = .ok (name, rest)) : rest.length < cs.length := by
  obtain ⟨q, hQuoted, -⟩ := exists_quoted h
  have hLength := congrArg List.length hQuoted
  simp only [Quoted.text, List.length_cons, List.length_append] at hLength
  omega

/-- What is read gets shorter. -/
theorem length_lt_of_readValue {fuel : Nat}
    (h : readValue allowed fuel cs = .ok (v, rest)) :
    rest.length < cs.length := by
  obtain ⟨e, rfl, -⟩ := (readsGrammar fuel).value h
  obtain ⟨c, others, hChars, -⟩ := e.startsValue_chars
  rw [hChars, List.length_append, List.length_cons]
  omega

/-- Two readers of values are the same where their readers of items and of
fields are. -/
theorem readValue_congr {fuel more : Nat}
    (hItems : ∀ inner : List Char, inner.length < cs.length →
      readItems allowed fuel inner = readItems allowed more inner)
    (hFields : ∀ inner : List Char, inner.length < cs.length →
      readFields allowed fuel inner = readFields allowed more inner) :
    readValue allowed (fuel + 1) cs = readValue allowed (more + 1) cs := by
  have hShorter : ∀ (c : Char) (tail : List Char),
      (skipBlanks tail).length < (c :: tail).length := fun c tail =>
    Nat.lt_succ_of_le (skipBlanks_length_le tail)
  rw [readValue.eq_def, readValue.eq_def]
  dsimp only
  split
  case h_2 tail =>
    have hInner := hFields _ (hShorter _ tail)
    generalize skipBlanks tail = inner at hInner
    split
    · rfl
    · rw [hInner]
  case h_3 tail =>
    have hInner := hItems _ (hShorter _ tail)
    generalize skipBlanks tail = inner at hInner
    split
    · rfl
    · rw [hInner]
  all_goals rfl

/-- With so much fuel it does not matter how much more there is. -/
structure Suffices (allowed : Bool) (fuel : Nat) : Prop where
  value : ∀ cs : List Char, 2 * cs.length < fuel →
    readValue allowed fuel cs = readValue allowed (fuel + 1) cs
  items : ∀ cs : List Char, 2 * cs.length + 1 < fuel →
    readItems allowed fuel cs = readItems allowed (fuel + 1) cs
  fields : ∀ cs : List Char, 2 * cs.length < fuel →
    readFields allowed fuel cs = readFields allowed (fuel + 1) cs

namespace Suffices

variable {fuel : Nat}

theorem succ_items (ih : Suffices allowed fuel)
    (h : 2 * cs.length + 1 < fuel + 1) :
    readItems allowed (fuel + 1) cs = readItems allowed (fuel + 2) cs := by
  rw [readItems.eq_def, readItems.eq_def]
  dsimp only
  rw [← ih.value cs (by omega)]
  split
  · rfl
  next afterItem hItem =>
    have hLess := length_lt_of_readValue hItem
    split
    · rfl
    · next tail hComma =>
        have hTail := skipBlanks_length_le afterItem
        have hNext := skipBlanks_length_le tail
        rw [hComma, List.length_cons] at hTail
        rw [ih.items (skipBlanks tail) (by omega)]
    · rfl

theorem succ_fields (ih : Suffices allowed fuel)
    (h : 2 * cs.length < fuel + 1) :
    readFields allowed (fuel + 1) cs = readFields allowed (fuel + 2) cs := by
  rw [readFields.eq_def, readFields.eq_def]
  dsimp only
  split
  · next tail =>
      split
      · rfl
      next name afterName hName =>
      have hLess := length_lt_of_readText hName
      split
      · next afterColon hColon =>
          have hShort := skipBlanks_length_le afterColon
          have hColons := skipBlanks_length_le afterName
          rw [hColon, List.length_cons] at hColons
          rw [List.length_cons] at h
          rw [← ih.value (skipBlanks afterColon) (by omega)]
          split
          · rfl
          next value afterValue hValue =>
          have hRest := length_lt_of_readValue hValue
          split
          · rfl
          · next tail hComma =>
              have hTail := skipBlanks_length_le afterValue
              have hNext := skipBlanks_length_le tail
              rw [hComma, List.length_cons] at hTail
              rw [ih.fields (skipBlanks tail) (by omega)]
          · rfl
      · rfl
  · rfl

end Suffices

theorem suffices_fuel (fuel : Nat) : Suffices allowed fuel := by
  induction fuel with
  | zero => exact ⟨nofun, nofun, nofun⟩
  | succ fuel ih =>
      refine ⟨fun cs h => ?_, fun cs => ih.succ_items, fun cs => ih.succ_fields⟩
      exact readValue_congr (fun inner hInner => ih.items inner (by omega))
        fun inner hInner => ih.fields inner (by omega)

/-- The fuel of `readAll` is never used up: more of it changes nothing. -/
theorem readValue_of_lt {fuel : Nat} (h : 2 * cs.length < fuel) :
    readValue allowed fuel cs = readValue allowed (2 * cs.length + 1) cs := by
  induction fuel, h using Nat.le_induction with
  | base => rfl
  | succ fuel h ih => rw [← (suffices_fuel fuel).value cs h, ih]

/-! ## Documents -/

/-- The text of a document is read as its value, or stops at the first number
that is refused. -/
theorem Document.readAll_text (d : Document) :
    readAll allowed d.text = outcome (d.stop? allowed) d.value := by
  have hSkip : skipBlanks d.text = d.element.chars ++ d.after.chars :=
    Json.skipBlanks_append d.before.blank (d.element.startsValue_chars.append _)
  have hFuel : d.element.chars.length ≤ 2 * d.text.length + 1 := by
    simp only [Document.text, List.length_append]
    omega
  have hEnd : EndsNumber d.after.chars := by
    have hNil : EndsNumber (d.after.chars ++ []) := d.after.endsNumber nofun
    rwa [List.append_nil] at hNil
  rw [readAll, hSkip, d.element.readValue_chars _ _ hFuel hEnd]
  show (outcome (d.stop? allowed) _ >>= _) = _
  cases d.stop? allowed with
  | some stop => rfl
  | none =>
      simp only [outcome, bind, Except.bind, d.after.skipBlanks_chars]
      all_goals rfl

/-- What is read is the text of a document. -/
theorem exists_document (h : readAll allowed cs = .ok v) :
    ∃ d : Document, d.text = cs ∧ d.value = v ∧ d.stop? allowed = none := by
  obtain ⟨⟨value, tail⟩, hValue, hTail⟩ := bind_eq_ok.1 h
  obtain ⟨before, hBefore⟩ := exists_gap cs
  obtain ⟨e, hChars, rfl, hStop⟩ := (readsGrammar _).value hValue
  obtain ⟨after, hAfter⟩ := exists_gap tail
  dsimp only at hTail
  split at hTail
  · next hNil =>
      obtain rfl := pure_eq_ok.1 hTail
      refine ⟨⟨before, e, after⟩, ?_, rfl, hStop⟩
      rw [hBefore, hChars, hAfter, hNil, List.append_nil, Document.text]
  · cases hTail

/-- A fault is not reported of a document. -/
theorem Document.text_ne_of_fault {kind : FaultKind} {remaining : Nat}
    (h : readAll allowed cs = .error (.fault kind remaining))
    (d : Document) : d.text ≠ cs := by
  rintro rfl
  have hStop : d.stop? allowed = some (.fault kind remaining) := by
    rw [d.readAll_text] at h
    cases hFirst : d.stop? allowed with
    | none =>
        rw [hFirst] at h
        cases h
    | some stop =>
        rw [hFirst] at h
        exact congrArg some (Except.error.inj h)
  obtain ⟨n, -, hNumber⟩ := List.exists_of_findSome?_eq_some hStop
  cases n with
  | integer negative whole =>
      rw [Numeral.stop?] at hNumber
      split at hNumber
      · cases hNumber
      · cases hNumber
  | decimal => cases hNumber
  | nan => cases allowed <;> cases hNumber
  | infinity => cases allowed <;> cases hNumber

theorem read_eq_ok_iff_readAll :
    read allowed cs = .ok v ↔ readAll allowed cs = .ok v := by
  unfold read
  split
  · next hAll =>
      rw [hAll]
      exact ⟨fun h => by rw [Except.ok.inj h], fun h => by
        rw [Except.ok.inj h]⟩
  all_goals
    next hAll =>
      rw [hAll]
      exact ⟨nofun, nofun⟩

/-- A document is not read if one of its numbers is refused. -/
theorem Document.read_text_ne_ok {d : Document}
    (h : d.stop? allowed ≠ none) : read allowed d.text ≠ .ok v := by
  rw [Ne, read_eq_ok_iff_readAll, d.readAll_text]
  cases hStop : d.stop? allowed with
  | none => exact absurd hStop h
  | some stop => nofun

/-- What is read are exactly the texts of documents without a number that is
refused. -/
theorem read_eq_ok_iff :
    read allowed cs = .ok v ↔
      ∃ d : Document, d.text = cs ∧ d.value = v ∧ d.stop? allowed = none := by
  rw [read_eq_ok_iff_readAll]
  constructor
  · exact exists_document
  · rintro ⟨d, rfl, rfl, hStop⟩
    rw [d.readAll_text, hStop]
    rfl

end TableGate.Json
