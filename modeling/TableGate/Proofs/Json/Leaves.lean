import TableGate.Proofs.Json.Grammar

/-!
# What a value holds

A value holds scalars: itself if it is one, else what its items or fields
hold. Whether it can be written depends on them alone. A document holds null,
truth values, texts and the numbers of its tree, and nothing else.

## Main results

* `Value.iff_forall_holds`: what is decided by the scalars of a value.
* `Value.writeFault?_eq_none_iff`: a value is without fault exactly if all it
  holds is.
* `Json.Element.holds_value`: what an element holds.
* `Json.Document.infix_text`: the numbers of a document stand in its text.
-/

namespace TableGate

open Json (Layout itemFault?_eq_none fieldsFault?_eq_none)

namespace Value

/-- A scalar that stands in a value, at whatever depth. -/
inductive Holds (s : Scalar) : Value → Prop
  | scalar : Holds s (.scalar s)
  | item {items : List Value} {item : Value} (mem : item ∈ items)
      (holds : Holds s item) : Holds s (.list items)
  | part {items : List Value} {item : Value} (mem : item ∈ items)
      (holds : Holds s item) : Holds s (.tuple items)
  | field {fields : Fields} {field : String × Value} (mem : field ∈ fields)
      (holds : Holds s field.2) : Holds s (.object fields)

/-- Induction over values, with what holds of the items of a sequence and of
the values of the fields of an object at hand. -/
@[elab_as_elim]
theorem inductionOn {P : Value → Prop} (v : Value)
    (scalar : ∀ s, P (.scalar s))
    (list : ∀ items, (∀ item ∈ items, P item) → P (.list items))
    (tuple : ∀ items, (∀ item ∈ items, P item) → P (.tuple items))
    (object : ∀ fields : Fields, (∀ field ∈ fields, P field.2) →
      P (.object fields)) : P v :=
  @Value.rec P (fun items => ∀ item ∈ items, P item)
    (fun fields => ∀ field ∈ fields, P field.2) (fun field => P field.2)
    scalar list tuple object
    (List.forall_mem_nil _)
    (fun _ _ hItem hItems => List.forall_mem_cons.2 ⟨hItem, hItems⟩)
    (List.forall_mem_nil _)
    (fun _ _ hField hFields => List.forall_mem_cons.2 ⟨hField, hFields⟩)
    (fun _ _ hValue => hValue) v

variable {layout : Layout} {s : Scalar}

theorem holds_scalar {t : Scalar} : Holds s (.scalar t) ↔ s = t :=
  ⟨fun h => by cases h; rfl, fun h => h ▸ .scalar⟩

theorem holds_list {items : List Value} :
    Holds s (.list items) ↔ ∃ item ∈ items, Holds s item :=
  ⟨fun h => by cases h with | item hMem hItem => exact ⟨_, hMem, hItem⟩,
    fun ⟨_, hMem, hItem⟩ => .item hMem hItem⟩

theorem holds_tuple {items : List Value} :
    Holds s (.tuple items) ↔ ∃ item ∈ items, Holds s item :=
  ⟨fun h => by cases h with | part hMem hItem => exact ⟨_, hMem, hItem⟩,
    fun ⟨_, hMem, hItem⟩ => .part hMem hItem⟩

theorem holds_object {fields : Fields} :
    Holds s (.object fields) ↔ ∃ field ∈ fields, Holds s field.2 :=
  ⟨fun h => by cases h with | field hMem hField => exact ⟨_, hMem, hField⟩,
    fun ⟨_, hMem, hField⟩ => .field hMem hField⟩

/-- Some integer of the value, at whatever depth, is too long to be written. -/
def HoldsLong (v : Value) : Prop :=
  ∃ i : Int, v.Holds (.int i) ∧ Text.isWritable i = false

/-- What holds of a value exactly if it holds of its parts is decided by the
scalars that it holds. -/
theorem iff_forall_holds {P : Value → Prop} {p : Scalar → Prop}
    (scalar : ∀ s, P (.scalar s) ↔ p s)
    (list : ∀ items, P (.list items) ↔ ∀ item ∈ items, P item)
    (tuple : ∀ items, P (.tuple items) ↔ ∀ item ∈ items, P item)
    (object : ∀ fields : Fields, P (.object fields) ↔
      ∀ field ∈ fields, P field.2) (v : Value) :
    P v ↔ ∀ s, v.Holds s → p s := by
  induction v using inductionOn with
  | scalar t =>
      rw [scalar]
      simp only [holds_scalar, forall_eq]
  | list items ih =>
      rw [list]
      simp only [holds_list]
      exact ⟨fun h s ⟨item, hMem, hItem⟩ => (ih item hMem).1 (h item hMem) s
        hItem, fun h item hMem => (ih item hMem).2 fun s hItem =>
          h s ⟨item, hMem, hItem⟩⟩
  | tuple items ih =>
      rw [tuple]
      simp only [holds_tuple]
      exact ⟨fun h s ⟨item, hMem, hItem⟩ => (ih item hMem).1 (h item hMem) s
        hItem, fun h item hMem => (ih item hMem).2 fun s hItem =>
          h s ⟨item, hMem, hItem⟩⟩
  | object fields ih =>
      rw [object]
      simp only [holds_object]
      exact ⟨fun h s ⟨field, hMem, hField⟩ => (ih field hMem).1
        (h field hMem) s hField, fun h field hMem => (ih field hMem).2
          fun s hField => h s ⟨field, hMem, hField⟩⟩

/-- A value is without fault exactly if all it holds is. -/
theorem writeFault?_eq_none_iff {v : Value} :
    v.writeFault? layout = none ↔
      ∀ s, v.Holds s → s.writeFault? layout = none :=
  iff_forall_holds (P := fun v => v.writeFault? layout = none)
    (fun s => by rw [writeFault?])
    (fun items => by rw [writeFault?, itemFault?_eq_none])
    (fun items => by rw [writeFault?, itemFault?_eq_none])
    (fun fields => by rw [writeFault?, fieldsFault?_eq_none]) v

end Value

namespace Json

/-- A scalar that a document may hold: null, a truth value, a text, or the
value of one of its numbers. -/
inductive IsLeaf (numerals : List Numeral) : Scalar → Prop
  | null : IsLeaf numerals .null
  | bool (b : Bool) : IsLeaf numerals (.bool b)
  | text (s : String) : IsLeaf numerals (.text s)
  | number {n : Numeral} {s : Scalar} (mem : n ∈ numerals)
      (value : n.value = .scalar s) : IsLeaf numerals s

theorem IsLeaf.mono {a b : List Numeral} {s : Scalar} (h : IsLeaf a s)
    (hSubset : a ⊆ b) : IsLeaf b s := by
  cases h with
  | null => exact .null
  | bool b => exact .bool b
  | text s => exact .text s
  | number hMem hValue => exact .number (hSubset hMem) hValue

/-- A number is an integer or a double. -/
theorem Numeral.value_cases (n : Numeral) :
    (∃ i, n.value = .int i) ∨ ∃ x, n.value = .float x := by
  cases n with
  | integer => exact Or.inl ⟨_, rfl⟩
  | decimal => exact Or.inr ⟨_, rfl⟩
  | nan => exact Or.inr ⟨_, rfl⟩
  | infinity => exact Or.inr ⟨_, rfl⟩

mutual

/-- What an element holds are leaves. -/
theorem Element.holds_value : ∀ (e : Element) {s : Scalar},
    e.value.Holds s → IsLeaf e.numerals s
  | .null, _, h => by
      rw [Value.holds_scalar.1 h]
      exact .null
  | .bool b, _, h => by
      rw [Value.holds_scalar.1 h]
      exact .bool b
  | .number n, _, h => by
      rcases n.value_cases with ⟨i, hValue⟩ | ⟨x, hValue⟩
      · rw [Element.value, hValue] at h
        rw [Value.holds_scalar.1 h]
        exact .number List.mem_cons_self hValue
      · rw [Element.value, hValue] at h
        rw [Value.holds_scalar.1 h]
        exact .number List.mem_cons_self hValue
  | .text q, _, h => by
      rw [Value.holds_scalar.1 h]
      exact .text q.value
  | .emptyList _, _, h => by
      obtain ⟨item, hMem, -⟩ := Value.holds_list.1 h
      exact absurd hMem List.not_mem_nil
  | .list _ es, _, h => by
      obtain ⟨item, hMem, hItem⟩ := Value.holds_list.1 h
      exact es.holds_values hMem hItem
  | .emptyObject _, _, h => by
      obtain ⟨field, hMem, -⟩ := Value.holds_object.1 h
      exact absurd hMem List.not_mem_nil
  | .object _ ps, _, h => by
      obtain ⟨field, hMem, hField⟩ := Value.holds_object.1 h
      exact ps.holds_values (Fields.mem_of_mem_ofPairs hMem) hField

/-- What the items of an array hold are leaves. -/
theorem Elements.holds_values : ∀ (es : Elements) {item : Value} {s : Scalar},
    item ∈ es.values → item.Holds s → IsLeaf es.numerals s
  | .last e _, _, _, hMem, h => by
      rw [List.mem_singleton.1 hMem] at h
      exact e.holds_value h
  | .cons e _ _ es, _, _, hMem, h => by
      rcases List.mem_cons.1 hMem with rfl | hMem
      · exact (e.holds_value h).mono (List.subset_append_left _ _)
      · exact (es.holds_values hMem h).mono (List.subset_append_right _ _)

/-- What the fields of an object hold are leaves. -/
theorem Pairs.holds_values : ∀ (ps : Pairs) {field : String × Value}
    {s : Scalar}, field ∈ ps.values → field.2.Holds s → IsLeaf ps.numerals s
  | .last _ e _, _, _, hMem, h => by
      rw [List.mem_singleton.1 hMem] at h
      exact e.holds_value h
  | .cons _ e _ _ ps, _, _, hMem, h => by
      rcases List.mem_cons.1 hMem with rfl | hMem
      · exact (e.holds_value h).mono (List.subset_append_left _ _)
      · exact (ps.holds_values hMem h).mono (List.subset_append_right _ _)

end

/-! ## Where numbers stand -/

mutual

/-- The numbers of an element stand in its text. -/
theorem Element.infix_chars : ∀ (e : Element), ∀ n ∈ e.numerals,
    n.text <:+: e.chars
  | .null, _, h => absurd h List.not_mem_nil
  | .bool _, _, h => absurd h List.not_mem_nil
  | .number _, _, h => by
      rw [List.mem_singleton.1 h]
      exact List.infix_rfl
  | .text _, _, h => absurd h List.not_mem_nil
  | .emptyList _, _, h => absurd h List.not_mem_nil
  | .list inner es, n, h => by
      have hInner := es.infix_chars n h
      exact hInner.trans ⟨'[' :: inner.chars, [']'], by
        simp [Element.chars]⟩
  | .emptyObject _, _, h => absurd h List.not_mem_nil
  | .object inner ps, n, h => by
      have hInner := ps.infix_chars n h
      exact hInner.trans ⟨'\x7b' :: inner.chars, ['\x7d'], by
        simp [Element.chars]⟩

/-- The numbers of the items of an array stand in their text. -/
theorem Elements.infix_chars : ∀ (es : Elements), ∀ n ∈ es.numerals,
    n.text <:+: es.chars
  | .last e after, n, h =>
      (e.infix_chars n h).trans (List.prefix_append _ _).isInfix
  | .cons e after before es, n, h => by
      rcases List.mem_append.1 h with hFirst | hLater
      · exact (e.infix_chars n hFirst).trans (List.prefix_append _ _).isInfix
      · exact (es.infix_chars n hLater).trans
          ⟨e.chars ++ (after.chars ++ ',' :: before.chars), [], by
            simp [Elements.chars]⟩

/-- The numbers of the fields of an object stand in their text. -/
theorem Pairs.infix_chars : ∀ (ps : Pairs), ∀ n ∈ ps.numerals,
    n.text <:+: ps.chars
  | .last label e after, n, h =>
      (e.infix_chars n h).trans ⟨label.text, after.chars, by
        simp [Pairs.chars]⟩
  | .cons label e after before ps, n, h => by
      rcases List.mem_append.1 h with hFirst | hLater
      · exact (e.infix_chars n hFirst).trans ⟨label.text, _, by
          rw [Pairs.chars, List.append_assoc]⟩
      · exact (ps.infix_chars n hLater).trans
          ⟨label.text ++ (e.chars ++ (after.chars ++ ',' :: before.chars)), [],
            by simp [Pairs.chars]⟩

end

/-- The numbers of a document stand in its text. -/
theorem Document.infix_text {d : Document} {n : Numeral}
    (h : n ∈ d.numerals) : n.text <:+: d.text :=
  (d.element.infix_chars n h).trans
    ⟨d.before.chars, d.after.chars, List.append_assoc _ _ _⟩

end Json
end TableGate
