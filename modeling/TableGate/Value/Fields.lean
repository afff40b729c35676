import TableGate.Value.Basic

/-!
# Fields

Objects, records and rows are lists of named values in order. Setting a field
changes its value where it stands, or appends it; so building an object from
pairs leaves every name once, at the place of its first pair and with the
value of its last.

## Main results

* `get?_set_self`, `get?_set_of_ne`: what a field holds after one was set.
* `get?_of_mem`: what a field holds that alone bears its name.
* `get?_ofPairs_append`: of the pairs of one name, the last counts.
* `mem_of_mem_ofPairs`: an object built from pairs holds nothing else.
* `mem_of_get?_ofPairs`: what a field holds was paired with its name.
* `nodup_names_ofPairs`: an object built from pairs has every name once.
* `ofPairs_of_nodup`: pairs without a repeated name are built up as they are.
-/

namespace TableGate.Fields

/-- The value of a field. -/
def get? (fields : Fields) (name : String) : Option Value :=
  (fields.find? fun field => field.1 == name).map (·.2)

/-- Set a field: an existing one keeps its place, a new one goes to the
end. -/
def set (fields : Fields) (name : String) (value : Value) : Fields :=
  if fields.any fun field => field.1 == name then
    fields.map fun field => if field.1 == name then (name, value) else field
  else fields ++ [(name, value)]

/-- The object that pairs build up one after the other, so that the last
value of a repeated name stands at the place of its first. -/
def ofPairs (pairs : List (String × Value)) : Fields :=
  pairs.foldl (fun fields pair => fields.set pair.1 pair.2) []

/-- The names of the fields, in order. -/
def names (fields : Fields) : List String := fields.map (·.1)

/-! ## Reading back -/

theorem get?_cons (field : String × Value) (fields : Fields) (name : String) :
    get? (field :: fields) name =
      if field.1 = name then some field.2 else fields.get? name := by
  by_cases h : field.1 = name <;> simp [get?, h]

theorem set_cons (field : String × Value) (fields : Fields) (name : String)
    (value : Value) (h : field.1 ≠ name) :
    set (field :: fields) name value = field :: fields.set name value := by
  unfold set
  by_cases hAny : (fields.any fun field => field.1 == name) = true <;>
    simp [h, hAny]

theorem get?_set_self (fields : Fields) (name : String) (value : Value) :
    (fields.set name value).get? name = some value := by
  induction fields with
  | nil => simp [set, get?]
  | cons field fields ih =>
      by_cases h : field.1 = name
      · simp [set, get?, h]
      · rw [set_cons _ _ _ _ h, get?_cons, if_neg h, ih]

theorem get?_map_of_ne {name other : String} (h : other ≠ name)
    (fields : Fields) (value : Value) :
    get? (fields.map fun field =>
      if field.1 == name then (name, value) else field) other =
      fields.get? other := by
  induction fields with
  | nil => rfl
  | cons field fields ih =>
      rw [List.map_cons, get?_cons, get?_cons, ih]
      by_cases hName : field.1 = name
      · simp [hName, Ne.symm h]
      · simp [hName]

theorem get?_set_of_ne {name other : String} (h : other ≠ name)
    (fields : Fields) (value : Value) :
    (fields.set name value).get? other = fields.get? other := by
  unfold set
  split
  · exact get?_map_of_ne h fields value
  · simp [get?, List.find?_append, Ne.symm h]

/-- A field is found by its name if it alone bears the name. -/
theorem get?_of_mem {fields : Fields} (h : fields.names.Nodup)
    {field : String × Value} (hField : field ∈ fields) :
    fields.get? field.1 = some field.2 := by
  induction fields with
  | nil => exact absurd hField List.not_mem_nil
  | cons first others ih =>
      obtain ⟨hFirst, hOthers⟩ := List.nodup_cons.1 h
      rw [get?_cons]
      rcases List.mem_cons.1 hField with rfl | hLater
      · exact if_pos rfl
      · have hOther : first.1 ≠ field.1 := fun hSame =>
          hFirst (List.mem_map.2 ⟨field, hLater, hSame.symm⟩)
        rw [if_neg hOther, ih hOthers hLater]

/-- Of the pairs of one name, an object keeps the last value. -/
theorem get?_ofPairs_append {before after : List (String × Value)}
    {pair : String × Value} (h : ∀ later ∈ after, later.1 ≠ pair.1) :
    get? (ofPairs (before ++ pair :: after)) pair.1 = some pair.2 := by
  have hFold : ∀ (pairs : List (String × Value)) (fields : Fields),
      (∀ later ∈ pairs, later.1 ≠ pair.1) →
        get? (pairs.foldl (fun fields pair => fields.set pair.1 pair.2) fields)
          pair.1 = fields.get? pair.1 := by
    intro pairs
    induction pairs with
    | nil => exact fun fields _ => rfl
    | cons later pairs ih =>
        intro fields hLater
        rw [List.foldl_cons, ih _ fun other hOther =>
          hLater other (List.mem_cons_of_mem _ hOther)]
        exact get?_set_of_ne (hLater later List.mem_cons_self).symm _ _
  rw [ofPairs, List.foldl_append, List.foldl_cons, hFold after _ h]
  exact get?_set_self _ _ _

theorem mem_set {fields : Fields} {name : String} {value : Value}
    {field : String × Value} (h : field ∈ fields.set name value) :
    field ∈ fields ∨ field = (name, value) := by
  unfold set at h
  split at h
  · obtain ⟨old, hOld, hField⟩ := List.mem_map.1 h
    split at hField
    · exact Or.inr hField.symm
    · exact Or.inl (hField ▸ hOld)
  · rcases List.mem_append.1 h with hOld | hNew
    · exact Or.inl hOld
    · exact Or.inr (List.mem_singleton.1 hNew)

/-- An object built from pairs holds nothing else. -/
theorem mem_of_mem_ofPairs {pairs : List (String × Value)}
    {field : String × Value} (h : field ∈ ofPairs pairs) : field ∈ pairs := by
  have hFold : ∀ (pairs : List (String × Value)) (fields : Fields),
      field ∈ pairs.foldl (fun fields pair => fields.set pair.1 pair.2)
        fields → field ∈ fields ∨ field ∈ pairs := by
    intro pairs
    induction pairs with
    | nil => exact fun fields h => Or.inl h
    | cons pair pairs ih =>
        intro fields h
        rcases ih _ h with hSet | hMem
        · rcases mem_set hSet with hOld | rfl
          · exact Or.inl hOld
          · exact Or.inr List.mem_cons_self
        · exact Or.inr (List.mem_cons_of_mem _ hMem)
  rcases hFold pairs [] h with hNone | hMem
  · exact absurd hNone List.not_mem_nil
  · exact hMem

/-- What a field of an object holds was paired with its name. -/
theorem mem_of_get?_ofPairs {pairs : List (String × Value)} {name : String}
    {value : Value} (h : get? (ofPairs pairs) name = some value) :
    (name, value) ∈ pairs := by
  obtain ⟨field, hFound, rfl⟩ := Option.map_eq_some_iff.1 h
  have hName : field.1 = name := by
    simpa using List.find?_some hFound
  rw [← hName]
  exact mem_of_mem_ofPairs (List.mem_of_find?_eq_some hFound)

/-! ## Names -/

theorem names_set (fields : Fields) (name : String) (value : Value) :
    (fields.set name value).names =
      if name ∈ fields.names then fields.names else fields.names ++ [name] := by
  have hAny : (fields.any fun field => field.1 == name) = true ↔
      name ∈ fields.names := by simp [names]
  by_cases h : name ∈ fields.names
  · rw [set, if_pos (hAny.2 h), if_pos h]
    simp only [names, List.map_map]
    refine List.map_congr_left fun field _ => ?_
    by_cases hName : field.1 = name <;> simp [hName]
  · rw [set, if_neg (mt hAny.1 h), if_neg h]
    simp [names]

theorem nodup_names_set {fields : Fields} (h : fields.names.Nodup)
    (name : String) (value : Value) : (fields.set name value).names.Nodup := by
  rw [names_set]
  split
  · exact h
  · next hNew =>
      refine List.nodup_append.2 ⟨h, by simp, ?_⟩
      intro a ha b hb hEq
      rw [List.mem_singleton] at hb
      exact hNew (hb ▸ hEq ▸ ha)

theorem nodup_names_ofPairs (pairs : List (String × Value)) :
    (ofPairs pairs).names.Nodup := by
  have hFold : ∀ (pairs : List (String × Value)) (fields : Fields),
      fields.names.Nodup → (pairs.foldl (fun fields pair =>
        fields.set pair.1 pair.2) fields).names.Nodup := by
    intro pairs
    induction pairs with
    | nil => exact fun fields h => h
    | cons pair pairs ih =>
        exact fun fields h => ih _ (nodup_names_set h pair.1 pair.2)
  exact hFold pairs [] List.nodup_nil

/-- Pairs without a repeated name are built up as they are. -/
theorem ofPairs_of_nodup {pairs : List (String × Value)}
    (h : (names pairs).Nodup) : ofPairs pairs = pairs := by
  have hFold : ∀ (pairs fields : Fields), (names (fields ++ pairs)).Nodup →
      pairs.foldl (fun fields pair => fields.set pair.1 pair.2) fields =
        fields ++ pairs := by
    intro pairs
    induction pairs with
    | nil => exact fun fields _ => (List.append_nil fields).symm
    | cons pair pairs ih =>
        intro fields hNames
        have hNew : pair.1 ∉ names fields := by
          rw [names, List.map_append, List.map_cons] at hNames
          exact fun hMem => (List.nodup_append.1 hNames).2.2 _ hMem _
            List.mem_cons_self rfl
        have hSet : fields.set pair.1 pair.2 = fields ++ [pair] := by
          rw [set, if_neg]
          intro hAny
          obtain ⟨field, hField, hName⟩ := List.any_eq_true.1 hAny
          rw [beq_iff_eq] at hName
          exact hNew (List.mem_map.2 ⟨field, hField, hName⟩)
        have hStep : fields ++ pair :: pairs = fields ++ [pair] ++ pairs := by
          rw [List.append_assoc, List.singleton_append]
        rw [hStep] at hNames ⊢
        rw [List.foldl_cons, hSet, ih _ hNames]
  exact hFold pairs [] h

end TableGate.Fields
