import Mathlib.Data.List.Forall2
import TableGate.Error

/-!
# Results that are not refusals

A reader or builder that gives a result went through all of its steps. These
lemmas take such a result apart, one step at a time.
-/

namespace TableGate.Result

variable {ε α β : Type}

theorem bind_eq_ok {x : Except ε α} {f : α → Except ε β} {b : β} :
    x >>= f = .ok b ↔ ∃ a, x = .ok a ∧ f a = .ok b := by
  cases x with
  | error e =>
      constructor
      · intro h
        cases h
      · rintro ⟨a, h, -⟩
        cases h
  | ok a =>
      constructor
      · intro h
        exact ⟨a, rfl, h⟩
      · rintro ⟨a', h, hNext⟩
        cases h
        exact hNext

theorem pure_eq_ok {a b : α} : (pure a : Except ε α) = .ok b ↔ a = b :=
  ⟨fun h => Except.ok.inj h, fun h => congrArg Except.ok h⟩

theorem map_eq_ok {x : Except ε α} {f : α → β} {b : β} :
    x.map f = .ok b ↔ ∃ a, x = .ok a ∧ f a = b := by
  cases x with
  | error e => simp [Except.map]
  | ok a => simp [Except.map]

/-- A result, found by computing whether there is one. -/
theorem toOption_eq_some {x : Result α} {a : α} :
    x.toOption = some a ↔ x = .ok a := by
  cases x with
  | error e => simp [Except.toOption]
  | ok b => simp [Except.toOption]

theorem refuse_ne_ok {cause : Invalid} {a : α} : refuse cause ≠ .ok a := by
  intro h
  cases h

/-- A step that refuses on a condition was passed without it. -/
theorem of_check_eq_ok {c : Prop} [Decidable c] {cause : Invalid}
    {f : Unit → Result β} {b : β}
    (h : (if c then refuse cause >>= f else f ()) = .ok b) :
    ¬ c ∧ f () = .ok b := by
  split at h
  · obtain ⟨a, hRefuse, -⟩ := bind_eq_ok.1 h
    exact absurd hRefuse refuse_ne_ok
  · next hNot => exact ⟨hNot, h⟩

/-- A list is read item by item. -/
theorem mapM_eq_ok {f : α → Except ε β} {xs : List α} {ys : List β} :
    xs.mapM f = .ok ys ↔ List.Forall₂ (fun x y => f x = .ok y) xs ys := by
  induction xs generalizing ys with
  | nil =>
      rw [List.mapM_nil, pure_eq_ok, List.forall₂_nil_left_iff]
      exact eq_comm
  | cons x xs ih =>
      rw [List.mapM_cons, bind_eq_ok]
      simp only [bind_eq_ok, pure_eq_ok, ih, List.forall₂_cons_left_iff]
      constructor
      · rintro ⟨y, hFirst, others, hOthers, rfl⟩
        exact ⟨y, others, hFirst, hOthers, rfl⟩
      · rintro ⟨y, others, hFirst, hOthers, rfl⟩
        exact ⟨y, hFirst, others, hOthers, rfl⟩

/-- Of two lists that are related item by item, what stands at a place of the
first is related to what stands there in the second. -/
theorem exists_getElem?_of_forall₂ {R : α → β → Prop} {xs : List α}
    {ys : List β} (h : List.Forall₂ R xs ys) {i : Nat} {x : α}
    (hx : xs[i]? = some x) : ∃ y, ys[i]? = some y ∧ R x y := by
  obtain ⟨hi, rfl⟩ := List.getElem?_eq_some_iff.1 hx
  have hj : i < ys.length := h.length_eq ▸ hi
  exact ⟨ys[i], List.getElem?_eq_getElem hj,
    (List.forall₂_iff_get.1 h).2 i hi hj⟩

/-- Of two lists that are related item by item, an item of the second is
related to one of the first. -/
theorem exists_of_mem_forall₂ {R : α → β → Prop} {xs : List α} {ys : List β}
    (h : List.Forall₂ R xs ys) {y : β} (hy : y ∈ ys) : ∃ x ∈ xs, R x y := by
  induction h with
  | nil => exact absurd hy List.not_mem_nil
  | cons hFirst _ ih =>
      rcases List.mem_cons.1 hy with rfl | hOther
      · exact ⟨_, List.mem_cons_self, hFirst⟩
      · obtain ⟨x, hx, hRelated⟩ := ih hOther
        exact ⟨x, List.mem_cons_of_mem _ hx, hRelated⟩

/-- What is related to a list that is put together at an item is put together
at what is related to the item. -/
theorem exists_split_forall₂ {R : α → β → Prop} {front back : List α} {x : α}
    {ys : List β} (h : List.Forall₂ R (front ++ x :: back) ys) :
    ∃ before y after, ys = before ++ y :: after ∧
      List.Forall₂ R front before ∧ R x y ∧ List.Forall₂ R back after := by
  induction front generalizing ys with
  | nil =>
      obtain ⟨y, after, hItem, hAfter, rfl⟩ := List.forall₂_cons_left_iff.1 h
      exact ⟨[], y, after, rfl, .nil, hItem, hAfter⟩
  | cons first front ih =>
      obtain ⟨z, zs, hFirst, hOthers, rfl⟩ := List.forall₂_cons_left_iff.1 h
      obtain ⟨before, y, after, rfl, hBefore, hItem, hAfter⟩ := ih hOthers
      exact ⟨z :: before, y, after, rfl, .cons hFirst hBefore, hItem, hAfter⟩

/-- What was read is read from one of the items. -/
theorem exists_of_mem_mapM {f : α → Except ε β} {xs : List α} {ys : List β}
    (h : xs.mapM f = .ok ys) {y : β} (hy : y ∈ ys) :
    ∃ x ∈ xs, f x = .ok y :=
  exists_of_mem_forall₂ (mapM_eq_ok.1 h) hy

/-- What was read are the readings of the items, no fewer. -/
theorem mem_mapM_iff {f : α → Result β} {xs : List α} {ys : List β}
    (h : xs.mapM f = .ok ys) {y : β} : y ∈ ys ↔ ∃ x ∈ xs, f x = .ok y := by
  constructor
  · exact exists_of_mem_mapM h
  · rintro ⟨x, hx, hRead⟩
    obtain ⟨other, hOther, hSame⟩ :=
      exists_of_mem_forall₂ (mapM_eq_ok.1 h).flip hx
    rw [hRead] at hSame
    rwa [Except.ok.inj hSame]

/-- A list is read when each of its items is. -/
theorem exists_mapM_eq_ok {f : α → Result β} {xs : List α}
    (h : ∀ x ∈ xs, ∃ y, f x = .ok y) : ∃ ys, xs.mapM f = .ok ys := by
  induction xs with
  | nil => exact ⟨[], rfl⟩
  | cons x xs ih =>
      obtain ⟨y, hFirst⟩ := h x List.mem_cons_self
      obtain ⟨ys, hOthers⟩ := ih fun x' hx => h x' (List.mem_cons_of_mem _ hx)
      exact ⟨y :: ys, mapM_eq_ok.2 (.cons hFirst (mapM_eq_ok.1 hOthers))⟩

/-- A list is read exactly when each of its items is. -/
theorem exists_mapM_eq_ok_iff {f : α → Result β} {xs : List α} :
    (∃ ys, xs.mapM f = .ok ys) ↔ ∀ x ∈ xs, ∃ y, f x = .ok y := by
  constructor
  · rintro ⟨ys, h⟩ x hx
    obtain ⟨y, -, hRead⟩ := exists_of_mem_forall₂ (mapM_eq_ok.1 h).flip hx
    exact ⟨y, hRead⟩
  · exact exists_mapM_eq_ok

/-- What is known of each item that is read is known of the list. -/
theorem exists_mapM_of_forall {R : α → β → Prop} {f : α → Result β}
    {xs : List α} (h : ∀ x ∈ xs, ∃ y, f x = .ok y ∧ R x y) :
    ∃ ys, xs.mapM f = .ok ys ∧ List.Forall₂ R xs ys := by
  obtain ⟨ys, hys⟩ := exists_mapM_eq_ok fun x hx =>
    (h x hx).imp fun _ hRead => hRead.1
  have hAll := mapM_eq_ok.1 hys
  refine ⟨ys, hys, List.forall₂_iff_zip.2 ⟨hAll.length_eq, ?_⟩⟩
  intro x y hPair
  obtain ⟨y', hRead, hRelated⟩ := h x (List.of_mem_zip hPair).1
  rw [List.forall₂_zip hAll hPair] at hRead
  rwa [Except.ok.inj hRead]

/-- When every item that is read is read to a known value, so is the list. -/
theorem mapM_eq_ok_map {f : α → Result β} {g : α → β} {xs : List α}
    {ys : List β} (hValue : ∀ x ∈ xs, ∀ y, f x = .ok y → y = g x)
    (h : xs.mapM f = .ok ys) : ys = xs.map g ∧ ∀ x ∈ xs, f x = .ok (g x) := by
  have hAll := mapM_eq_ok.1 h
  clear h
  induction hAll with
  | nil => exact ⟨rfl, by simp⟩
  | @cons x y xs ys hFirst _ ih =>
      obtain ⟨hOthers, hRead⟩ := ih fun x' hx =>
        hValue x' (List.mem_cons_of_mem _ hx)
      have hSame := hValue x List.mem_cons_self y hFirst
      refine ⟨by rw [hOthers, hSame, List.map_cons], fun x' hx => ?_⟩
      rcases List.mem_cons.1 hx with rfl | hOther
      · rwa [← hSame]
      · exact hRead x' hOther

/-- A list is read whole by a partial reader exactly when each item is. -/
theorem isSome_mapM {f : α → Option β} {xs : List α} :
    (xs.mapM f).isSome = true ↔ ∀ x ∈ xs, (f x).isSome = true := by
  induction xs with
  | nil => simp
  | cons x xs ih =>
      rw [List.mapM_cons, List.forall_mem_cons, ← ih]
      cases f x with
      | none => simp
      | some y => cases xs.mapM f <;> simp

/-- A list passes a check when each of its items does. -/
theorem forM_eq_ok {f : α → Result Unit} {xs : List α} :
    xs.forM f = .ok () ↔ ∀ x ∈ xs, f x = .ok () := by
  induction xs with
  | nil => simp [List.forM, pure_eq_ok]
  | cons x xs ih =>
      rw [List.forM, bind_eq_ok, List.forall_mem_cons, ← ih]
      constructor
      · rintro ⟨⟨⟩, hFirst, hOthers⟩
        exact ⟨hFirst, hOthers⟩
      · rintro ⟨hFirst, hOthers⟩
        exact ⟨(), hFirst, hOthers⟩

end TableGate.Result
