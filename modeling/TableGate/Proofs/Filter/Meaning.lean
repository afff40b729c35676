import Mathlib.Data.List.Basic
import TableGate.Filter.Basic

/-!
# The Boolean meaning of a list of filters

A list of filters is flat: which filters form a disjunction is only said by
group numbers. Its meaning is a condition on the truth of the single filters.
Since one filter may stand in a list more than once, truth is assigned to
places in the list and not to filters.

A list means a conjunction: every filter outside the `or` groups is true, and
every group that occurs has a true member.

## Main results

* `holds_append`: two lists without a common group mean, one after the other,
  the conjunction of what they mean.
* `holds_of_group`: the members of a single group mean their disjunction.
-/

namespace TableGate.Filter

/-- What a list of filters means under an assignment of truth to its places. -/
def Holds (filters : List Filter) (truth : Nat → Bool) : Prop :=
  (∀ (i : Nat) (f : Filter), filters[i]? = some f → f.isGrouped = false →
      truth i = true) ∧
    ∀ (i : Nat) (f : Filter), filters[i]? = some f → f.isGrouped = true →
      ∃ (j : Nat) (g : Filter), filters[j]? = some g ∧ g.isGrouped = true ∧
        g.group = f.group ∧ truth j = true

theorem Holds.congr {filters : List Filter} {truth other : Nat → Bool}
    (hHolds : Holds filters truth)
    (h : ∀ i < filters.length, truth i = other i) : Holds filters other := by
  have hSame : ∀ {i : Nat} {f : Filter}, filters[i]? = some f →
      truth i = other i := fun hAt => h _ (List.getElem?_eq_some_iff.1 hAt).1
  refine ⟨fun i f hAt hAlone => ?_, fun i f hAt hGroup => ?_⟩
  · rw [← hSame hAt]
    exact hHolds.1 i f hAt hAlone
  · obtain ⟨j, g, hOther, hMember, hEq, hTrue⟩ := hHolds.2 i f hAt hGroup
    exact ⟨j, g, hOther, hMember, hEq, hSame hOther ▸ hTrue⟩

/-- Only the truth at the places of the list matters. -/
theorem holds_congr {filters : List Filter} {truth other : Nat → Bool}
    (h : ∀ i < filters.length, truth i = other i) :
    Holds filters truth ↔ Holds filters other :=
  ⟨fun hHolds => hHolds.congr h,
    fun hHolds => hHolds.congr fun i hi => (h i hi).symm⟩

/-- No group has members in both lists. -/
def Apart (a b : List Filter) : Prop :=
  ∀ f ∈ a, ∀ g ∈ b, f.isGrouped = true → g.isGrouped = true →
    f.group ≠ g.group

/-- A filter outside the groups means itself. -/
theorem holds_singleton {f : Filter} (h : f.isGrouped = false)
    (truth : Nat → Bool) : Holds [f] truth ↔ truth 0 = true := by
  constructor
  · intro hHolds
    exact hHolds.1 0 f rfl h
  · intro hTrue
    refine ⟨fun i g hAt _ => ?_, fun i g hAt hGroup => ?_⟩
    all_goals
      obtain ⟨hZero, rfl⟩ : i = 0 ∧ g = f := by
        rcases i with _ | i
        · exact ⟨rfl, (Option.some.inj hAt).symm⟩
        · simp at hAt
    · rw [hZero]
      exact hTrue
    · rw [h] at hGroup
      exact absurd hGroup (by decide)

/-- The places of the second list come after those of the first. -/
private theorem getElem?_append_cases {a b : List Filter} {i : Nat}
    {f : Filter} (h : (a ++ b)[i]? = some f) :
    a[i]? = some f ∨ ∃ k, i = a.length + k ∧ b[k]? = some f := by
  rcases Nat.lt_or_ge i a.length with hLt | hGe
  · left
    rwa [List.getElem?_append_left hLt] at h
  · right
    rw [List.getElem?_append_right hGe] at h
    exact ⟨i - a.length, by omega, h⟩

private theorem getElem?_append_of_left {a : List Filter} {i : Nat}
    {f : Filter} (h : a[i]? = some f) (b : List Filter) :
    (a ++ b)[i]? = some f := by
  rw [List.getElem?_append_left (List.getElem?_eq_some_iff.1 h).1, h]

private theorem getElem?_append_of_right (a : List Filter) {b : List Filter}
    {k : Nat} {f : Filter} (h : b[k]? = some f) :
    (a ++ b)[a.length + k]? = some f := by
  rw [List.getElem?_append_right (Nat.le_add_right _ _),
    Nat.add_sub_cancel_left, h]

theorem holds_append {a b : List Filter} (h : Apart a b)
    (truth : Nat → Bool) :
    Holds (a ++ b) truth ↔
      Holds a truth ∧ Holds b (fun k => truth (a.length + k)) := by
  constructor
  · rintro ⟨hAlone, hGroups⟩
    refine ⟨⟨fun i f hAt => ?_, fun i f hAt hGroup => ?_⟩,
      fun k f hAt => ?_, fun k f hAt hGroup => ?_⟩
    · exact hAlone i f (getElem?_append_of_left hAt b)
    · obtain ⟨j, g, hOther, hMember, hSame, hTrue⟩ :=
        hGroups i f (getElem?_append_of_left hAt b) hGroup
      rcases getElem?_append_cases hOther with hLeft | ⟨k, -, hRight⟩
      · exact ⟨j, g, hLeft, hMember, hSame, hTrue⟩
      · exact absurd hSame.symm (h f (List.mem_of_getElem? hAt) g
          (List.mem_of_getElem? hRight) hGroup hMember)
    · exact hAlone _ f (getElem?_append_of_right a hAt)
    · obtain ⟨j, g, hOther, hMember, hSame, hTrue⟩ :=
        hGroups _ f (getElem?_append_of_right a hAt) hGroup
      rcases getElem?_append_cases hOther with hLeft | ⟨m, rfl, hRight⟩
      · exact absurd hSame (h g (List.mem_of_getElem? hLeft) f
          (List.mem_of_getElem? hAt) hMember hGroup)
      · exact ⟨m, g, hRight, hMember, hSame, hTrue⟩
  · rintro ⟨⟨hAloneA, hGroupsA⟩, hAloneB, hGroupsB⟩
    refine ⟨fun i f hAt hAlone => ?_, fun i f hAt hGroup => ?_⟩
    · rcases getElem?_append_cases hAt with hLeft | ⟨k, rfl, hRight⟩
      · exact hAloneA i f hLeft hAlone
      · exact hAloneB k f hRight hAlone
    · rcases getElem?_append_cases hAt with hLeft | ⟨k, rfl, hRight⟩
      · obtain ⟨j, g, hOther, hRest⟩ := hGroupsA i f hLeft hGroup
        exact ⟨j, g, getElem?_append_of_left hOther b, hRest⟩
      · obtain ⟨j, g, hOther, hRest⟩ := hGroupsB k f hRight hGroup
        exact ⟨a.length + j, g, getElem?_append_of_right a hOther, hRest⟩

theorem holds_of_group {filters : List Filter} {group : Int}
    (hSome : filters ≠ [])
    (h : ∀ f ∈ filters, f.isGrouped = true ∧ f.group = group)
    (truth : Nat → Bool) :
    Holds filters truth ↔ ∃ i < filters.length, truth i = true := by
  constructor
  · rintro ⟨-, hGroups⟩
    obtain ⟨f, rest, rfl⟩ := List.exists_cons_of_ne_nil hSome
    obtain ⟨j, g, hOther, -, -, hTrue⟩ := hGroups 0 f rfl (h f (by simp)).1
    exact ⟨j, (List.getElem?_eq_some_iff.1 hOther).1, hTrue⟩
  · rintro ⟨j, hLength, hTrue⟩
    refine ⟨fun i f hAt hAlone => ?_, fun i f hAt _ => ?_⟩
    · rw [(h f (List.mem_of_getElem? hAt)).1] at hAlone
      exact absurd hAlone (by decide)
    · have hMember := h filters[j] (List.getElem_mem hLength)
      refine ⟨j, filters[j], List.getElem?_eq_getElem hLength, hMember.1, ?_,
        hTrue⟩
      rw [hMember.2, (h f (List.mem_of_getElem? hAt)).2]

end TableGate.Filter
