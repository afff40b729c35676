import Mathlib.Data.List.Nodup
import TableGate.Proofs.Filter.Meaning
import TableGate.Sql.Where

/-!
# The conjuncts of a list of filters

A list of filters means a conjunction, in which each filter outside the `or`
groups is a conjunct and so are the members of each group together. Here the
conjuncts are given by places in the list: `ConjunctsOf` says what it is to
have found them, every place in exactly one conjunct and the conjuncts in the
order in which they begin, and `conjuncts` finds them by looking for the
places where a conjunct begins.

## Main results

* `conjunctsOf_conjuncts`: the conjuncts of every list are found.
* `ConjunctsOf.holds_iff`: a list means that each of its conjuncts has a true
  member.
* `conditions_eq`: the conditions of a clause are the conjuncts, each worked
  out where it begins.
-/

namespace TableGate.Filter

/-- A conjunct, by the places of its filters. -/
inductive Conjunct
  | alone (place : Nat)
  | anyOf (places : List Nat)
deriving DecidableEq

namespace Conjunct

/-- The places of a conjunct. -/
def places : Conjunct → List Nat
  | alone place => [place]
  | anyOf places => places

/-- The place where a conjunct begins. -/
def first (c : Conjunct) : Nat := c.places.headD 0

/-- A conjunct means that one of its filters is true. -/
def Holds (truth : Nat → Bool) (c : Conjunct) : Prop :=
  ∃ i ∈ c.places, truth i = true

end Conjunct

/-- The places of the members of an `or` group, in order. -/
def groupPlaces (filters : List Filter) (group : Int) : List Nat :=
  (filters.zipIdx.filter fun entry => inGroup group entry.1).map Prod.snd

/-- What may be a conjunct: a filter outside the groups, or all members of a
group that has some. -/
inductive Conjunct.Of (filters : List Filter) : Conjunct → Prop
  | alone {place : Nat} {f : Filter} (h : filters[place]? = some f)
      (hAlone : f.isGrouped = false) : Of filters (.alone place)
  | anyOf {group : Int} (hGroup : group ≠ 0)
      (hSome : groupPlaces filters group ≠ []) :
      Of filters (.anyOf (groupPlaces filters group))

/-- The conjuncts of a list of filters: every place is in exactly one of them,
and they stand in the order in which they begin. -/
structure ConjunctsOf (filters : List Filter) (found : List Conjunct) :
    Prop where
  of : ∀ c ∈ found, c.Of filters
  perm : (found.flatMap Conjunct.places).Perm (List.range filters.length)
  ordered : found.Pairwise fun a b => a.first < b.first

/-! ## Groups -/

theorem isGrouped_iff {f : Filter} :
    f.isGrouped = true ↔ f.isOr = true ∧ f.group ≠ 0 := by
  simp [isGrouped]

theorem inGroup_iff {group : Int} (hGroup : group ≠ 0) {f : Filter} :
    inGroup group f = true ↔ f.isGrouped = true ∧ f.group = group := by
  rw [inGroup, isGrouped_iff, Bool.and_eq_true, beq_iff_eq]
  constructor
  · rintro ⟨hOr, rfl⟩
    exact ⟨⟨hOr, hGroup⟩, rfl⟩
  · rintro ⟨⟨hOr, -⟩, hSame⟩
    exact ⟨hOr, hSame⟩

theorem inGroup_self {f : Filter} (h : f.isGrouped = true) :
    inGroup f.group f = true :=
  (inGroup_iff (isGrouped_iff.1 h).2).2 ⟨h, rfl⟩

theorem mem_groupPlaces {filters : List Filter} {group : Int} {i : Nat} :
    i ∈ groupPlaces filters group ↔
      ∃ f, filters[i]? = some f ∧ inGroup group f = true := by
  simp only [groupPlaces, List.mem_map, List.mem_filter,
    List.mem_zipIdx_iff_getElem?]
  constructor
  · rintro ⟨⟨f, j⟩, hMember, rfl⟩
    exact ⟨f, hMember⟩
  · rintro ⟨f, hMember⟩
    exact ⟨(f, i), hMember, rfl⟩

theorem grouped_of_mem_groupPlaces {filters : List Filter} {group : Int}
    (hGroup : group ≠ 0) {i : Nat} {f : Filter} (hAt : filters[i]? = some f)
    (h : i ∈ groupPlaces filters group) :
    f.isGrouped = true ∧ f.group = group := by
  obtain ⟨g, hSame, hIn⟩ := mem_groupPlaces.1 h
  obtain rfl : f = g := Option.some.inj (hAt.symm.trans hSame)
  exact (inGroup_iff hGroup).1 hIn

/-- Places are counted upwards. -/
theorem pairwise_zipIdx (filters : List Filter) :
    filters.zipIdx.Pairwise fun a b => a.2 < b.2 := by
  have hPlaces : (filters.zipIdx.map Prod.snd).Pairwise (· < ·) := by
    rw [List.zipIdx_map_snd]
    exact List.pairwise_lt_range'
  exact List.pairwise_map.1 hPlaces

theorem pairwise_groupPlaces (filters : List Filter) (group : Int) :
    (groupPlaces filters group).Pairwise (· < ·) :=
  List.pairwise_map.2 ((pairwise_zipIdx filters).filter _)

/-- The members of a conjunct stand in their order. -/
theorem Conjunct.Of.pairwise_places {filters : List Filter} {c : Conjunct}
    (h : c.Of filters) : c.places.Pairwise (· < ·) := by
  cases h with
  | alone => exact List.pairwise_singleton _ _
  | anyOf => exact pairwise_groupPlaces _ _

theorem Conjunct.Of.places_ne_nil {filters : List Filter} {c : Conjunct}
    (h : c.Of filters) : c.places ≠ [] := by
  cases h with
  | alone => exact List.cons_ne_nil _ _
  | anyOf _ hSome => exact hSome

/-! ## Meaning -/

theorem ConjunctsOf.exists_mem {filters : List Filter} {found : List Conjunct}
    (h : ConjunctsOf filters found) {i : Nat} {f : Filter}
    (hAt : filters[i]? = some f) : ∃ c ∈ found, i ∈ c.places := by
  have hPlace : i ∈ List.range filters.length :=
    List.mem_range.2 (List.getElem?_eq_some_iff.1 hAt).1
  exact List.mem_flatMap.1 (h.perm.mem_iff.2 hPlace)

theorem ConjunctsOf.eq_nil_iff {filters : List Filter} {found : List Conjunct}
    (h : ConjunctsOf filters found) : found = [] ↔ filters = [] := by
  constructor
  · rintro rfl
    have hLength := h.perm.length_eq
    rw [List.length_range] at hLength
    exact List.eq_nil_of_length_eq_zero hLength.symm
  · rintro rfl
    cases found with
    | nil => rfl
    | cons c others =>
        obtain ⟨i, hi⟩ := List.exists_mem_of_ne_nil _
          (h.of c List.mem_cons_self).places_ne_nil
        have hPlace := h.perm.mem_iff.1
          (List.mem_flatMap.2 ⟨c, List.mem_cons_self, hi⟩)
        exact absurd hPlace (List.not_mem_nil)

/-- A list of filters means that each of its conjuncts does. -/
theorem ConjunctsOf.holds_iff {filters : List Filter} {found : List Conjunct}
    (h : ConjunctsOf filters found) (truth : Nat → Bool) :
    Holds filters truth ↔ ∀ c ∈ found, c.Holds truth := by
  constructor
  · intro hHolds c hc
    cases h.of c hc with
    | alone hAt hAlone =>
        exact ⟨_, List.mem_singleton_self _, hHolds.1 _ _ hAt hAlone⟩
    | @anyOf group hGroup hSome =>
        obtain ⟨i, hi⟩ := List.exists_mem_of_ne_nil _ hSome
        obtain ⟨f, hAt, hIn⟩ := mem_groupPlaces.1 hi
        obtain ⟨hGrouped, hSame⟩ := (inGroup_iff hGroup).1 hIn
        obtain ⟨j, g, hOther, hMember, hEq, hTrue⟩ :=
          hHolds.2 i f hAt hGrouped
        refine ⟨j, mem_groupPlaces.2 ⟨g, hOther, ?_⟩, hTrue⟩
        exact (inGroup_iff hGroup).2 ⟨hMember, hEq.trans hSame⟩
  · intro hAll
    refine ⟨fun i f hAt hAlone => ?_, fun i f hAt hGrouped => ?_⟩
    · obtain ⟨c, hc, hi⟩ := h.exists_mem hAt
      obtain ⟨j, hj, hTrue⟩ := hAll c hc
      cases h.of c hc with
      | alone =>
          rw [Conjunct.places, List.mem_singleton] at hi hj
          rwa [hi, ← hj]
      | anyOf hGroup =>
          have hGrouped := (grouped_of_mem_groupPlaces hGroup hAt hi).1
          rw [hAlone] at hGrouped
          exact absurd hGrouped (by decide)
    · obtain ⟨c, hc, hi⟩ := h.exists_mem hAt
      obtain ⟨j, hj, hTrue⟩ := hAll c hc
      cases h.of c hc with
      | alone hOther hAlone =>
          rw [Conjunct.places, List.mem_singleton] at hi
          rw [hi, hOther] at hAt
          obtain rfl := Option.some.inj hAt
          rw [hAlone] at hGrouped
          exact absurd hGrouped (by decide)
      | anyOf hGroup =>
          have hFirst := (grouped_of_mem_groupPlaces hGroup hAt hi).2
          obtain ⟨g, hOther, hMember⟩ := mem_groupPlaces.1 hj
          obtain ⟨hGrouped', hSecond⟩ := (inGroup_iff hGroup).1 hMember
          exact ⟨j, g, hOther, hGrouped', hSecond.trans hFirst.symm, hTrue⟩

/-! ## Finding the conjuncts -/

/-- Whether a conjunct begins at a place: the filter there stands alone, or no
filter before it is in its group. -/
def leads (filters : List Filter) (f : Filter) (i : Nat) : Bool :=
  !f.isGrouped || !(filters.take i).any (inGroup f.group)

/-- The filters with which conjuncts begin, and their places. -/
def leaders (filters : List Filter) : List (Filter × Nat) :=
  filters.zipIdx.filter fun entry => leads filters entry.1 entry.2

/-- The conjunct that begins with a filter. -/
def conjunctAt (filters : List Filter) (leader : Filter × Nat) : Conjunct :=
  if leader.1.isGrouped then .anyOf (groupPlaces filters leader.1.group)
  else .alone leader.2

/-- The conjuncts of a list of filters. -/
def conjuncts (filters : List Filter) : List Conjunct :=
  (leaders filters).map (conjunctAt filters)

theorem leads_iff {filters : List Filter} {f : Filter} {i : Nat} :
    leads filters f i = true ↔ (f.isGrouped = true →
      ∀ (j : Nat) (g : Filter), j < i → filters[j]? = some g →
        inGroup f.group g = false) := by
  rw [leads, Bool.or_eq_true, Bool.not_eq_true', Bool.not_eq_true',
    List.any_eq_false, ← Bool.not_eq_true, Classical.or_iff_not_imp_left,
    Classical.not_not]
  refine forall_congr' fun _ => ⟨fun h j g hj hAt => ?_, fun h g hg => ?_⟩
  · have hMem : g ∈ filters.take i :=
      List.mem_of_getElem? (by rwa [List.getElem?_take_of_lt hj])
    exact Bool.eq_false_iff.2 (h g hMem)
  · obtain ⟨j, hj⟩ := List.mem_iff_getElem?.1 hg
    have hLt : j < i := by
      have hBound := (List.getElem?_eq_some_iff.1 hj).1
      rw [List.length_take] at hBound
      omega
    rw [List.getElem?_take_of_lt hLt] at hj
    exact Bool.eq_false_iff.1 (h j g hLt hj)

theorem mem_leaders {filters : List Filter} {leader : Filter × Nat} :
    leader ∈ leaders filters ↔ filters[leader.2]? = some leader.1 ∧
      leads filters leader.1 leader.2 = true := by
  rw [leaders, List.mem_filter, List.mem_zipIdx_iff_getElem?]

theorem pairwise_leaders (filters : List Filter) :
    (leaders filters).Pairwise fun a b => a.2 < b.2 :=
  (pairwise_zipIdx filters).filter _

/-- Every member of a group comes at or after the filter that leads it. -/
theorem exists_leader {filters : List Filter} {f : Filter} {i : Nat}
    (hAt : filters[i]? = some f) (hGrouped : f.isGrouped = true) :
    ∃ leader ∈ leaders filters, inGroup f.group leader.1 = true := by
  have hGroup := (isGrouped_iff.1 hGrouped).2
  have hLt : filters.findIdx (inGroup f.group) < filters.length :=
    List.findIdx_lt_length_of_exists
      ⟨f, List.mem_of_getElem? hAt, inGroup_self hGrouped⟩
  have hFound : inGroup f.group (filters[filters.findIdx (inGroup f.group)]) =
      true := List.findIdx_getElem
  refine ⟨(_, _), mem_leaders.2 ⟨List.getElem?_eq_getElem hLt, ?_⟩, hFound⟩
  refine leads_iff.2 fun _ j g hj hBefore => ?_
  have hNot := List.not_of_lt_findIdx hj
  obtain ⟨hBound, rfl⟩ := List.getElem?_eq_some_iff.1 hBefore
  rwa [((inGroup_iff hGroup).1 hFound).2]

theorem conjunctAt_of {filters : List Filter} {leader : Filter × Nat}
    (h : leader ∈ leaders filters) :
    (conjunctAt filters leader).Of filters := by
  obtain ⟨hAt, -⟩ := mem_leaders.1 h
  unfold conjunctAt
  split
  · next hGrouped =>
      have hMem : leader.2 ∈ groupPlaces filters leader.1.group :=
        mem_groupPlaces.2 ⟨_, hAt, inGroup_self hGrouped⟩
      exact .anyOf (isGrouped_iff.1 hGrouped).2 (List.ne_nil_of_mem hMem)
  · next hAlone => exact .alone hAt (Bool.eq_false_iff.2 hAlone)

/-- The places of a group are in order, and no member comes before the one
that leads. -/
theorem first_conjunctAt {filters : List Filter} {leader : Filter × Nat}
    (h : leader ∈ leaders filters) :
    (conjunctAt filters leader).first = leader.2 := by
  obtain ⟨hAt, hLeads⟩ := mem_leaders.1 h
  unfold conjunctAt
  split
  · next hGrouped =>
      have hMem : leader.2 ∈ groupPlaces filters leader.1.group :=
        mem_groupPlaces.2 ⟨_, hAt, inGroup_self hGrouped⟩
      have hOrder := pairwise_groupPlaces filters leader.1.group
      cases hPlaces : groupPlaces filters leader.1.group with
      | nil =>
          rw [hPlaces] at hMem
          exact absurd hMem (List.not_mem_nil)
      | cons place rest =>
          obtain ⟨g, hPlace, hIn⟩ : ∃ g, filters[place]? = some g ∧
              inGroup leader.1.group g = true :=
            mem_groupPlaces.1 (hPlaces ▸ List.mem_cons_self)
          rw [hPlaces] at hMem hOrder
          rcases List.mem_cons.1 hMem with hFirst | hLater
          · exact hFirst.symm
          · have hBefore := (List.pairwise_cons.1 hOrder).1 _ hLater
            have hNot := leads_iff.1 hLeads hGrouped place g hBefore hPlace
            rw [hIn] at hNot
            exact absurd hNot (by decide)
  · rfl

/-- Two conjuncts that share a place are the same. -/
theorem Conjunct.Of.eq_of_mem {filters : List Filter} {c d : Conjunct}
    (hc : c.Of filters) (hd : d.Of filters) {i : Nat} (hLeft : i ∈ c.places)
    (hRight : i ∈ d.places) : c = d := by
  cases hc with
  | @alone place f hAt hAlone =>
      obtain rfl : i = place := List.mem_singleton.1 hLeft
      cases hd with
      | alone => exact congrArg Conjunct.alone (List.mem_singleton.1 hRight)
      | anyOf hGroup =>
          have hGrouped := (grouped_of_mem_groupPlaces hGroup hAt hRight).1
          rw [hAlone] at hGrouped
          exact absurd hGrouped (by decide)
  | anyOf hGroup =>
      obtain ⟨f, hAt, hIn⟩ := mem_groupPlaces.1 hLeft
      have hFirst := (inGroup_iff hGroup).1 hIn
      cases hd with
      | @alone place g hOther hAlone =>
          obtain rfl : i = place := List.mem_singleton.1 hRight
          obtain rfl : f = g := Option.some.inj (hAt.symm.trans hOther)
          have hGrouped := hFirst.1
          rw [hAlone] at hGrouped
          exact absurd hGrouped (by decide)
      | anyOf hGroup' =>
          have hSecond := grouped_of_mem_groupPlaces hGroup' hAt hRight
          rw [← hFirst.2, ← hSecond.2]

theorem Conjunct.Of.nodup_places {filters : List Filter} {c : Conjunct}
    (h : c.Of filters) : c.places.Nodup :=
  h.pairwise_places.imp fun hLt => Nat.ne_of_lt hLt

theorem nodup_places (filters : List Filter) :
    ((conjuncts filters).flatMap Conjunct.places).Nodup := by
  rw [conjuncts, List.flatMap_map, List.nodup_flatMap]
  refine ⟨fun leader h => (conjunctAt_of h).nodup_places, ?_⟩
  refine (pairwise_leaders filters).imp_of_mem ?_
  intro a b ha hb hLt i hLeft hRight
  have hSame := (conjunctAt_of ha).eq_of_mem (conjunctAt_of hb) hLeft hRight
  have hFirst : a.2 = b.2 := by
    rw [← first_conjunctAt ha, ← first_conjunctAt hb, hSame]
  omega

theorem Conjunct.Of.lt_length {filters : List Filter} {c : Conjunct}
    (h : c.Of filters) {i : Nat} (hi : i ∈ c.places) : i < filters.length := by
  obtain ⟨f, hAt⟩ : ∃ f, filters[i]? = some f := by
    cases h with
    | alone hAt => exact ⟨_, List.mem_singleton.1 hi ▸ hAt⟩
    | anyOf =>
        obtain ⟨f, hAt, -⟩ := mem_groupPlaces.1 hi
        exact ⟨f, hAt⟩
  exact (List.getElem?_eq_some_iff.1 hAt).1

theorem mem_places_iff {filters : List Filter} {i : Nat} :
    i ∈ (conjuncts filters).flatMap Conjunct.places ↔ i < filters.length := by
  rw [conjuncts, List.flatMap_map, List.mem_flatMap]
  constructor
  · rintro ⟨leader, hLeader, hi⟩
    exact (conjunctAt_of hLeader).lt_length hi
  · intro hi
    have hAt := List.getElem?_eq_getElem hi
    cases hGrouped : filters[i].isGrouped with
    | false =>
        have hLeads : leads filters filters[i] i = true := by
          rw [leads, hGrouped]
          rfl
        refine ⟨(filters[i], i), mem_leaders.2 ⟨hAt, hLeads⟩, ?_⟩
        rw [conjunctAt, if_neg (by rw [hGrouped]; decide)]
        exact List.mem_singleton_self i
    | true =>
        have hGroup := (isGrouped_iff.1 hGrouped).2
        obtain ⟨leader, hLeader, hIn⟩ := exists_leader hAt hGrouped
        obtain ⟨hSome, hSame⟩ := (inGroup_iff hGroup).1 hIn
        refine ⟨leader, hLeader, ?_⟩
        rw [conjunctAt, if_pos hSome, hSame]
        exact mem_groupPlaces.2 ⟨_, hAt, inGroup_self hGrouped⟩

/-- The conjuncts of every list of filters are found. -/
theorem conjunctsOf_conjuncts (filters : List Filter) :
    ConjunctsOf filters (conjuncts filters) where
  of := by
    intro c hc
    obtain ⟨leader, hLeader, rfl⟩ := List.mem_map.1 hc
    exact conjunctAt_of hLeader
  perm := by
    refine (List.perm_ext_iff_of_nodup (nodup_places filters)
      List.nodup_range).2 fun i => ?_
    rw [mem_places_iff, List.mem_range]
  ordered := by
    refine List.pairwise_map.2 ((pairwise_leaders filters).imp_of_mem ?_)
    intro a b ha hb hLt
    rwa [first_conjunctAt ha, first_conjunctAt hb]

/-- Without groups every filter is a conjunct. -/
theorem conjuncts_of_alone {filters : List Filter}
    (h : ∀ f ∈ filters, f.isGrouped = false) :
    conjuncts filters = filters.zipIdx.map fun entry => .alone entry.2 := by
  have hMem : ∀ entry ∈ filters.zipIdx, entry.1.isGrouped = false :=
    fun entry hEntry => h _ (List.mem_of_getElem?
      (List.mem_zipIdx_iff_getElem?.1 hEntry))
  have hLeaders : leaders filters = filters.zipIdx := by
    refine List.filter_eq_self.2 fun entry hEntry => ?_
    rw [leads, hMem entry hEntry]
    rfl
  rw [conjuncts, hLeaders]
  refine List.map_congr_left fun entry hEntry => ?_
  rw [conjunctAt, hMem entry hEntry]
  rfl

/-- A last filter outside the groups is the last conjunct. -/
theorem getLast?_conjuncts_concat (filters : List Filter) {f : Filter}
    (h : f.isGrouped = false) :
    (conjuncts (filters ++ [f])).getLast? = some (.alone filters.length) := by
  have hLeads : leads (filters ++ [f]) f filters.length = true := by
    rw [leads, h]
    rfl
  have hLast : ([f].zipIdx (0 + filters.length)).filter
      (fun entry => leads (filters ++ [f]) entry.1 entry.2) =
        [(f, filters.length)] := by
    simp [hLeads]
  have hAt : conjunctAt (filters ++ [f]) (f, filters.length) =
      .alone filters.length := by
    rw [conjunctAt, h]
    rfl
  rw [conjuncts, leaders, List.zipIdx_append, List.filter_append, hLast,
    List.map_append, List.map_singleton, List.getLast?_concat, hAt]

/-! ## Conditions are conjuncts -/

/-- The condition that begins with a filter. -/
def conditionOf (filters : List Filter) (f : Filter) : Condition :=
  if f.isGrouped then .anyOf (filters.filter (inGroup f.group)) else .single f

/-- Whether the given numbers are those of the groups that occur. -/
def Settled (settled : List Int) (before : List Filter) : Prop :=
  ∀ f : Filter, f.isGrouped = true →
    settled.contains f.group = before.any (inGroup f.group)

theorem any_inGroup_concat {g : Filter} (h : g.isGrouped = true)
    (before : List Filter) (f : Filter) :
    (before ++ [f]).any (inGroup g.group) =
      (before.any (inGroup g.group) ||
        (f.isGrouped && f.group == g.group)) := by
  have hIn : inGroup g.group f = (f.isGrouped && f.group == g.group) := by
    rw [Bool.eq_iff_iff, inGroup_iff (isGrouped_iff.1 h).2, Bool.and_eq_true,
      beq_iff_eq]
  rw [List.any_append, List.any_cons, List.any_nil, Bool.or_false, hIn]

theorem Settled.alone {settled : List Int} {before : List Filter}
    (h : Settled settled before) {f : Filter} (hAlone : f.isGrouped = false) :
    Settled settled (before ++ [f]) := by
  intro g hg
  rw [any_inGroup_concat hg, hAlone, Bool.false_and, Bool.or_false]
  exact h g hg

theorem Settled.seen {settled : List Int} {before : List Filter}
    (h : Settled settled before) {f : Filter}
    (hSeen : settled.contains f.group = true) :
    Settled settled (before ++ [f]) := by
  intro g hg
  rw [any_inGroup_concat hg, ← h g hg]
  by_cases hSame : f.group = g.group
  · rw [← hSame, hSeen, Bool.true_or]
  · rw [beq_eq_false_iff_ne.2 hSame, Bool.and_false, Bool.or_false]

theorem Settled.fresh {settled : List Int} {before : List Filter}
    (h : Settled settled before) {f : Filter} (hGrouped : f.isGrouped = true) :
    Settled (f.group :: settled) (before ++ [f]) := by
  intro g hg
  rw [any_inGroup_concat hg, ← h g hg, hGrouped, Bool.true_and,
    List.contains_cons, Bool.or_comm, Bool.beq_comm]

/-- While the conditions are worked out, the settled groups are those of the
filters that came before. -/
theorem conditionsFrom_eq (rest : List Filter) {before : List Filter}
    {settled : List Int} (hSettled : Settled settled before) :
    conditionsFrom (before ++ rest) settled rest =
      ((rest.zipIdx before.length).filter fun entry =>
        leads (before ++ rest) entry.1 entry.2).map fun entry =>
          conditionOf (before ++ rest) entry.1 := by
  induction rest generalizing before settled with
  | nil => rfl
  | cons f rest ih =>
      have hNext : before ++ f :: rest = (before ++ [f]) ++ rest := by
        rw [List.append_assoc]
        rfl
      have hLength : (before ++ [f]).length = before.length + 1 :=
        List.length_append
      have hLeads : leads (before ++ f :: rest) f before.length =
          (!f.isGrouped || !before.any (inGroup f.group)) := by
        rw [leads, List.take_left]
      rw [List.zipIdx_cons, List.filter_cons, hLeads, conditionsFrom]
      cases hGrouped : f.isGrouped with
      | false =>
          have hRest := ih (hSettled.alone hGrouped)
          rw [← hNext, hLength] at hRest
          simp [hRest, conditionOf, hGrouped]
      | true =>
          rw [← hSettled f hGrouped]
          cases hSeen : settled.contains f.group with
          | true =>
              have hRest := ih (hSettled.seen hSeen)
              rw [← hNext, hLength] at hRest
              simp [hRest]
          | false =>
              have hRest := ih (hSettled.fresh hGrouped)
              rw [← hNext, hLength] at hRest
              simp [hRest, conditionOf, hGrouped]

theorem conditions_eq (filters : List Filter) :
    conditions filters =
      (leaders filters).map fun leader => conditionOf filters leader.1 := by
  have hNone : Settled [] [] := fun _ _ => rfl
  exact conditionsFrom_eq filters hNone

/-- The members of a group stand at its places. -/
theorem map_groupPlaces {α : Type} {filters : List Filter}
    {render : Filter → α} {rendered : Nat → α}
    (h : ∀ (i : Nat) (f : Filter), filters[i]? = some f →
      rendered i = render f) (group : Int) :
    (groupPlaces filters group).map rendered =
      (filters.filter (inGroup group)).map render := by
  have hMembers : filters.filter (inGroup group) =
      (filters.zipIdx.filter fun entry => inGroup group entry.1).map
        Prod.fst := by
    conv_lhs => rw [← List.zipIdx_map_fst 0 filters, List.filter_map]
    rfl
  rw [hMembers, groupPlaces, List.map_map, List.map_map]
  refine List.map_congr_left fun entry hEntry => ?_
  exact h _ _ (List.mem_zipIdx_iff_getElem?.1 (List.mem_filter.1 hEntry).1)

end TableGate.Filter
