import Mathlib.Data.List.Forall2
import TableGate.Proofs.Expression.Reading
import TableGate.Proofs.Filter.Meaning

/-!
# The filters of an expression mean the expression

The list a group text is read to is flat, so its meaning is given by group
numbers alone. It is the meaning of the expression because numbers are handed
out so that they cannot be mixed up: inside an `or` group every filter carries
the number of that group, and outside of one the members of an `and` group use
numbers from ranges that follow one another.

## Main results

* `holds_numbered`: the filters read from a conjunction mean the conjunction.
* `read_expression`: the text of every expression that has a flat form is
  read, to filters that are its triples in their order and that mean what the
  expression means.
-/

namespace TableGate

open TableGate.Filter (Holds Apart)

/-- The filter is what a triple stands for, in whatever group it was put. -/
def Triple.Builds (t : Triple) (f : Filter) : Prop :=
  Filter.build (.ofList t.column) (.ofList t.token) (.text (.ofList t.value))
    f.isOr f.group = .ok f

/-! ## The triples are the filters -/

mutual

theorem Expression.builds_numbered : ∀ (e : Expression) (number : Option Int)
    (next : Int),
    List.Forall₂ Triple.Builds e.triples (e.numbered number next).1
  | .triple _ t _, number, _ => .cons (t.build_eq number) .nil
  | .group _ .or _ members _, some group, next =>
      Members.builds_numbered members (some group) next
  | .group _ .or _ members _, none, next =>
      Members.builds_numbered members (some next) (next + 1)
  | .group _ .and _ members _, some _, next
  | .group _ .and _ members _, none, next =>
      Members.builds_numbered members none next

theorem Members.builds_numbered : ∀ (members : Members) (number : Option Int)
    (next : Int),
    List.Forall₂ Triple.Builds members.triples (members.numbered number next).1
  | .one member, number, next => Expression.builds_numbered member number next
  | .cons member others, number, next =>
      List.rel_append (Expression.builds_numbered member number next)
        (Members.builds_numbered others number _)

end

theorem Expression.length_numbered (e : Expression) (number : Option Int)
    (next : Int) : (e.numbered number next).1.length = e.triples.length :=
  (e.builds_numbered number next).length_eq.symm

theorem Members.length_numbered (members : Members) (number : Option Int)
    (next : Int) :
    (members.numbered number next).1.length = members.triples.length :=
  (members.builds_numbered number next).length_eq.symm

mutual

theorem Expression.triples_length_pos : ∀ e : Expression, 0 < e.triples.length
  | .triple _ _ _ => Nat.one_pos
  | .group _ _ _ members _ => Members.triples_length_pos members

theorem Members.triples_length_pos :
    ∀ members : Members, 0 < members.triples.length
  | .one member => Expression.triples_length_pos member
  | .cons member others => by
      rw [Members.triples, List.length_append]
      have hFirst := Expression.triples_length_pos member
      omega

end

/-! ## Inside an `or` group -/

mutual

/-- Inside a group no number is handed out and every filter joins it. -/
theorem Expression.numbered_some : ∀ (e : Expression) (group next : Int),
    e.Flattens true → (e.numbered (some group) next).2 = next ∧
      ∀ f ∈ (e.numbered (some group) next).1,
        f.isOr = true ∧ f.group = group
  | .triple _ t _, group, next, _ => by
      refine ⟨rfl, fun f hf => ?_⟩
      rw [Expression.numbered, List.mem_singleton] at hf
      rw [hf]
      exact ⟨rfl, rfl⟩
  | .group _ .or _ members _, group, next, hFlat =>
      Members.numbered_some members group next hFlat
  | .group _ .and _ _ _, _, _, hFlat => absurd hFlat.1 (by simp)

theorem Members.numbered_some : ∀ (members : Members) (group next : Int),
    members.Flattens true → (members.numbered (some group) next).2 = next ∧
      ∀ f ∈ (members.numbered (some group) next).1,
        f.isOr = true ∧ f.group = group
  | .one member, group, next, hFlat =>
      Expression.numbered_some member group next hFlat
  | .cons member others, group, next, hFlat => by
      obtain ⟨hNext, hFirst⟩ :=
        Expression.numbered_some member group next hFlat.1
      obtain ⟨hAfter, hRest⟩ :=
        Members.numbered_some others group next hFlat.2
      rw [Members.numbered, hNext]
      refine ⟨hAfter, fun f hf => ?_⟩
      rcases List.mem_append.1 hf with hMember | hOther
      · exact hFirst f hMember
      · exact hRest f hOther

end

mutual

/-- Inside an `or` group an expression is the disjunction of its triples. -/
theorem Expression.eval_of_flattens : ∀ (e : Expression) (truth : Nat → Bool)
    (first : Nat), e.Flattens true →
    (e.eval truth first = true ↔
      ∃ i < e.triples.length, truth (first + i) = true)
  | .triple _ _ _, truth, first, _ => by
      constructor
      · intro hTrue
        exact ⟨0, Nat.one_pos, hTrue⟩
      · rintro ⟨i, hi, hTrue⟩
        obtain rfl : i = 0 := Nat.lt_one_iff.1 hi
        exact hTrue
  | .group _ .or _ members _, truth, first, hFlat =>
      Members.eval_of_flattens members truth first hFlat
  | .group _ .and _ _ _, _, _, hFlat => absurd hFlat.1 (by simp)

theorem Members.eval_of_flattens : ∀ (members : Members)
    (truth : Nat → Bool) (first : Nat), members.Flattens true →
    (members.eval truth .or first = true ↔
      ∃ i < members.triples.length, truth (first + i) = true)
  | .one member, truth, first, hFlat =>
      Expression.eval_of_flattens member truth first hFlat
  | .cons member others, truth, first, hFlat => by
      have hMember := Expression.eval_of_flattens member truth first hFlat.1
      have hOthers := Members.eval_of_flattens others truth
        (first + member.triples.length) hFlat.2
      rw [Members.eval, Connective.join, Bool.or_eq_true, hMember, hOthers,
        Members.triples, List.length_append]
      constructor
      · rintro (⟨i, hi, hTrue⟩ | ⟨i, hi, hTrue⟩)
        · exact ⟨i, by omega, hTrue⟩
        · refine ⟨member.triples.length + i, by omega, ?_⟩
          rwa [← Nat.add_assoc]
      · rintro ⟨i, hi, hTrue⟩
        rcases Nat.lt_or_ge i member.triples.length with hLt | hGe
        · exact Or.inl ⟨i, hLt, hTrue⟩
        · refine Or.inr ⟨i - member.triples.length, by omega, ?_⟩
          rwa [show first + member.triples.length +
            (i - member.triples.length) = first + i by omega]

end

/-- The filters of an `or` group mean the disjunction of its members, whatever
number other than zero they carry. -/
theorem Members.holds_numbered_some {members : Members} {group : Int}
    (hGroup : group ≠ 0) (hFlat : members.Flattens true) (next : Int)
    (truth : Nat → Bool) (first : Nat) :
    Holds (members.numbered (some group) next).1 (fun i => truth (first + i)) ↔
      members.eval truth .or first = true := by
  have hLength := members.length_numbered (some group) next
  have hPos := members.triples_length_pos
  have hMembers : ∀ f ∈ (members.numbered (some group) next).1,
      f.isGrouped = true ∧ f.group = group := by
    intro f hf
    obtain ⟨hOr, hSame⟩ := (members.numbered_some group next hFlat).2 f hf
    refine ⟨?_, hSame⟩
    rw [Filter.isGrouped, hOr, hSame]
    simpa using hGroup
  have hSome : (members.numbered (some group) next).1 ≠ [] := by
    rw [← List.length_pos_iff]
    omega
  rw [Filter.holds_of_group hSome hMembers, hLength,
    members.eval_of_flattens truth first hFlat]

/-! ## Outside of `or` groups -/

mutual

/-- Outside of groups every number in the filters was handed out on the way
from the number before to the number after. -/
theorem Expression.numbered_none : ∀ (e : Expression) (next : Int),
    e.Flattens false → next ≤ (e.numbered none next).2 ∧
      ∀ f ∈ (e.numbered none next).1, f.isGrouped = true →
        next ≤ f.group ∧ f.group < (e.numbered none next).2
  | .triple _ t _, next, _ => by
      refine ⟨Int.le_refl _, fun f hf hGroup => ?_⟩
      rw [Expression.numbered, List.mem_singleton] at hf
      rw [hf] at hGroup
      exact absurd hGroup (by simp [Filter.isGrouped, Triple.filter])
  | .group _ .or _ members _, next, hFlat => by
      obtain ⟨hNext, hMembers⟩ :=
        Members.numbered_some members next (next + 1) hFlat
      rw [Expression.numbered, hNext]
      refine ⟨by omega, fun f hf _ => ?_⟩
      rw [(hMembers f hf).2]
      omega
  | .group _ .and _ members _, next, hFlat =>
      Members.numbered_none members next hFlat.2

theorem Members.numbered_none : ∀ (members : Members) (next : Int),
    members.Flattens false → next ≤ (members.numbered none next).2 ∧
      ∀ f ∈ (members.numbered none next).1, f.isGrouped = true →
        next ≤ f.group ∧ f.group < (members.numbered none next).2
  | .one member, next, hFlat => Expression.numbered_none member next hFlat
  | .cons member others, next, hFlat => by
      obtain ⟨hLow, hFirst⟩ := Expression.numbered_none member next hFlat.1
      obtain ⟨hHigh, hRest⟩ := Members.numbered_none others
        (member.numbered none next).2 hFlat.2
      rw [Members.numbered]
      refine ⟨Int.le_trans hLow hHigh, fun f hf hGroup => ?_⟩
      rcases List.mem_append.1 hf with hMember | hOther
      · have hRange := hFirst f hMember hGroup
        exact ⟨hRange.1, Int.lt_of_lt_of_le hRange.2 hHigh⟩
      · have hRange := hRest f hOther hGroup
        exact ⟨Int.le_trans hLow hRange.1, hRange.2⟩

end

mutual

theorem Expression.holds_numbered : ∀ (e : Expression) (next : Int)
    (truth : Nat → Bool) (first : Nat), 0 < next → e.Flattens false →
    (Holds (e.numbered none next).1 (fun i => truth (first + i)) ↔
      e.eval truth first = true)
  | .triple _ t _, next, truth, first, _, _ =>
      Filter.holds_singleton (by simp [Filter.isGrouped, Triple.filter]) _
  | .group _ .or _ members _, next, truth, first, hPos, hFlat =>
      Members.holds_numbered_some (by omega) hFlat (next + 1) truth first
  | .group _ .and _ members _, next, truth, first, hPos, hFlat =>
      Members.holds_numbered members next truth first hPos hFlat.2

theorem Members.holds_numbered : ∀ (members : Members) (next : Int)
    (truth : Nat → Bool) (first : Nat), 0 < next → members.Flattens false →
    (Holds (members.numbered none next).1 (fun i => truth (first + i)) ↔
      members.eval truth .and first = true)
  | .one member, next, truth, first, hPos, hFlat =>
      Expression.holds_numbered member next truth first hPos hFlat
  | .cons member others, next, truth, first, hPos, hFlat => by
      have hRange := Expression.numbered_none member next hFlat.1
      have hLater := Members.numbered_none others
        (member.numbered none next).2 hFlat.2
      have hApart : Apart (member.numbered none next).1
          (others.numbered none (member.numbered none next).2).1 := by
        intro f hf g hg hGroup hOther hSame
        have hBefore := (hRange.2 f hf hGroup).2
        have hAfter := (hLater.2 g hg hOther).1
        omega
      have hMember := Expression.holds_numbered member next truth first hPos
        hFlat.1
      have hOthers := Members.holds_numbered others
        (member.numbered none next).2 truth (first + member.triples.length)
        (by omega) hFlat.2
      rw [Members.numbered, Filter.holds_append hApart, hMember,
        member.length_numbered]
      simp only [← Nat.add_assoc]
      rw [hOthers, Members.eval, Connective.join, Bool.and_eq_true]

end

/-! ## Reading -/

/-- The text of a group whose expression has a flat form is read. The filters
are its triples in their order, and under every assignment of truth to the
triples they mean what the expression means. A counter of group numbers is
always positive; the number zero marks filters outside of groups. -/
theorem read_expression {connective : Connective} {members : Members}
    (hFlat : members.Flattens (connective == .or)) {next : Int}
    (hNext : 0 < next) :
    ∃ filters after,
      (Group.read connective (.ofList members.text)).run.run next =
          (.ok filters, after) ∧
        List.Forall₂ Triple.Builds members.triples filters ∧
        ∀ truth : Nat → Bool,
          Holds filters truth ↔ members.eval truth connective 0 = true := by
  refine ⟨_, _, members.run_read hFlat next, members.builds_numbered _ _,
    fun truth => ?_⟩
  have hShift : (fun i => truth (0 + i)) = truth := by
    funext i
    rw [Nat.zero_add]
  cases connective with
  | or =>
      have hGroup : next ≠ 0 := by omega
      have hHolds := Members.holds_numbered_some hGroup hFlat (next + 1)
        truth 0
      rwa [hShift] at hHolds
  | and =>
      have hHolds := Members.holds_numbered members next truth 0 hNext hFlat
      rwa [hShift] at hHolds

/-- The expression of `a.eq.1, OR(b.in.(1,2),or( c.is.null )),And(d.gt.5)`. -/
def Members.sample : Members :=
  .cons (.triple {} { column := ['a'], token := ['e', 'q'], value := ['1'] } {})
    (.cons
      (.group { chars := [' '] } .or { letters := ['O', 'R', '('] }
        (.cons
          (.triple {}
            { column := ['b']
              token := ['i', 'n']
              value := ['(', '1', ',', '2', ')'] } {})
          (.one (.group {} .or { letters := ['o', 'r', '('] }
            (.one (.triple { chars := [' '] }
              { column := ['c']
                token := ['i', 's']
                value := ['n', 'u', 'l', 'l'] } { chars := [' '] })) {}))) {})
      (.one (.group {} .and { letters := ['A', 'n', 'd', '('] }
        (.one (.triple {}
          { column := ['d'], token := ['g', 't'], value := ['5'] } {})) {})))

theorem read_expression_sample :
    Members.sample.Flattens (Connective.and == .or) ∧ (0 : Int) < 1 ∧
      ∃ filters after,
        (Group.read .and (.ofList Members.sample.text)).run.run 1 =
            (.ok filters, after) ∧
          List.Forall₂ Triple.Builds Members.sample.triples filters ∧
          ∀ truth : Nat → Bool,
            Holds filters truth ↔
              Members.sample.eval truth .and 0 = true := by
  have hFlat : Members.sample.Flattens (Connective.and == .or) :=
    ⟨trivial, ⟨trivial, trivial⟩, rfl, trivial⟩
  exact ⟨hFlat, by decide, read_expression hFlat (by decide)⟩

example : String.ofList Members.sample.text =
    "a.eq.1, OR(b.in.(1,2),or( c.is.null )),And(d.gt.5)" := rfl

end TableGate
