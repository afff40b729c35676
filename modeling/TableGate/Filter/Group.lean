import TableGate.Filter.Basic

/-!
# Groups of filters

A group is a comma list of filters and nested groups: `a.eq.1,or(b.eq.2,c.eq.3)`.
Commas inside parentheses do not separate. All filters of an `or` group carry
one group number, handed out when the group is met. A group nested in one of
the same kind dissolves into it, and an `or` group nested in an `and` group
gets a number of its own; an `and` group inside an `or` group has no flat form
and is refused.

Numbers are handed out by `Numbering`, a computation that may fail and whose
counter keeps what was handed out before the failure.

## Main results

* `joinWith_splitTopLevel`: the segments of a group, with commas between them,
  are its text.
-/

namespace TableGate

/-- Computations that may fail and hand out group numbers. -/
abbrev Numbering (α : Type) := ExceptT Error (StateM Int) α

/-- Hand out the next group number. -/
def Numbering.allocate : Numbering Int := do
  let next ← get
  set (next + 1)
  return next

/-- A plain result as a numbering that hands out nothing. -/
def Numbering.lift {α : Type} (result : Result α) : Numbering α :=
  ExceptT.mk (pure result)

namespace Group

/-- Split at commas outside parentheses, starting at a depth. `none` means
that a parenthesis closes nothing or one stays open. -/
def splitAt? : Nat → List Char → Option (List (List Char))
  | depth, [] => if depth = 0 then some [[]] else none
  | depth, c :: rest =>
      if c = ',' ∧ depth = 0 then
        (splitAt? 0 rest).map fun pieces => [] :: pieces
      else if c = ')' ∧ depth = 0 then none
      else
        let inner :=
          if c = '(' then depth + 1 else if c = ')' then depth - 1 else depth
        match splitAt? inner rest with
        | some (piece :: pieces) => some ((c :: piece) :: pieces)
        | _ => none

/-- The segments of a group. -/
def splitTopLevel (cs : List Char) : Result (List (List Char)) :=
  match splitAt? 0 cs with
  | some pieces => .ok pieces
  | none => refuse (.unbalanced (.ofList cs))

/-- A group text without its outer parentheses, which must be both there or
both missing. -/
def unwrap (connective : Connective) (s : String) : Result String :=
  let cs := Text.trimChars s.toList
  let opens := cs.head? = some '('
  let closes := cs.getLast? = some ')'
  if opens ∧ closes then .ok (.ofList (cs.drop 1).dropLast)
  else if opens ∨ closes then refuse (.groupFormat connective s)
  else .ok (.ofList cs)

/-- The inside of a segment that is a nested group of a connective. -/
def inside? (connective : Connective) (segment : List Char) :
    Option (List Char) :=
  let cs := Text.trimChars segment
  if Text.startsWith (Text.lowerChars cs) connective.opening &&
      cs.getLast? == some ')' then
    some ((cs.drop connective.opening.length).dropLast)
  else none

/-- The connective and the inside of a segment that is a nested group. -/
def nested? (segment : List Char) : Option (Connective × List Char) :=
  match inside? .or segment with
  | some inner => some (.or, inner)
  | none => (inside? .and segment).map fun inner => (.and, inner)

/-- The filter of a segment that is no nested group. -/
def readFilter (connective : Connective) (group : Int) (segment : List Char) :
    Result Filter :=
  match Filter.cutTriple? segment with
  | some (column, token, value) =>
      Filter.build (.ofList column) (.ofList token) (.text (.ofList value))
        (connective == .or) group
  | none => refuse (.groupFormat connective (.ofList segment))

/-- Read one segment of a group, given how the inside of a nested group is
read. A nested `or` group inside an `or` group keeps its number. -/
def readSegment
    (readInside : Connective → Option Int → List Char →
      Numbering (List Filter))
    (connective : Connective) (group : Int) (segment : List Char) :
    Numbering (List Filter) :=
  match nested? segment with
  | none => do
      let f ← Numbering.lift (readFilter connective group segment)
      return [f]
  | some (.and, inner) =>
      match connective with
      | .or => throw (.invalid (.groupFormat .or (.ofList segment)))
      | .and => readInside .and none inner
  | some (.or, inner) =>
      match connective with
      | .or => readInside .or (some group) inner
      | .and => readInside .or none inner

/-- Read the filters of a group; a number given from outside is used instead
of a fresh one. The inside of a nested group is shorter than the text around
it, so `fuel` above the length of the text is never used up. -/
def readWithin : (fuel : Nat) → Connective → Option Int → List Char →
    Numbering (List Filter)
  | 0, _, _, _ => return []
  | fuel + 1, connective, number, cs =>
      if cs.all Text.isBlank then return []
      else do
        let segments ← Numbering.lift (splitTopLevel cs)
        let group ←
          match number, connective with
          | some group, _ => pure group
          | none, .or => Numbering.allocate
          | none, .and => pure 0
        let parts ← segments.mapM
          (readSegment (readWithin fuel) connective group)
        return parts.flatten

/-- Read the filters of a group text. -/
def read (connective : Connective) (s : String) (number : Option Int := none) :
    Numbering (List Filter) :=
  readWithin (s.toList.length + 1) connective number s.toList

/-! ## Splitting -/

theorem splitAt?_ne_nil {depth : Nat} {cs : List Char} :
    splitAt? depth cs ≠ some [] := by
  cases cs with
  | nil => unfold splitAt?; split <;> simp
  | cons c rest =>
      unfold splitAt?
      split
      · simp
      · split
        · simp
        · simp only
          split <;> simp

theorem joinWith_splitAt? {depth : Nat} {cs : List Char}
    {pieces : List (List Char)} (h : splitAt? depth cs = some pieces) :
    Text.joinWith [','] pieces = cs := by
  induction cs generalizing depth pieces with
  | nil =>
      unfold splitAt? at h
      split at h
      · cases h; rfl
      · cases h
  | cons c rest ih =>
      unfold splitAt? at h
      split at h
      · next hc =>
          obtain ⟨others, hOthers, rfl⟩ := Option.map_eq_some_iff.1 h
          have hJoin := ih hOthers
          cases others with
          | nil => exact absurd hOthers splitAt?_ne_nil
          | cons piece others => simp [Text.joinWith, hJoin, hc.1]
      · split at h
        · simp at h
        · simp only at h
          split at h
          · next piece others hRest =>
              cases h
              have hJoin := ih hRest
              cases others with
              | nil => simpa [Text.joinWith] using hJoin
              | cons next others => simpa [Text.joinWith] using hJoin
          · simp at h

theorem joinWith_splitTopLevel {cs : List Char} {pieces : List (List Char)}
    (h : splitTopLevel cs = .ok pieces) : Text.joinWith [','] pieces = cs := by
  unfold splitTopLevel at h
  split at h
  · next hSplit => cases h; exact joinWith_splitAt? hSplit
  · simp [refuse] at h

end Group
end TableGate
