import Mathlib.Data.List.Basic
import TableGate.Filter.Group

/-!
# Parentheses and the commas between them

`Group.splitTopLevel` walks over a text with a depth counter. This module says
what the walk computes without a counter: a text is *balanced* when no prefix
closes more parentheses than it opened and the whole closes all of them, and a
balanced text is a *segment* when each of its commas stands behind a prefix
that leaves a parenthesis open.

Both notions count characters of prefixes, so they can be evaluated, and both
are closed under the ways in which group texts are put together: balanced
texts under concatenation and comma lists, segments under concatenation, and
any balanced text becomes a segment between parentheses.

## Main results

* `splitTopLevel_joinWith`: splitting the comma list of segments gives exactly
  the segments back.
* `depthAfter?_of_splitTopLevel`: what a text is split into are segments, each
  of which is one piece on its own (`splitTopLevel_eq_self`).
* `splitTopLevel_eq_ok_iff`, `exists_splitTopLevel_iff`: a text is split into
  the segments that it is the comma list of, and exactly if it is balanced.
* `segments_unique`: there is one list of segments at most for a text, and
  what has none is refused.
-/

namespace TableGate.Group

/-! ## Balanced texts and segments -/

/-- The number of parentheses a text opens. -/
def opens (cs : List Char) : Nat := cs.count '('

/-- The number of parentheses a text closes. -/
def closes (cs : List Char) : Nat := cs.count ')'

/-- No prefix closes more than it opened, and the whole closes all. -/
def Balanced (cs : List Char) : Prop :=
  (∀ k ≤ cs.length, closes (cs.take k) ≤ opens (cs.take k)) ∧
    closes cs = opens cs

instance (cs : List Char) : Decidable (Balanced cs) :=
  inferInstanceAs (Decidable (_ ∧ _))

/-- Every comma stands inside parentheses: the prefix before it leaves one
open. -/
def CommasInside (cs : List Char) : Prop :=
  ∀ k < cs.length, cs[k]? = some ',' → closes (cs.take k) < opens (cs.take k)

instance (cs : List Char) : Decidable (CommasInside cs) :=
  inferInstanceAs (Decidable (∀ k < cs.length, _ → _))

/-- One item of a comma list. -/
def IsSegment (cs : List Char) : Prop := Balanced cs ∧ CommasInside cs

instance (cs : List Char) : Decidable (IsSegment cs) :=
  inferInstanceAs (Decidable (_ ∧ _))

@[simp] theorem opens_append (a b : List Char) :
    opens (a ++ b) = opens a + opens b := List.count_append

@[simp] theorem closes_append (a b : List Char) :
    closes (a ++ b) = closes a + closes b := List.count_append

@[simp] theorem opens_nil : opens [] = 0 := rfl

@[simp] theorem closes_nil : closes [] = 0 := rfl

theorem opens_cons (c : Char) (cs : List Char) :
    opens (c :: cs) = opens cs + if c = '(' then 1 else 0 := by
  simp [opens, List.count_cons]

theorem closes_cons (c : Char) (cs : List Char) :
    closes (c :: cs) = closes cs + if c = ')' then 1 else 0 := by
  simp [closes, List.count_cons]

/-- The bound on prefixes needs no bound on their length: past the end they
are the whole text. -/
theorem Balanced.closes_take_le {cs : List Char} (h : Balanced cs) (k : Nat) :
    closes (cs.take k) ≤ opens (cs.take k) := by
  rcases Nat.le_total k cs.length with hk | hk
  · exact h.1 k hk
  · rw [List.take_of_length_le hk]
    exact Nat.le_of_eq h.2

theorem Balanced.append {a b : List Char} (ha : Balanced a) (hb : Balanced b) :
    Balanced (a ++ b) := by
  refine ⟨fun k _ => ?_, by simp [ha.2, hb.2]⟩
  rw [List.take_append, opens_append, closes_append]
  exact Nat.add_le_add (ha.closes_take_le k) (hb.closes_take_le _)

theorem CommasInside.append {a b : List Char} (hBalanced : Balanced a)
    (ha : CommasInside a) (hb : CommasInside b) : CommasInside (a ++ b) := by
  intro k hk hComma
  rcases Nat.lt_or_ge k a.length with hLt | hGe
  · rw [List.getElem?_append_left hLt] at hComma
    rw [List.take_append_of_le_length (Nat.le_of_lt hLt)]
    exact ha k hLt hComma
  · rw [List.getElem?_append_right hGe] at hComma
    rw [List.take_append, List.take_of_length_le hGe, opens_append,
      closes_append, hBalanced.2]
    have hLt : k - a.length < b.length := by
      rw [List.length_append] at hk
      omega
    have hInside := hb (k - a.length) hLt hComma
    omega

theorem IsSegment.append {a b : List Char} (ha : IsSegment a)
    (hb : IsSegment b) : IsSegment (a ++ b) :=
  ⟨ha.1.append hb.1, ha.2.append ha.1 hb.2⟩

/-- A text without parentheses opens and closes nothing. -/
theorem balanced_of_plain {cs : List Char} (hOpen : '(' ∉ cs)
    (hClose : ')' ∉ cs) : Balanced cs := by
  have hClosed : ∀ k, closes (cs.take k) = 0 := fun k =>
    List.count_eq_zero.2 fun h => hClose (List.mem_of_mem_take h)
  refine ⟨fun k _ => by rw [hClosed k]; exact Nat.zero_le _, ?_⟩
  have hWhole : closes cs = 0 := List.count_eq_zero.2 hClose
  have hNone : opens cs = 0 := List.count_eq_zero.2 hOpen
  rw [hWhole, hNone]

theorem isSegment_of_plain {cs : List Char} (hOpen : '(' ∉ cs)
    (hClose : ')' ∉ cs) (hComma : ',' ∉ cs) : IsSegment cs := by
  refine ⟨balanced_of_plain hOpen hClose, fun k _ hAt => ?_⟩
  exact absurd (List.mem_of_getElem? hAt) hComma

/-- Between parentheses a balanced text is a segment, whatever its commas. -/
theorem Balanced.parenthesized {cs : List Char} (h : Balanced cs) :
    IsSegment ('(' :: cs ++ [')']) := by
  have hTake : ∀ k, k ≤ cs.length →
      closes (('(' :: cs ++ [')']).take (k + 1)) <
        opens (('(' :: cs ++ [')']).take (k + 1)) := by
    intro k hk
    have hEq : ('(' :: cs ++ [')']).take (k + 1) = '(' :: cs.take k := by
      simp [List.take_append, hk]
    have hPrefix := h.closes_take_le k
    rw [hEq, opens_cons, closes_cons, if_pos rfl, if_neg (by decide)]
    omega
  have hWhole : closes ('(' :: cs ++ [')']) = opens ('(' :: cs ++ [')']) := by
    have hEq := h.2
    simp only [closes_append, opens_append, opens_cons, closes_cons]
    simp [hEq]
  refine ⟨⟨fun k hk => ?_, hWhole⟩, fun k hk hComma => ?_⟩
  · cases k with
    | zero => simp
    | succ k =>
        rcases Nat.lt_or_ge cs.length k with hLt | hGe
        · rw [List.take_of_length_le (by simp; omega)]
          exact Nat.le_of_eq hWhole
        · exact Nat.le_of_lt (hTake k hGe)
  · cases k with
    | zero => simp at hComma
    | succ k =>
        refine hTake k ?_
        have hLength : k + 1 < cs.length + 2 := by simpa using hk
        omega

/-- A comma list of balanced texts is balanced. -/
theorem balanced_joinWith {pieces : List (List Char)}
    (h : ∀ piece ∈ pieces, Balanced piece) :
    Balanced (Text.joinWith [','] pieces) := by
  induction pieces with
  | nil => exact balanced_of_plain List.not_mem_nil List.not_mem_nil
  | cons piece others ih =>
      cases others with
      | nil => exact h piece (by simp)
      | cons next others =>
          have hHead := h piece (by simp)
          have hTail := ih fun p hp => h p (List.mem_cons_of_mem _ hp)
          have hComma : Balanced [','] := by decide
          exact (hHead.append hComma).append hTail

/-! ## Splitting a comma list -/

/-- What a character that closes nothing it may not does to the depth. -/
theorem depth_step {depth : Nat} {c : Char} (h : ¬(c = ')' ∧ depth = 0)) :
    depth + (if c = '(' then 1 else 0) =
      (if c = '(' then depth + 1 else if c = ')' then depth - 1 else depth) +
        if c = ')' then 1 else 0 := by
  by_cases hOpen : c = '('
  · simp [hOpen]
  · by_cases hClose : c = ')'
    · have hPos : depth ≠ 0 := fun hZero => h ⟨hClose, hZero⟩
      simp [hClose]
      omega
    · simp [hOpen, hClose]

/-- The walk passes over a piece that closes nothing it did not open and has
no comma at the lowest depth, and goes on at the depth the piece leaves. -/
theorem splitAt?_append {depth : Nat} {piece rest next : List Char}
    {others : List (List Char)}
    (hClose : ∀ k, closes (piece.take k) ≤ depth + opens (piece.take k))
    (hComma : ∀ k, piece[k]? = some ',' →
      closes (piece.take k) < depth + opens (piece.take k))
    (hRest : splitAt? (depth + opens piece - closes piece) rest =
      some (next :: others)) :
    splitAt? depth (piece ++ rest) = some ((piece ++ next) :: others) := by
  induction piece generalizing depth with
  | nil => simpa using hRest
  | cons c piece ih =>
      have hFirst := hClose 1
      simp only [List.take_succ_cons, List.take_zero, opens_cons, closes_cons,
        opens_nil, closes_nil, Nat.zero_add] at hFirst
      have hNotComma : ¬(c = ',' ∧ depth = 0) := by
        rintro ⟨rfl, rfl⟩
        have hInside := hComma 0 rfl
        simp at hInside
      have hNotClose : ¬(c = ')' ∧ depth = 0) := by
        rintro ⟨rfl, rfl⟩
        simp at hFirst
      obtain ⟨inner, hInner, hShift⟩ : ∃ inner,
          (if c = '(' then depth + 1 else if c = ')' then depth - 1 else depth)
            = inner ∧
          depth + (if c = '(' then 1 else 0) =
            inner + if c = ')' then 1 else 0 :=
        ⟨_, rfl, depth_step hNotClose⟩
      have hTail : splitAt? inner (piece ++ rest) =
          some ((piece ++ next) :: others) := by
        refine ih (fun k => ?_) (fun k hAt => ?_) ?_
        · have hStep := hClose (k + 1)
          rw [List.take_succ_cons, opens_cons, closes_cons] at hStep
          omega
        · have hStep := hComma (k + 1) (by simpa using hAt)
          rw [List.take_succ_cons, opens_cons, closes_cons] at hStep
          omega
        · rw [opens_cons, closes_cons] at hRest
          rw [← hRest]
          congr 1
          omega
      rw [List.cons_append, splitAt?, if_neg hNotComma, if_neg hNotClose]
      simp only [hInner, hTail]
      rfl

theorem splitAt?_joinWith {pieces : List (List Char)} (hSome : pieces ≠ [])
    (h : ∀ piece ∈ pieces, IsSegment piece) :
    splitAt? 0 (Text.joinWith [','] pieces) = some pieces := by
  have hWalk : ∀ {piece rest next : List Char} {others : List (List Char)},
      IsSegment piece → splitAt? 0 rest = some (next :: others) →
      splitAt? 0 (piece ++ rest) = some ((piece ++ next) :: others) := by
    intro piece rest next others hPiece hRest
    refine splitAt?_append (fun k => ?_) (fun k hAt => ?_) ?_
    · rw [Nat.zero_add]
      exact hPiece.1.closes_take_le k
    · rw [Nat.zero_add]
      exact hPiece.2 k (List.getElem?_eq_some_iff.1 hAt).1 hAt
    · rw [Nat.zero_add, hPiece.1.2, Nat.sub_self]
      exact hRest
  induction pieces with
  | nil => exact absurd rfl hSome
  | cons piece others ih =>
      have hPiece := h piece (by simp)
      cases others with
      | nil =>
          have hEnd : splitAt? 0 (piece ++ []) = some [piece ++ []] :=
            hWalk hPiece rfl
          simpa [Text.joinWith] using hEnd
      | cons next others =>
          have hTail := ih (by simp) fun p hp => h p (List.mem_cons_of_mem _ hp)
          have hRest : splitAt? 0
              (',' :: Text.joinWith [','] (next :: others)) =
                some ([] :: next :: others) := by
            rw [splitAt?, if_pos ⟨rfl, rfl⟩, hTail]
            rfl
          have hAll := hWalk hPiece hRest
          simpa [Text.joinWith] using hAll

theorem splitTopLevel_joinWith {pieces : List (List Char)}
    (hSome : pieces ≠ []) (h : ∀ piece ∈ pieces, IsSegment piece) :
    splitTopLevel (Text.joinWith [','] pieces) = .ok pieces := by
  rw [splitTopLevel, splitAt?_joinWith hSome h]

/-! ## The depth a text leaves -/

/-- The depth after a text that starts at a depth. `none` means that a
parenthesis closes nothing or a comma separates. -/
def depthAfter? : Nat → List Char → Option Nat
  | depth, [] => some depth
  | depth, c :: rest =>
      if c = '(' then depthAfter? (depth + 1) rest
      else if depth = 0 ∧ (c = ')' ∨ c = ',') then none
      else depthAfter? (if c = ')' then depth - 1 else depth) rest

theorem depthAfter?_append (depth : Nat) (a b : List Char) :
    depthAfter? depth (a ++ b) =
      (depthAfter? depth a).bind fun middle => depthAfter? middle b := by
  induction a generalizing depth with
  | nil => rfl
  | cons c a ih =>
      rw [List.cons_append, depthAfter?, depthAfter?]
      split
      · exact ih _
      · split
        · rfl
        · exact ih _

/-- A text read one level deeper ends one level deeper. -/
theorem depthAfter?_succ {depth after : Nat} {cs : List Char}
    (h : depthAfter? depth cs = some after) :
    depthAfter? (depth + 1) cs = some (after + 1) := by
  induction cs generalizing depth with
  | nil =>
      rw [depthAfter?, Option.some.injEq] at h
      rw [depthAfter?, h]
  | cons c cs ih =>
      rw [depthAfter?] at h ⊢
      split at h
      · next hOpen =>
          rw [if_pos hOpen]
          exact ih h
      · next hOpen =>
          rw [if_neg hOpen, if_neg (by simp)]
          split at h
          · cases h
          · next hStays =>
              have hDepth : (if c = ')' then depth + 1 - 1 else depth + 1) =
                  (if c = ')' then depth - 1 else depth) + 1 := by
                split
                · next hClose =>
                    have hPos : depth ≠ 0 := fun h => hStays ⟨h, Or.inl hClose⟩
                    omega
                · rfl
              rw [hDepth]
              exact ih h

/-- Parentheses around a text leave the depth it leaves. -/
theorem depthAfter?_parenthesized {depth after : Nat} {cs : List Char}
    (h : depthAfter? depth cs = some after) :
    depthAfter? depth ('(' :: cs ++ [')']) = some after := by
  rw [List.cons_append, depthAfter?, if_pos rfl, depthAfter?_append,
    depthAfter?_succ h]
  rfl

/-- The pieces of a text close all they open, the first one together with what
was open before it. -/
theorem depthAfter?_of_splitAt? {depth : Nat} {cs piece : List Char}
    {others : List (List Char)}
    (h : splitAt? depth cs = some (piece :: others)) :
    depthAfter? depth piece = some 0 ∧
      ∀ other ∈ others, depthAfter? 0 other = some 0 := by
  induction cs generalizing depth piece others with
  | nil =>
      unfold splitAt? at h
      split at h
      · next hDepth =>
          cases h
          exact ⟨by rw [hDepth]; rfl, by simp⟩
      · cases h
  | cons c cs ih =>
      unfold splitAt? at h
      split at h
      · next hComma =>
          obtain ⟨pieces, hPieces, hEq⟩ := Option.map_eq_some_iff.1 h
          cases hEq
          refine ⟨by rw [hComma.2]; rfl, fun other hOther => ?_⟩
          cases others with
          | nil => exact absurd hPieces splitAt?_ne_nil
          | cons next others =>
              obtain ⟨hNext, hLater⟩ := ih hPieces
              rcases List.mem_cons.1 hOther with rfl | hMem
              · exact hNext
              · exact hLater other hMem
      · next hComma =>
          split at h
          · cases h
          · next hClose =>
              simp only at h
              split at h
              · next first later hRest =>
                  cases h
                  obtain ⟨hFirst, hLater⟩ := ih hRest
                  refine ⟨?_, hLater⟩
                  rw [depthAfter?]
                  split
                  · next hOpen =>
                      rw [if_pos hOpen] at hFirst
                      exact hFirst
                  · next hOpen =>
                      rw [if_neg hOpen] at hFirst
                      rw [if_neg, hFirst]
                      rintro ⟨hZero, hMark | hMark⟩
                      · exact hClose ⟨hMark, hZero⟩
                      · exact hComma ⟨hMark, hZero⟩
              · cases h

/-- A text that closes all it opens, and has no comma outside, is one piece. -/
theorem splitAt?_eq_self {depth : Nat} {cs : List Char}
    (h : depthAfter? depth cs = some 0) : splitAt? depth cs = some [cs] := by
  induction cs generalizing depth with
  | nil =>
      rw [depthAfter?, Option.some.injEq] at h
      rw [h]
      rfl
  | cons c cs ih =>
      rw [depthAfter?] at h
      split at h
      · next hOpen =>
          rw [splitAt?, if_neg (by simp [hOpen]), if_neg (by simp [hOpen])]
          simp only [if_pos hOpen, ih h]
      · next hOpen =>
          split at h
          · cases h
          · next hStays =>
              rw [splitAt?, if_neg fun hMark => hStays ⟨hMark.2, Or.inr hMark.1⟩,
                if_neg fun hMark => hStays ⟨hMark.2, Or.inl hMark.1⟩]
              simp only [if_neg hOpen, ih h]

theorem splitTopLevel_eq_self {cs : List Char}
    (h : depthAfter? 0 cs = some 0) : splitTopLevel cs = .ok [cs] := by
  rw [splitTopLevel, splitAt?_eq_self h]

theorem depthAfter?_of_splitTopLevel {cs : List Char}
    {pieces : List (List Char)} (h : splitTopLevel cs = .ok pieces) :
    ∀ piece ∈ pieces, depthAfter? 0 piece = some 0 := by
  unfold splitTopLevel at h
  split at h
  · next hSplit =>
      cases h
      cases pieces with
      | nil => exact absurd hSplit splitAt?_ne_nil
      | cons first others =>
          obtain ⟨hFirst, hOthers⟩ := depthAfter?_of_splitAt? hSplit
          exact List.forall_mem_cons.2 ⟨hFirst, hOthers⟩
  · cases h

/-- The walk to a depth closes nothing that is not open, passes no comma
outside, and counts what is left open. -/
theorem of_depthAfter?_eq_some {depth after : Nat} {cs : List Char}
    (h : depthAfter? depth cs = some after) :
    (∀ k, closes (cs.take k) ≤ depth + opens (cs.take k)) ∧
      (∀ k, cs[k]? = some ',' →
        closes (cs.take k) < depth + opens (cs.take k)) ∧
      depth + opens cs = after + closes cs := by
  induction cs generalizing depth with
  | nil =>
      cases h
      simp
  | cons c cs ih =>
      obtain ⟨inner, hInner, hShift, hComma⟩ : ∃ inner,
          depthAfter? inner cs = some after ∧
          depth + (if c = '(' then 1 else 0) =
            inner + (if c = ')' then 1 else 0) ∧
          (c = ',' → 0 < depth) := by
        rw [depthAfter?] at h
        split at h
        · next hOpen => exact ⟨_, h, by simp [hOpen], by simp [hOpen]⟩
        · next hOpen =>
            split at h
            · cases h
            · next hStays =>
                refine ⟨_, h, ?_, fun hMark => Nat.pos_of_ne_zero fun hZero =>
                  hStays ⟨hZero, .inr hMark⟩⟩
                by_cases hClose : c = ')'
                · have hPos : depth ≠ 0 := fun hZero =>
                    hStays ⟨hZero, .inl hClose⟩
                  simp [hClose]
                  omega
                · simp [hOpen, hClose]
      obtain ⟨hCloses, hCommas, hCount⟩ := ih hInner
      refine ⟨fun k => ?_, fun k hAt => ?_, ?_⟩
      · cases k with
        | zero => simp
        | succ k =>
            have hLater := hCloses k
            rw [List.take_succ_cons, opens_cons, closes_cons]
            omega
      · cases k with
        | zero =>
            have hMark : c = ',' := by simpa using hAt
            simpa using hComma hMark
        | succ k =>
            have hLater := hCommas k (by simpa using hAt)
            rw [List.take_succ_cons, opens_cons, closes_cons]
            omega
      · rw [opens_cons, closes_cons]
        omega

theorem isSegment_of_depthAfter? {cs : List Char}
    (h : depthAfter? 0 cs = some 0) : IsSegment cs := by
  obtain ⟨hCloses, hCommas, hCount⟩ := of_depthAfter?_eq_some h
  refine ⟨⟨fun k _ => ?_, by omega⟩, fun k _ hAt => ?_⟩
  · have hHere := hCloses k
    omega
  · have hHere := hCommas k hAt
    omega

/-- A text is split into the segments that it is the comma list of. -/
theorem splitTopLevel_eq_ok_iff {cs : List Char}
    {pieces : List (List Char)} :
    splitTopLevel cs = .ok pieces ↔ pieces ≠ [] ∧
      (∀ piece ∈ pieces, IsSegment piece) ∧
      Text.joinWith [','] pieces = cs := by
  constructor
  · intro h
    refine ⟨?_, fun piece hPiece => isSegment_of_depthAfter?
      (depthAfter?_of_splitTopLevel h piece hPiece), joinWith_splitTopLevel h⟩
    rintro rfl
    unfold splitTopLevel at h
    split at h
    · next hSplit =>
        rw [Except.ok.inj h] at hSplit
        exact splitAt?_ne_nil hSplit
    · cases h
  · rintro ⟨hSome, hSegments, rfl⟩
    exact splitTopLevel_joinWith hSome hSegments

/-- The walk goes through a text that closes exactly what is open. -/
theorem splitAt?_ne_none {depth : Nat} {cs : List Char}
    (hCloses : ∀ k, closes (cs.take k) ≤ depth + opens (cs.take k))
    (hCount : closes cs = depth + opens cs) : splitAt? depth cs ≠ none := by
  induction cs generalizing depth with
  | nil =>
      have hZero : depth = 0 := by simpa [eq_comm] using hCount
      simp [splitAt?, hZero]
  | cons c cs ih =>
      have hLater := fun k => hCloses (k + 1)
      simp only [List.take_succ_cons, opens_cons, closes_cons] at hLater
      rw [opens_cons, closes_cons] at hCount
      have hClose : ¬(c = ')' ∧ depth = 0) := by
        rintro ⟨rfl, rfl⟩
        simpa using hLater 0
      have hShift := depth_step hClose
      have hRest : splitAt? (if c = '(' then depth + 1
          else if c = ')' then depth - 1 else depth) cs ≠ none := by
        refine ih (fun k => ?_) ?_
        · have hHere := hLater k
          omega
        · omega
      rw [splitAt?, if_neg hClose]
      split
      · next hComma =>
          obtain ⟨rfl, rfl⟩ := hComma
          simpa using hRest
      · simp only
        cases hSplit : splitAt? (if c = '(' then depth + 1
            else if c = ')' then depth - 1 else depth) cs with
        | none => exact absurd hSplit hRest
        | some pieces =>
            cases pieces with
            | nil => exact absurd hSplit splitAt?_ne_nil
            | cons piece others => simp

/-- Exactly the balanced texts are split. -/
theorem exists_splitTopLevel_iff {cs : List Char} :
    (∃ pieces, splitTopLevel cs = .ok pieces) ↔ Balanced cs := by
  constructor
  · rintro ⟨pieces, h⟩
    obtain ⟨-, hSegments, rfl⟩ := splitTopLevel_eq_ok_iff.1 h
    exact balanced_joinWith fun piece hPiece => (hSegments piece hPiece).1
  · intro h
    unfold splitTopLevel
    split
    · exact ⟨_, rfl⟩
    · next hNone =>
        refine absurd hNone (splitAt?_ne_none (fun k => ?_) ?_)
        · have hHere := h.closes_take_le k
          omega
        · have hAll := h.2
          omega

/-! ## The list of segments of a text -/

/-- A text is the comma list of segments. -/
structure Decomposes (cs : List Char) (pieces : List (List Char)) : Prop where
  nonempty : pieces ≠ []
  segments : ∀ piece ∈ pieces, IsSegment piece
  joined : Text.joinWith [','] pieces = cs

theorem splitTopLevel_iff_decomposes {cs : List Char}
    {pieces : List (List Char)} :
    splitTopLevel cs = .ok pieces ↔ Decomposes cs pieces := by
  rw [splitTopLevel_eq_ok_iff]
  constructor
  · rintro ⟨hSome, hSegments, hJoined⟩
    exact ⟨hSome, hSegments, hJoined⟩
  · rintro ⟨hSome, hSegments, hJoined⟩
    exact ⟨hSome, hSegments, hJoined⟩

/-- What is not balanced is refused with its text, and nothing else is. -/
theorem splitTopLevel_eq_error_iff {cs : List Char} {e : Error} :
    splitTopLevel cs = .error e ↔
      e = .invalid (.unbalanced (.ofList cs)) ∧ ¬Balanced cs := by
  rw [← exists_splitTopLevel_iff]
  unfold splitTopLevel
  split
  · simp
  · simp [refuse, eq_comm]

/-- Splitting at the top level finds the one list of segments that a text is
the comma list of. A text that is not balanced has none and is refused, any
other has one, and every list of segments is found from its comma list. -/
theorem segments_unique (cs : List Char) :
    (∀ e, splitTopLevel cs = .error e ↔
      e = .invalid (.unbalanced (.ofList cs)) ∧ ¬Balanced cs) ∧
    (∀ pieces, splitTopLevel cs = .ok pieces ↔ Decomposes cs pieces) ∧
    (Balanced cs → ∃! pieces, Decomposes cs pieces) ∧
    ∀ pieces, pieces ≠ [] → (∀ piece ∈ pieces, IsSegment piece) →
      splitTopLevel (Text.joinWith [','] pieces) = .ok pieces := by
  refine ⟨fun e => splitTopLevel_eq_error_iff,
    fun pieces => splitTopLevel_iff_decomposes, fun h => ?_,
    fun pieces => splitTopLevel_joinWith⟩
  obtain ⟨pieces, hPieces⟩ := exists_splitTopLevel_iff.2 h
  refine ⟨pieces, splitTopLevel_iff_decomposes.1 hPieces,
    fun others hOthers => ?_⟩
  have hSame := splitTopLevel_iff_decomposes.2 hOthers
  rw [hPieces] at hSame
  exact (Except.ok.inj hSame).symm

/-! ## Texts of the same depth -/

/-- A parenthesis or a comma. -/
def isMark (c : Char) : Bool := c == '(' || c == ')' || c == ','

theorem isMark_eq_false_of_any {cs : List Char} (h : cs.any isMark = false) :
    ∀ c ∈ cs, isMark c = false :=
  fun c hc => Bool.eq_false_iff.2 (List.any_eq_false.1 h c hc)

/-- Two texts that leave the same depth wherever they start. -/
def SameDepth (a b : List Char) : Prop :=
  ∀ depth, depthAfter? depth a = depthAfter? depth b

namespace SameDepth

theorem refl (a : List Char) : SameDepth a a := fun _ => rfl

theorem symm {a b : List Char} (h : SameDepth a b) : SameDepth b a :=
  fun depth => (h depth).symm

theorem trans {a b c : List Char} (h : SameDepth a b) (hNext : SameDepth b c) :
    SameDepth a c := fun depth => (h depth).trans (hNext depth)

theorem append {a b c d : List Char} (h : SameDepth a b)
    (hNext : SameDepth c d) : SameDepth (a ++ c) (b ++ d) := by
  intro depth
  rw [depthAfter?_append, depthAfter?_append, h depth]
  exact congrArg _ (funext hNext)

/-- What is no mark leaves every depth as it is. -/
theorem of_plain {cs : List Char} (h : ∀ c ∈ cs, isMark c = false) :
    SameDepth cs [] := by
  intro depth
  induction cs with
  | nil => rfl
  | cons c cs ih =>
      have hc := h c (by simp)
      simp only [isMark, Bool.or_eq_false_iff, beq_eq_false_iff_ne] at hc
      obtain ⟨⟨hOpen, hClose⟩, hComma⟩ := hc
      have hStep : depthAfter? depth (c :: cs) = depthAfter? depth cs := by
        rw [depthAfter?, if_neg hOpen, if_neg (by simp [hClose, hComma]),
          if_neg hClose]
      rw [hStep]
      exact ih fun d hd => h d (List.mem_cons_of_mem _ hd)

/-- Lists of pieces that agree one by one agree with commas between them. -/
theorem joinWith {pieces : List (List Char)} {change : List Char → List Char}
    (h : ∀ piece ∈ pieces, SameDepth piece (change piece)) :
    SameDepth (Text.joinWith [','] pieces)
      (Text.joinWith [','] (pieces.map change)) := by
  induction pieces with
  | nil => exact .refl []
  | cons piece others ih =>
      have hPiece := h piece (by simp)
      cases others with
      | nil => exact hPiece
      | cons next others =>
          have hRest := ih fun p hp => h p (List.mem_cons_of_mem _ hp)
          exact (hPiece.append (.refl [','])).append hRest

end SameDepth

end TableGate.Group
