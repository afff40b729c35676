/-!
# Cutting texts at a separator

`splitOn` cuts at every occurrence of a separator, so `n` separators give
`n + 1` pieces and joining the pieces gives the text back. `cut?` cuts at the
first one only.

## Main results

* `joinWith_splitOn`: the pieces with the separator between them are the text.
* `splitOn_joinWith`: pieces without the separator are cut apart again.
* `cut?_eq_some_iff`: what cutting once says about a text.
-/

namespace TableGate.Text

/-- The pieces between the separators, one more than there are separators. -/
def splitOn (sep : Char) : List Char → List (List Char)
  | [] => [[]]
  | c :: rest =>
      if c = sep then [] :: splitOn sep rest
      else
        match splitOn sep rest with
        | [] => [[c]]
        | piece :: pieces => (c :: piece) :: pieces

/-- The text before and the text after the first separator. -/
def cut? (sep : Char) : List Char → Option (List Char × List Char)
  | [] => none
  | c :: rest =>
      if c = sep then some ([], rest)
      else (cut? sep rest).map fun cut => (c :: cut.1, cut.2)

/-- Pieces with a separator between neighbours. -/
def joinWith (sep : List Char) : List (List Char) → List Char
  | [] => []
  | [piece] => piece
  | piece :: pieces => piece ++ sep ++ joinWith sep pieces

/-- Whether a text starts with another. -/
def startsWith (cs start : List Char) : Bool := start.isPrefixOf cs

/-! ## Splitting and joining -/

theorem splitOn_ne_nil (sep : Char) (cs : List Char) : splitOn sep cs ≠ [] := by
  cases cs with
  | nil => simp [splitOn]
  | cons c rest =>
      unfold splitOn
      split
      · simp
      · split <;> simp

theorem joinWith_splitOn (sep : Char) (cs : List Char) :
    joinWith [sep] (splitOn sep cs) = cs := by
  induction cs with
  | nil => rfl
  | cons c rest ih =>
      unfold splitOn
      split
      · next hc =>
          subst hc
          cases hRest : splitOn c rest with
          | nil => exact absurd hRest (splitOn_ne_nil c rest)
          | cons piece pieces => simp [joinWith, ← hRest, ih]
      · cases hRest : splitOn sep rest with
        | nil => exact absurd hRest (splitOn_ne_nil sep rest)
        | cons piece pieces =>
            rw [hRest] at ih
            cases pieces with
            | nil => simpa [joinWith] using ih
            | cons next others => simpa [joinWith] using ih

/-- A text up to the first separator is the first piece. -/
theorem splitOn_append_cons {sep : Char} {piece : List Char} (h : sep ∉ piece)
    (rest : List Char) :
    splitOn sep (piece ++ sep :: rest) = piece :: splitOn sep rest := by
  induction piece with
  | nil => simp [splitOn]
  | cons c piece ih =>
      obtain ⟨hc, hPiece⟩ : sep ≠ c ∧ sep ∉ piece := by simpa using h
      rw [List.cons_append, splitOn, if_neg (Ne.symm hc), ih hPiece]

/-- Both sides of a separator are cut on their own. -/
theorem splitOn_append (sep : Char) (before after : List Char) :
    splitOn sep (before ++ sep :: after) =
      splitOn sep before ++ splitOn sep after := by
  induction before with
  | nil => simp [splitOn]
  | cons c rest ih =>
      rw [List.cons_append, splitOn, splitOn]
      split
      · rw [ih, List.cons_append]
      · rw [ih]
        cases hRest : splitOn sep rest with
        | nil => exact absurd hRest (splitOn_ne_nil sep rest)
        | cons piece pieces => rfl

/-- No piece has the separator. -/
theorem notMem_of_mem_splitOn {sep : Char} {cs piece : List Char}
    (h : piece ∈ splitOn sep cs) : sep ∉ piece := by
  induction cs generalizing piece with
  | nil =>
      rw [splitOn, List.mem_singleton] at h
      rw [h]
      exact List.not_mem_nil
  | cons c rest ih =>
      unfold splitOn at h
      split at h
      · rcases List.mem_cons.1 h with rfl | hLater
        · exact List.not_mem_nil
        · exact ih hLater
      · next hc =>
          cases hRest : splitOn sep rest with
          | nil => exact absurd hRest (splitOn_ne_nil sep rest)
          | cons first others =>
              rw [hRest] at h ih
              rcases List.mem_cons.1 h with rfl | hLater
              · simp [Ne.symm hc, ih (List.mem_cons_self)]
              · exact ih (List.mem_cons_of_mem _ hLater)

theorem splitOn_of_not_mem {sep : Char} {piece : List Char} (h : sep ∉ piece) :
    splitOn sep piece = [piece] := by
  induction piece with
  | nil => rfl
  | cons c piece ih =>
      obtain ⟨hc, hPiece⟩ : sep ≠ c ∧ sep ∉ piece := by simpa using h
      rw [splitOn, if_neg (Ne.symm hc), ih hPiece]

theorem splitOn_joinWith {sep : Char} {pieces : List (List Char)}
    (hSome : pieces ≠ []) (h : ∀ piece ∈ pieces, sep ∉ piece) :
    splitOn sep (joinWith [sep] pieces) = pieces := by
  induction pieces with
  | nil => exact absurd rfl hSome
  | cons piece pieces ih =>
      have hFirst : sep ∉ piece := h piece (by simp)
      cases pieces with
      | nil => exact splitOn_of_not_mem hFirst
      | cons next others =>
          have hRest := ih (by simp) fun p hp => h p (List.mem_cons_of_mem _ hp)
          rw [joinWith, List.append_assoc, List.singleton_append,
            splitOn_append_cons hFirst, hRest]
          exact List.cons_ne_nil _ _

theorem cut?_eq_some_iff {sep : Char} {cs before after : List Char} :
    cut? sep cs = some (before, after) ↔
      cs = before ++ sep :: after ∧ sep ∉ before := by
  induction cs generalizing before with
  | nil => simp [cut?]
  | cons c rest ih =>
      by_cases hc : c = sep
      · subst hc
        cases before with
        | nil => simp [cut?, eq_comm]
        | cons d ds => simp [cut?]; intro h _; simp [h]
      · cases before with
        | nil =>
            simp only [cut?, hc, if_false, Option.map_eq_some_iff]
            simp [hc]
        | cons d ds =>
            simp only [cut?, hc, if_false, Option.map_eq_some_iff]
            constructor
            · rintro ⟨⟨b, a⟩, hCut, hEq⟩
              simp only [Prod.mk.injEq, List.cons.injEq] at hEq
              obtain ⟨⟨rfl, rfl⟩, rfl⟩ := hEq
              have hParts := ih.1 hCut
              refine ⟨by simp [hParts.1], ?_⟩
              simp [hParts.2, Ne.symm hc]
            · rintro ⟨hEq, hNot⟩
              simp only [List.cons_append, List.cons.injEq] at hEq
              refine ⟨(ds, after), ih.2 ⟨hEq.2, ?_⟩, by simp [hEq.1]⟩
              exact fun h => hNot (List.mem_cons_of_mem _ h)

theorem cut?_eq_none {sep : Char} {cs : List Char} (h : sep ∉ cs) :
    cut? sep cs = none := by
  cases hCut : cut? sep cs with
  | none => rfl
  | some cut => exact absurd (by simp [(cut?_eq_some_iff.1 hCut).1]) h

end TableGate.Text
