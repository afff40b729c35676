import TableGate.Path
import TableGate.Proofs.Sql.Characters
import TableGate.Proofs.Text

/-!
# Names as columns

The characters of a name are visible and none of them begins an arrow. So
nothing is trimmed from a name, it is a column without steps, and it reaches a
statement as it is written.

## Main results

* `ofColumn_text`: a name is the path of the column of that name.
-/

namespace TableGate.Identifier

/-- The characters of a name are visible. -/
theorem isBlank_of_isNamePart {c : Char} (h : isNamePart c = true) :
    Text.isBlank c = false := by
  have hVisible : 0x21 ≤ c.toNat ∧ c.toNat ≤ 0x7e := by
    delta isNamePart Char.isAlphanum Char.isAlpha Char.isUpper Char.isLower
      Char.isDigit at h
    simp only [Bool.or_eq_true, Bool.and_eq_true, decide_eq_true_eq,
      beq_iff_eq, ge_iff_le, UInt32.le_iff_toNat_le] at h
    rcases h with ((hUpper | hLower) | hDigit) | rfl
    · exact ⟨Nat.le_trans (by decide) hUpper.1,
        Nat.le_trans hUpper.2 (by decide)⟩
    · exact ⟨Nat.le_trans (by decide) hLower.1,
        Nat.le_trans hLower.2 (by decide)⟩
    · exact ⟨Nat.le_trans (by decide) hDigit.1,
        Nat.le_trans hDigit.2 (by decide)⟩
    · exact ⟨by decide, by decide⟩
  exact Text.isBlank_of_visible hVisible.1 hVisible.2

variable (name : Identifier)

theorem isBlank_of_mem {c : Char} (h : c ∈ name.text.toList) :
    Text.isBlank c = false :=
  isBlank_of_isNamePart (isNamePart_of_mem_isName name.isName c h)

/-- A name has the characters of names only. -/
theorem notMem_text {c : Char} (h : isNamePart c = false) :
    c ∉ name.text.toList := by
  intro hMem
  rw [isNamePart_of_mem_isName name.isName c hMem] at h
  exact absurd h (by decide)

theorem eq_of_text {a b : Identifier} (h : a.text = b.text) : a = b := by
  cases a
  cases b
  simpa using h

theorem toList_ne_nil : name.text.toList ≠ [] := by
  intro hEmpty
  have hName := name.isName
  rw [hEmpty] at hName
  exact absurd hName (by decide)

theorem text_ne_empty : name.text ≠ "" := by
  intro hEmpty
  exact name.toList_ne_nil (by rw [hEmpty]; rfl)

theorem text_ne_star : name.text ≠ "*" := by
  intro hStar
  have hName := name.isName
  rw [hStar] at hName
  exact absurd hName (by decide)

theorem trimChars_text :
    Text.trimChars name.text.toList = name.text.toList :=
  Text.trimChars_eq_self
    (fun _ hc => name.isBlank_of_mem (List.mem_of_mem_head? hc))
    fun _ hc => name.isBlank_of_mem (List.mem_of_mem_getLast? hc)

theorem isAllBlank_text : Text.isAllBlank name.text = false := by
  obtain ⟨c, rest, hText⟩ := List.exists_cons_of_ne_nil name.toList_ne_nil
  have hFirst := name.isBlank_of_mem (c := c) (by simp [hText])
  simp [Text.isAllBlank, hText, hFirst]

theorem ofString?_text : ofString? name.text = some name :=
  dif_pos name.isName

/-- A text without hyphens is not cut. -/
theorem cutArrows_eq {cs : List Char} (h : '-' ∉ cs) :
    ColumnPath.cutArrows cs = (cs, []) := by
  induction cs with
  | nil => rfl
  | cons c rest ih =>
      have hHere : c ≠ '-' := fun hc => h (hc ▸ List.mem_cons_self)
      have hRest := ih fun hc => h (List.mem_cons_of_mem c hc)
      rw [ColumnPath.cutArrows, hRest]
      · rintro later rfl
        exact absurd rfl hHere
      · rintro later rfl
        exact absurd rfl hHere

/-- A name is the path of the column of that name. -/
theorem ofColumn_text :
    ColumnPath.ofColumn name.text = .ok ⟨name.text, []⟩ := by
  have hPlain : '-' ∉ name.text.toList := fun hc =>
    ne_of_isNamePart (isNamePart_of_mem_isName name.isName _ hc) (by decide) rfl
  rw [ColumnPath.ofColumn, name.trimChars_text, cutArrows_eq hPlain]
  show Except.ok (ColumnPath.mk (.ofList (Text.trimChars name.text.toList)) [])
    = _
  rw [name.trimChars_text, String.ofList_toList]

theorem identifier_text : Sql.identifier name.text = .ok name := by
  rw [Sql.identifier, name.ofString?_text]

theorem column_text : Sql.column name.text = .ok (.column name) := by
  rw [Sql.column, name.identifier_text]
  rfl

theorem pathFragment_text :
    Sql.pathFragment ⟨name.text, []⟩ = .ok [.column name] := by
  rw [Sql.pathFragment, name.column_text]
  rfl

end TableGate.Identifier
