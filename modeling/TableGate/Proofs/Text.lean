import Mathlib.Data.List.TakeWhile
import TableGate.Text.Blank
import TableGate.Text.Case

/-!
# Trimming and small letters inside longer texts

The readers of this library trim a text and look at its small form before they
decide what it is. This module says what both do to a text that is put
together from parts.

`Text.lowerChars` may change the length of a text and looks at the neighbours
of a sigma, so it is not a map over the characters. Keywords and punctuation
are untouched by both effects: an ASCII character becomes its own small form
wherever it stands, and a character below the letters, such as a parenthesis
or a dot, appears in a small form only where it stood in the text.

## Main results

* `trimChars_around`, `trimChars_between`: trimming drops the blanks around a
  text, and nothing else if its own ends are not blank.
* `lowerChars_append_ascii`: an ASCII start is made small character by
  character.
* `exists_start_of_lowerAfter`: a word at the start of a small form stood there
  before, in capital or small letters.
* `lowerChars_eq_iff`: a text of blanks and words is the small form of what
  differs from it in capital letters, and of nothing else.
* `lowerChars_append`: the small form of the start of a text has no
  punctuation that the start did not have.
-/

namespace TableGate.Text

/-! ## Trimming -/

/-- The visible characters of ASCII are no blanks. -/
theorem isBlank_of_visible {c : Char} (hFirst : 0x21 ≤ c.toNat)
    (hFinal : c.toNat ≤ 0x7e) : isBlank c = false := by
  rw [isBlank, Bool.eq_false_iff]
  intro hRange
  obtain ⟨range, hMem, hLow, hHigh⟩ := inRanges_iff.1 hRange
  simp only [blankRanges, List.mem_cons, List.not_mem_nil, or_false] at hMem
  rcases hMem with rfl | rfl | rfl | rfl | rfl | rfl | rfl | rfl | rfl | rfl
  all_goals
    simp only at hLow hHigh
    omega

/-- Blanks around a text are dropped, whatever its own ends are. -/
theorem trimChars_around {before after : List Char}
    (hBefore : ∀ c ∈ before, isBlank c = true)
    (hAfter : ∀ c ∈ after, isBlank c = true) (cs : List Char) :
    trimChars (before ++ cs ++ after) = trimChars cs := by
  have hReverse : ∀ c ∈ after.reverse, isBlank c = true := by
    intro c hc
    exact hAfter c (List.mem_reverse.1 hc)
  rw [trimChars, trimChars, stripChars, stripChars, List.append_assoc,
    List.dropWhile_append_of_pos hBefore, List.dropWhile_append]
  split
  · next hNone =>
      -- A text of nothing but blanks: the ones after it go with the rest.
      rw [List.isEmpty_iff.1 hNone, List.dropWhile_eq_nil_iff.2 hAfter]
  · rw [List.reverse_append, List.dropWhile_append_of_pos hReverse]

theorem trimChars_between {before core after : List Char}
    (hBefore : ∀ c ∈ before, isBlank c = true)
    (hAfter : ∀ c ∈ after, isBlank c = true)
    (hHead : ∀ c ∈ core.head?, isBlank c = false)
    (hLast : ∀ c ∈ core.getLast?, isBlank c = false) :
    trimChars (before ++ core ++ after) = core := by
  rw [trimChars_around hBefore hAfter, trimChars_eq_self hHead hLast]

/-- Stripping drops characters of the class at both ends and nothing else. -/
theorem exists_eq_stripChars (p : Char → Bool) (cs : List Char) :
    ∃ before after, cs = before ++ stripChars p cs ++ after ∧
      (∀ c ∈ before, p c = true) ∧ ∀ c ∈ after, p c = true := by
  refine ⟨cs.takeWhile p, ((cs.dropWhile p).reverse.takeWhile p).reverse, ?_,
    fun c hc => List.mem_takeWhile_imp hc,
    fun c hc => List.mem_takeWhile_imp (List.mem_reverse.1 hc)⟩
  have hEnd : stripChars p cs ++
      ((cs.dropWhile p).reverse.takeWhile p).reverse = cs.dropWhile p := by
    rw [stripChars, ← List.reverse_append, List.takeWhile_append_dropWhile,
      List.reverse_reverse]
  rw [List.append_assoc, hEnd, List.takeWhile_append_dropWhile]

theorem exists_eq_trimChars (cs : List Char) :
    ∃ before after, cs = before ++ trimChars cs ++ after ∧
      (∀ c ∈ before, isBlank c = true) ∧ ∀ c ∈ after, isBlank c = true :=
  exists_eq_stripChars isBlank cs

theorem length_stripChars_le (p : Char → Bool) (cs : List Char) :
    (stripChars p cs).length ≤ cs.length := by
  obtain ⟨before, after, hText, -, -⟩ := exists_eq_stripChars p cs
  have hLength := congrArg List.length hText
  rw [List.length_append, List.length_append] at hLength
  omega

/-- A text that keeps its length under stripping loses nothing. -/
theorem stripChars_eq_self_of_length {p : Char → Bool} {cs : List Char}
    (h : cs.length ≤ (stripChars p cs).length) : stripChars p cs = cs := by
  obtain ⟨before, after, hText, -, -⟩ := exists_eq_stripChars p cs
  have hLength := congrArg List.length hText
  rw [List.length_append, List.length_append] at hLength
  have hBefore : before = [] := List.length_eq_zero_iff.1 (by omega)
  have hAfter : after = [] := List.length_eq_zero_iff.1 (by omega)
  rw [hBefore, hAfter, List.nil_append, List.append_nil] at hText
  exact hText.symm

theorem mem_of_mem_stripChars {p : Char → Bool} {cs : List Char} {c : Char}
    (h : c ∈ stripChars p cs) : c ∈ cs := by
  obtain ⟨before, after, hText, -, -⟩ := exists_eq_stripChars p cs
  rw [hText]
  exact List.mem_append_left _ (List.mem_append_right _ h)

theorem mem_of_mem_trimChars {cs : List Char} {c : Char}
    (h : c ∈ trimChars cs) : c ∈ cs := mem_of_mem_stripChars h

theorem trim_ofList_trimChars (cs : List Char) :
    trim (.ofList (trimChars cs)) = .ofList (trimChars cs) := by
  rw [trim, String.toList_ofList, trimChars_trimChars]

/-- A text with a visible character has one after trimming. -/
theorem trimChars_ne_nil {s : String} (h : isAllBlank s = false) :
    trimChars s.toList ≠ [] := by
  obtain ⟨before, after, hText, hBefore, hAfter⟩ :=
    exists_eq_trimChars s.toList
  intro hEmpty
  rw [hEmpty, List.append_nil] at hText
  rw [isAllBlank, hText, List.all_append] at h
  simp only [Bool.and_eq_false_iff, List.all_eq_false] at h
  rcases h with ⟨c, hc, hNot⟩ | ⟨c, hc, hNot⟩
  · exact hNot (hBefore c hc)
  · exact hNot (hAfter c hc)

theorem isAllBlank_trim {s : String} (h : isAllBlank s = false) :
    isAllBlank (trim s) = false := by
  obtain ⟨c, rest, hText⟩ := List.exists_cons_of_ne_nil (trimChars_ne_nil h)
  have hHead : ∀ d ∈ (trimChars s.toList).head?, isBlank d = false :=
    head?_stripChars
  have hFirst := hHead c (by rw [hText]; rfl)
  simp [isAllBlank, trim, hText, hFirst]

/-! ## Small letters -/

/-- What becomes small in ASCII was there before. -/
theorem ascii_of_toLower {c : Char} (h : c.toLower.toNat < 128) :
    c.toNat < 128 := by
  unfold Char.toLower at h
  split at h
  · next hUpper =>
      have hTop : c.val.toNat ≤ 90 := UInt32.le_iff_toNat_le.1 hUpper.2
      show c.val.toNat < 128
      omega
  · exact h

/-- What becomes a small letter was a letter before. -/
theorem isAlpha_of_toLower {c : Char} (h : c.toLower.isLower = true) :
    c.isAlpha = true := by
  unfold Char.toLower at h
  split at h
  · next hUpper =>
      have hCapital : c.isUpper = true := decide_eq_true hUpper
      exact (Bool.or_eq_true _ _).mpr (.inl hCapital)
  · exact (Bool.or_eq_true _ _).mpr (.inr h)

/-- An ASCII character is made small on its own, whatever surrounds it. -/
theorem lowerAfter_cons_ascii {c : Char} (h : c.toNat < 128)
    (afterCased : Bool) (rest : List Char) :
    lowerAfter afterCased (c :: rest) =
      c.toLower ::
        lowerAfter (if isCaseIgnorable c then afterCased else isCased c)
          rest := by
  have hSigma : c ≠ 'Σ' := by
    rintro rfl
    exact absurd h (by decide)
  rw [lowerAfter, if_neg hSigma, lowerChar, if_pos h]
  rfl

/-- An ASCII start is made small character by character; what follows it is
made small with the knowledge of what stood before. -/
theorem lowerAfter_append_ascii {start : List Char}
    (h : ∀ c ∈ start, c.toNat < 128) (afterCased : Bool) (rest : List Char) :
    ∃ after, lowerAfter afterCased (start ++ rest) =
      start.map Char.toLower ++ lowerAfter after rest := by
  induction start generalizing afterCased with
  | nil => exact ⟨afterCased, rfl⟩
  | cons c start ih =>
      obtain ⟨after, hAfter⟩ := ih (fun d hd => h d (List.mem_cons_of_mem _ hd))
        (if isCaseIgnorable c then afterCased else isCased c)
      refine ⟨after, ?_⟩
      rw [List.cons_append, lowerAfter_cons_ascii (h c (by simp)), hAfter]
      rfl

/-- The shortcut for ASCII texts agrees with the walk. -/
theorem lowerChars_eq_lowerAfter (cs : List Char) :
    lowerChars cs = lowerAfter false cs := by
  unfold lowerChars
  split
  · next hAscii =>
      have hChars : ∀ c ∈ cs, c.toNat < 128 := by simpa using hAscii
      obtain ⟨after, hAfter⟩ := lowerAfter_append_ascii hChars false []
      rw [List.append_nil] at hAfter
      rw [hAfter, lowerAfter, List.append_nil]
  · rfl

theorem lowerChars_append_ascii {start : List Char}
    (h : ∀ c ∈ start, c.toNat < 128) (rest : List Char) :
    ∃ small, lowerChars (start ++ rest) = start.map Char.toLower ++ small := by
  obtain ⟨after, hAfter⟩ := lowerAfter_append_ascii h false rest
  exact ⟨_, (lowerChars_eq_lowerAfter _).trans hAfter⟩

/-- Of the runs outside ASCII only that of the Kelvin sign leads into it. -/
private theorem lowerRuns_wide :
    ∀ run ∈ lowerRuns, run.last < 128 ∨ 128 ≤ (run.first : Int) + run.shift ∨
      run.first = run.last ∧ (run.first : Int) + run.shift = 'k'.toNat := by
  decide +kernel

/-- Where a run moves a character. The zero stands for a code point that is no
character. -/
private theorem toNat_shiftChar_eq (c : Char) :
    (shiftChar lowerRuns c).toNat = 0 ∨ (shiftChar lowerRuns c).toNat =
      ((c.toNat : Int) + shiftBy lowerRuns c.toNat).toNat := by
  have hShift : shiftChar lowerRuns c =
      if h : ((c.toNat : Int) + shiftBy lowerRuns c.toNat).toNat.isValidChar
      then Char.ofNatAux _ h else '\x00' := rfl
  by_cases hValid :
      ((c.toNat : Int) + shiftBy lowerRuns c.toNat).toNat.isValidChar
  · right
    rw [hShift, dif_pos hValid]
    rfl
  · left
    rw [hShift, dif_neg hValid]
    decide

/-- A character outside ASCII becomes none of ASCII but the small k. -/
private theorem toNat_shiftChar_wide {c : Char} (h : ¬c.toNat < 128)
    (hSmall : (shiftChar lowerRuns c).toNat < 128) :
    (shiftChar lowerRuns c).toNat = 0 ∨ shiftChar lowerRuns c = 'k' := by
  rcases toNat_shiftChar_eq c with hZero | hMoved
  · exact Or.inl hZero
  · right
    refine Char.toNat_inj.1 ?_
    rw [hMoved] at hSmall ⊢
    unfold shiftBy at hSmall ⊢
    split at hSmall
    · next run hFind =>
        have hInside := List.find?_some hFind
        simp only [Bool.and_eq_true, decide_eq_true_eq] at hInside
        rcases lowerRuns_wide run (List.mem_of_find?_eq_some hFind) with
          hLow | hHigh | ⟨hOne, hKelvin⟩
        · omega
        · omega
        · omega
    · omega

/-- An ASCII character of a text has its small form in that of the text. -/
theorem toLower_mem_lowerChars {c : Char} {cs : List Char}
    (hAscii : c.toNat < 128) (h : c ∈ cs) : c.toLower ∈ lowerChars cs := by
  rw [lowerChars_eq_lowerAfter]
  generalize false = afterCased
  induction cs generalizing afterCased with
  | nil => exact absurd h List.not_mem_nil
  | cons d cs ih =>
      rcases List.mem_cons.1 h with rfl | hLater
      · rw [lowerAfter_cons_ascii hAscii]
        exact List.mem_cons_self
      · rw [lowerAfter]
        exact List.mem_append_right _ (ih hLater _)

/-- A word of ASCII at the start of a small form was there before, in capital
or small letters: nothing outside ASCII becomes a part of it, unless it has an
i or a k. -/
theorem exists_start_of_lowerAfter {word : List Char}
    (hWord : ∀ x ∈ word,
      0 < x.toNat ∧ x.toNat < 128 ∧ x ≠ 'i' ∧ x ≠ 'k')
    {afterCased : Bool} {cs : List Char}
    (h : word <+: lowerAfter afterCased cs) :
    ∃ start rest, cs = start ++ rest ∧ start.map Char.toLower = word := by
  induction word generalizing afterCased cs with
  | nil => exact ⟨[], cs, rfl, rfl⟩
  | cons x word ih =>
      obtain ⟨hPos, hAscii, hI, hK⟩ := hWord x (by simp)
      cases cs with
      | nil => exact absurd (List.prefix_nil.1 h) (by simp)
      | cons c cs =>
          by_cases hc : c.toNat < 128
          · rw [lowerAfter_cons_ascii hc, List.cons_prefix_cons] at h
            obtain ⟨start, rest, rfl, hStart⟩ :=
              ih (fun y hy => hWord y (List.mem_cons_of_mem _ hy)) h.2
            exact ⟨c :: start, rest, rfl, by rw [List.map_cons, hStart, h.1]⟩
          · exfalso
            rw [lowerAfter] at h
            split at h
            · have hHead := (List.cons_prefix_cons.1 h).1
              rw [hHead] at hAscii
              split at hAscii
              · exact absurd hAscii (by decide)
              · exact absurd hAscii (by decide)
            · rw [lowerChar, if_neg hc] at h
              split at h
              · exact hI (List.cons_prefix_cons.1 h).1
              · have hHead := (List.cons_prefix_cons.1 h).1
                rw [hHead] at hPos hAscii hK
                rcases toNat_shiftChar_wide hc hAscii with hZero | hKelvin
                · omega
                · exact hK hKelvin

/-! ## Blanks among small letters -/

/-- No run of the table starts from a blank or leads to one. -/
private theorem lowerRuns_blank :
    ∀ run ∈ lowerRuns, ∀ range ∈ blankRanges,
      (run.last < range.1 ∨ range.2 < run.first) ∧
        ((run.last : Int) + run.shift < range.1 ∨
          (range.2 : Int) < run.first + run.shift) := by
  decide +kernel

private theorem shiftBy_eq_zero {n : Nat} {range : Nat × Nat}
    (hRange : range ∈ blankRanges)
    (h : range.1 ≤ n ∧ n ≤ range.2 ∨
      (range.1 : Int) ≤ n + shiftBy lowerRuns n ∧
        n + shiftBy lowerRuns n ≤ range.2) : shiftBy lowerRuns n = 0 := by
  unfold shiftBy at h ⊢
  split at h
  · next run hFind =>
      have hInside := List.find?_some hFind
      simp only [Bool.and_eq_true, decide_eq_true_eq] at hInside
      have hApart := lowerRuns_blank run (List.mem_of_find?_eq_some hFind)
        range hRange
      omega
  · rfl

/-- A blank is moved nowhere, and nothing else is moved to it. -/
private theorem shiftChar_eq_self {c : Char}
    (h : isBlank c = true ∨ isBlank (shiftChar lowerRuns c) = true) :
    shiftChar lowerRuns c = c := by
  have hPos : ∀ range ∈ blankRanges, 0 < range.1 := by decide
  have hZero : shiftBy lowerRuns c.toNat = 0 := by
    rcases h with hBlank | hBlank
    · obtain ⟨range, hMem, hInside⟩ := inRanges_iff.1 hBlank
      exact shiftBy_eq_zero hMem (.inl hInside)
    · obtain ⟨range, hMem, hLow, hHigh⟩ := inRanges_iff.1 hBlank
      have hFirst := hPos range hMem
      have hMoved := toNat_shiftChar_eq c
      exact shiftBy_eq_zero hMem (.inr (by omega))
  rw [shiftChar, hZero, Int.add_zero, Int.toNat_natCast, Char.ofNat_toNat]

/-- Letters of ASCII are no blanks, in capital or small letters. -/
theorem isBlank_toLower (c : Char) : isBlank c.toLower = isBlank c := by
  unfold Char.toLower
  split
  · next hUpper =>
      have hFirst : 65 ≤ c.val.toNat := UInt32.le_iff_toNat_le.1 hUpper.1
      have hFinal : c.val.toNat ≤ 90 := UInt32.le_iff_toNat_le.1 hUpper.2
      have hMoved : (c.val + 32).toNat = c.val.toNat + 32 :=
        (UInt32.toNat_add _ _).trans (Nat.mod_eq_of_lt (Nat.lt_of_le_of_lt
          (Nat.add_le_add_right hFinal _) (by decide)))
      have hCapital : isBlank c = false :=
        isBlank_of_visible (Nat.le_trans (by decide) hFirst)
          (Nat.le_trans hFinal (by decide))
      rw [hCapital]
      refine isBlank_of_visible ?_ ?_
      · show 0x21 ≤ (c.val + 32).toNat
        omega
      · show (c.val + 32).toNat ≤ 0x7e
        omega
  · rfl

/-- A character outside ASCII is no capital letter of it. -/
theorem toLower_of_wide {c : Char} (h : ¬c.toNat < 128) : c.toLower = c := by
  unfold Char.toLower
  split
  · next hUpper =>
      have hFinal : c.val.toNat ≤ 90 := UInt32.le_iff_toNat_le.1 hUpper.2
      exact absurd (Nat.lt_of_le_of_lt hFinal (by decide)) h
  · rfl

/-- A character that nothing is made small to but itself and, in ASCII, its
capital letter. -/
def IsDirect (x : Char) : Prop :=
  isBlank x = true ∨ 0 < x.toNat ∧ x.toNat < 128 ∧ x ≠ 'k'

instance (x : Char) : Decidable (IsDirect x) :=
  inferInstanceAs (Decidable (_ ∨ _))

private theorem lowerChar_of_isDirect {c : Char} (h : IsDirect c.toLower) :
    c ≠ 'Σ' ∧ lowerChar c = [c.toLower] := by
  by_cases hc : c.toNat < 128
  · exact ⟨fun hSigma => absurd hc (by rw [hSigma]; decide), if_pos hc⟩
  · rw [toLower_of_wide hc] at h ⊢
    have hBlank : isBlank c = true := h.resolve_right fun h => hc h.2.1
    have hOther : ∀ {d : Char}, isBlank d = false → c ≠ d := by
      rintro d hd rfl
      rw [hBlank] at hd
      cases hd
    rw [lowerChar, if_neg hc, if_neg (hOther (by decide)),
      shiftChar_eq_self (.inl hBlank)]
    exact ⟨hOther (by decide), rfl⟩

private theorem isDirect_of_lowerChar {c : Char}
    (h : ∀ x ∈ lowerChar c, IsDirect x) : IsDirect c.toLower := by
  by_cases hc : c.toNat < 128
  · rw [lowerChar, if_pos hc] at h
    exact h _ (List.mem_singleton.2 rfl)
  · rw [lowerChar, if_neg hc] at h
    split at h
    · exact absurd (h '\u0307' (by simp)) (by decide)
    · rw [toLower_of_wide hc]
      rcases h _ (List.mem_singleton.2 rfl) with hBlank | ⟨hPos, hAscii, hK⟩
      · rw [shiftChar_eq_self (.inr hBlank)] at hBlank
        exact .inl hBlank
      · rcases toNat_shiftChar_wide hc hAscii with hZero | hKelvin
        · omega
        · exact absurd hKelvin hK

/-- A text of blanks and words without a k is the small form of the texts that
differ from it in capital letters of ASCII, and of no others. -/
theorem lowerAfter_eq_iff {small : List Char}
    (hSmall : ∀ x ∈ small, IsDirect x) {afterCased : Bool} {cs : List Char} :
    lowerAfter afterCased cs = small ↔ cs.map Char.toLower = small := by
  induction cs generalizing afterCased small with
  | nil => exact Iff.rfl
  | cons c cs ih =>
      rw [lowerAfter, List.map_cons]
      constructor
      · intro h
        rw [← h, List.forall_mem_append] at hSmall
        obtain ⟨hFirst, hRest⟩ := hSmall
        split at hFirst
        · have hSigma := hFirst _ (List.mem_singleton.2 rfl)
          split at hSigma
          · exact absurd hSigma (by decide)
          · exact absurd hSigma (by decide)
        · next hOther =>
            rw [if_neg hOther] at h
            rw [(lowerChar_of_isDirect (isDirect_of_lowerChar hFirst)).2] at h
            rw [← h, (ih hRest).1 rfl]
            rfl
      · intro h
        rw [← h] at hSmall
        obtain ⟨hFirst, hRest⟩ := List.forall_mem_cons.1 hSmall
        obtain ⟨hSigma, hLower⟩ := lowerChar_of_isDirect hFirst
        rw [if_neg hSigma, hLower, ← h, (ih hRest).2 rfl]
        rfl

theorem lowerChars_eq_iff {small : List Char}
    (hSmall : ∀ x ∈ small, IsDirect x) {cs : List Char} :
    lowerChars cs = small ↔ cs.map Char.toLower = small := by
  rw [lowerChars_eq_lowerAfter, lowerAfter_eq_iff hSmall]

/-- A text whose small form is a word of ASCII without a k is that word in
capital or small letters: the dotted capital I leaves its dot behind. -/
theorem map_toLower_of_lowerChars {word : List Char}
    (hWord : ∀ x ∈ word, 0 < x.toNat ∧ x.toNat < 128 ∧ x ≠ 'k')
    {cs : List Char} (h : lowerChars cs = word) :
    cs.map Char.toLower = word :=
  (lowerChars_eq_iff fun x hx => .inr (hWord x hx)).1 h

theorem trimChars_map_toLower (cs : List Char) :
    trimChars (cs.map Char.toLower) = (trimChars cs).map Char.toLower := by
  have hBlank : isBlank ∘ Char.toLower = isBlank := funext isBlank_toLower
  rw [trimChars, trimChars, stripChars, stripChars, List.dropWhile_map, hBlank,
    ← List.map_reverse, List.dropWhile_map, hBlank, List.map_reverse]

/-! ## Punctuation -/

/-- No run of the table moves a letter below the letters. -/
private theorem lowerRuns_bound :
    ∀ run ∈ lowerRuns, 65 ≤ (run.first : Int) + run.shift := by
  decide +kernel

/-- A letter outside ASCII is not moved below the letters. -/
private theorem toNat_shiftChar {c : Char} (h : ¬c.toNat < 128) :
    (shiftChar lowerRuns c).toNat = 0 ∨ 65 ≤ (shiftChar lowerRuns c).toNat := by
  rcases toNat_shiftChar_eq c with hZero | hMoved
  · exact Or.inl hZero
  · right
    rw [hMoved]
    unfold shiftBy
    split
    · next run hFind =>
        have hBound := lowerRuns_bound run (List.mem_of_find?_eq_some hFind)
        have hInside := List.find?_some hFind
        simp only [Bool.and_eq_true, decide_eq_true_eq] at hInside
        omega
    · omega

/-- A character below the letters is the small form of itself only. -/
theorem eq_of_toLower_low {c x : Char} (hLow : x.toNat < 65)
    (h : c.toLower = x) : c = x := by
  unfold Char.toLower at h
  split at h
  · next hUpper =>
      have hFirst : 65 ≤ c.val.toNat := UInt32.le_iff_toNat_le.1 hUpper.1
      have hFinal : c.val.toNat ≤ 90 := UInt32.le_iff_toNat_le.1 hUpper.2
      have hMoved : x.toNat = (c.val + 32).toNat := by rw [← h]; rfl
      rw [hMoved, UInt32.toNat_add] at hLow
      have hSum : (c.val.toNat + 32) % 2 ^ 32 = c.val.toNat + 32 :=
        Nat.mod_eq_of_lt (by omega)
      have hSmall : (c.val.toNat + 32) % 2 ^ 32 < 65 := hLow
      omega
  · exact h

/-- The small form of a character has no punctuation but the character. -/
private theorem eq_of_mem_lowerChar {c x : Char} (hPos : 0 < x.toNat)
    (hLow : x.toNat < 65) (h : x ∈ lowerChar c) : c = x := by
  unfold lowerChar at h
  split at h
  · exact eq_of_toLower_low hLow (List.mem_singleton.1 h).symm
  · next hWide =>
      split at h
      · rcases List.mem_cons.1 h with rfl | hDot
        · exact absurd hLow (by decide)
        · rw [List.mem_singleton.1 hDot] at hLow
          exact absurd hLow (by decide)
      · have hShift := toNat_shiftChar hWide
        rw [← List.mem_singleton.1 h] at hShift
        omega

private theorem lowerAfter_append (start rest : List Char)
    (afterCased : Bool) :
    ∃ small after, lowerAfter afterCased (start ++ rest) =
        small ++ lowerAfter after rest ∧
      ∀ x ∈ small, 0 < x.toNat → x.toNat < 65 → x ∈ start := by
  induction start generalizing afterCased with
  | nil => exact ⟨[], afterCased, rfl, fun _ h => by simp at h⟩
  | cons c start ih =>
      obtain ⟨small, after, hAfter, hMem⟩ :=
        ih (if isCaseIgnorable c then afterCased else isCased c)
      rw [List.cons_append, lowerAfter, hAfter]
      refine ⟨_, after, (List.append_assoc _ _ _).symm,
        fun x hx hPos hLow => ?_⟩
      rcases List.mem_append.1 hx with hHere | hLater
      · split at hHere
        · have hSigma := List.mem_singleton.1 hHere
          rw [hSigma] at hLow
          split at hLow
          · exact absurd hLow (by decide)
          · exact absurd hLow (by decide)
        · rw [eq_of_mem_lowerChar hPos hLow hHere]
          exact List.mem_cons_self
      · exact List.mem_cons_of_mem _ (hMem x hLater hPos hLow)

theorem lowerChars_append (start rest : List Char) :
    ∃ small after, lowerChars (start ++ rest) = small ++ lowerAfter after rest ∧
      ∀ x ∈ small, 0 < x.toNat → x.toNat < 65 → x ∈ start := by
  rw [lowerChars_eq_lowerAfter]
  exact lowerAfter_append start rest false

end TableGate.Text
