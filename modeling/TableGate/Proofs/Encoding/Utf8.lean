import TableGate.Encoding.Utf8
import TableGate.Proofs.Result

/-!
# Characters as bytes and back

A character is written as a lead byte and up to three tails, and read as one.
Reading is strict: what is read of a byte sequence is exactly what its
characters are written as, so a text and its bytes determine each other, and
no byte sequence stands for two texts.

## Main results

* `encodeChar_eq`, `encode_toList`: the bytes of a text are its UTF-8.
* `readChar_eq_ok_iff`: what is read as a character.
* `decode_eq_ok_iff`: the byte sequences that are decoded are those of texts.
* `decodeLossy_of_decode`, `decodeLenientFrom_of_decodeFrom`: every way to
  decode them gives the same characters.
-/

namespace TableGate.Encoding.Utf8

open Result (bind_eq_ok pure_eq_ok)

/-! ## The bytes of a character -/

theorem encodeChar_one {c : Char} (h : c.toNat < 0x80) :
    encodeChar c = [.ofNat c.toNat] := if_pos h

theorem encodeChar_two {c : Char} (hLow : 0x80 ≤ c.toNat)
    (hHigh : c.toNat < 0x800) :
    encodeChar c = [.ofNat (0xc0 + c.toNat / 64), tailByte c.toNat] := by
  show (if c.toNat < 0x80 then _ else _) = _
  rw [if_neg (by omega), if_pos hHigh]

theorem encodeChar_three {c : Char} (hLow : 0x800 ≤ c.toNat)
    (hHigh : c.toNat < 0x10000) :
    encodeChar c = [.ofNat (0xe0 + c.toNat / 4096), tailByte (c.toNat / 64),
      tailByte c.toNat] := by
  show (if c.toNat < 0x80 then _ else _) = _
  rw [if_neg (by omega), if_neg (by omega), if_pos hHigh]

theorem encodeChar_four {c : Char} (h : 0x10000 ≤ c.toNat) :
    encodeChar c = [.ofNat (0xf0 + c.toNat / 262144),
      tailByte (c.toNat / 4096), tailByte (c.toNat / 64),
      tailByte c.toNat] := by
  show (if c.toNat < 0x80 then _ else _) = _
  rw [if_neg (by omega), if_neg (by omega), if_neg (by omega)]

/-- The code points of characters leave out the surrogates. -/
theorem isCodePoint (c : Char) :
    c.toNat < 0xd800 ∨ 0xe000 ≤ c.toNat ∧ c.toNat < 0x110000 := by
  have hValid : c.toNat < 0xd800 ∨ 0xdfff < c.toNat ∧ c.toNat < 0x110000 :=
    c.valid
  omega

theorem toNat_ofNat {n : Nat}
    (h : n < 0xd800 ∨ 0xe000 ≤ n ∧ n < 0x110000) :
    (Char.ofNat n).toNat = n := by
  have hValid : n.isValidChar := by
    show n < 0xd800 ∨ 0xdfff < n ∧ n < 0x110000
    omega
  rw [Char.ofNat, dif_pos hValid]
  rfl

/-- The bytes of a character are those of UTF-8. -/
theorem encodeChar_eq (c : Char) : encodeChar c = String.utf8EncodeChar c := by
  have hPoint := isCodePoint c
  have hTail : ∀ n, tailByte n = UInt8.ofNat (n % 64 + 128) := fun n => by
    rw [tailByte, Nat.add_comm]
  show _ = if c.toNat ≤ 127 then _ else if c.toNat ≤ 2047 then _ else
    if c.toNat ≤ 65535 then _ else _
  by_cases hOne : c.toNat < 0x80
  · rw [encodeChar_one hOne, if_pos (by omega)]
    rfl
  by_cases hTwo : c.toNat < 0x800
  · have hLead : 0xc0 + c.toNat / 64 = c.toNat / 64 % 32 + 192 := by omega
    rw [encodeChar_two (by omega) hTwo, if_neg (by omega), if_pos (by omega),
      hTail, hLead]
    rfl
  by_cases hThree : c.toNat < 0x10000
  · have hLead : 0xe0 + c.toNat / 4096 = c.toNat / 4096 % 16 + 224 := by omega
    rw [encodeChar_three (by omega) hThree, if_neg (by omega),
      if_neg (by omega), if_pos (by omega), hTail, hTail, hLead]
    rfl
  · have hLead : 0xf0 + c.toNat / 262144 = c.toNat / 262144 % 8 + 240 := by
      omega
    rw [encodeChar_four (by omega), if_neg (by omega), if_neg (by omega),
      if_neg (by omega), hTail, hTail, hTail, hLead]
    rfl

/-- The bytes of a text are its UTF-8. -/
theorem encode_toList (s : String) :
    encode s.toList = s.toUTF8.data.toList := by
  have hChars : encode s.toList = s.toList.flatMap String.utf8EncodeChar :=
    congrArg (s.toList.flatMap ·) (funext encodeChar_eq)
  have hText := String.toByteArray_ofList (l := s.toList)
  rw [String.ofList_toList] at hText
  rw [hChars, String.toUTF8, hText, List.utf8Encode]
  simp

/-! ## Reading a character -/

/-- The tails of characters, from 0x80 to 0xbf. -/
def IsTail (b : UInt8) : Prop := 0x80 ≤ b.toNat ∧ b.toNat ≤ 0xbf

theorem toNat_tailByte (n : Nat) : (tailByte n).toNat = 0x80 + n % 64 := by
  rw [tailByte, UInt8.toNat_ofNat']
  omega

theorem isTail_tailByte (n : Nat) : IsTail (tailByte n) := by
  rw [IsTail, toNat_tailByte]
  omega

theorem tailByte_eq {b : UInt8} {n : Nat} (h : b.toNat = 0x80 + n % 64) :
    tailByte n = b := by
  rw [tailByte, ← h, UInt8.ofNat_toNat]

/-- One more tail is read if it is there and in the range. -/
theorem readTails_succ_eq_ok_iff {tails low high point taken n : Nat}
    {rest : Bytes} :
    readTails (tails + 1) low high point taken rest = .ok n ↔
      ∃ b more, rest = b :: more ∧ low ≤ b.toNat ∧ b.toNat ≤ high ∧
        readTails tails 0x80 0xbf (point * 64 + (b.toNat - 0x80)) (taken + 1)
          more = .ok n := by
  cases rest with
  | nil => simp [readTails]
  | cons b more =>
      rw [readTails]
      split
      · next hRange => simp [hRange]
      · next hRange =>
          simp only [reduceCtorEq, List.cons.injEq, false_iff]
          rintro ⟨_, _, ⟨rfl, rfl⟩, hLow, hHigh, -⟩
          exact hRange ⟨hLow, hHigh⟩

theorem lead?_two {b : Nat} (hLow : 0xc2 ≤ b) (hHigh : b < 0xe0) :
    lead? b = some ⟨1, 0x80, 0xbf, b - 0xc0⟩ := by
  rw [lead?, if_neg (by omega), if_pos hHigh]

theorem lead?_three {b : Nat} (hLow : 0xe0 ≤ b) (hHigh : b < 0xf0) :
    lead? b = some ⟨2, if b = 0xe0 then 0xa0 else 0x80,
      if b = 0xed then 0x9f else 0xbf, b - 0xe0⟩ := by
  by_cases hFirst : b = 0xe0
  · subst hFirst
    rfl
  by_cases hSurrogates : b = 0xed
  · subst hSurrogates
    rfl
  · rw [lead?, if_neg (by omega), if_neg (by omega), if_neg hFirst,
      if_neg hSurrogates, if_pos hHigh, if_neg hFirst, if_neg hSurrogates]

theorem lead?_four {b : Nat} (hLow : 0xf0 ≤ b) (hHigh : b < 0xf5) :
    lead? b = some ⟨3, if b = 0xf0 then 0x90 else 0x80,
      if b = 0xf4 then 0x8f else 0xbf, b - 0xf0⟩ := by
  by_cases hFirst : b = 0xf0
  · subst hFirst
    rfl
  by_cases hLast : b = 0xf4
  · subst hLast
    rfl
  · rw [lead?, if_neg (by omega), if_neg (by omega), if_neg (by omega),
      if_neg (by omega), if_neg (by omega), if_neg hFirst, if_pos (by omega),
      if_neg hFirst, if_neg hLast]

theorem lead?_bounds {b : Nat} {lead : Lead} (h : lead? b = some lead) :
    0xc2 ≤ b ∧ b < 0xf5 := by
  unfold lead? at h
  by_cases hLow : b < 0xc2
  · rw [if_pos hLow] at h
    cases h
  by_cases hHigh : b < 0xf5
  · omega
  · rw [if_neg hLow, if_neg (by omega), if_neg (by omega), if_neg (by omega),
      if_neg (by omega), if_neg (by omega), if_neg (by omega),
      if_neg (by omega)] at h
    cases h

/-- A character of more than one byte: what its lead announces and the code
point that its tails complete. -/
theorem readChar_eq_ok_of_lead {b : UInt8} {lead : Lead}
    (h : lead? b.toNat = some lead) {rest : Bytes} {c : Char} {count : Nat} :
    readChar b rest = .ok (c, count) ↔ ∃ point,
      readTails lead.tails lead.low lead.high lead.bits 1 rest = .ok point ∧
        Char.ofNat point = c ∧ lead.tails = count := by
  have hBounds := lead?_bounds h
  rw [readChar, if_neg (by omega), h]
  simp only [bind_eq_ok, pure_eq_ok, Prod.mk.injEq]

theorem readChar_two {b : UInt8} (hLow : 0xc2 ≤ b.toNat)
    (hHigh : b.toNat < 0xe0) {rest : Bytes} {c : Char} {count : Nat} :
    readChar b rest = .ok (c, count) ↔ ∃ d more, rest = [d] ++ more ∧
      IsTail d ∧ Char.ofNat ((b.toNat - 0xc0) * 64 + (d.toNat - 0x80)) = c ∧
        1 = count := by
  rw [readChar_eq_ok_of_lead (lead?_two hLow hHigh)]
  constructor
  · rintro ⟨point, hPoint, hChar, hCount⟩
    obtain ⟨d, more, hRest, hFirst, hLast, hEnd⟩ :=
      readTails_succ_eq_ok_iff.1 hPoint
    rw [← Except.ok.inj hEnd] at hChar
    exact ⟨d, more, hRest, ⟨hFirst, hLast⟩, hChar, hCount⟩
  · rintro ⟨d, more, hRest, ⟨hFirst, hLast⟩, hChar, hCount⟩
    exact ⟨_, readTails_succ_eq_ok_iff.2 ⟨d, more, hRest, hFirst, hLast, rfl⟩,
      hChar, hCount⟩

/-- The second byte of a character with a lead at either end of its kind. -/
theorem second_iff {b x y low high : Nat} {d : UInt8} (hLow : 0x80 ≤ low)
    (hHigh : high ≤ 0xbf) :
    ((if b = x then low else 0x80) ≤ d.toNat ∧
        d.toNat ≤ if b = y then high else 0xbf) ↔
      IsTail d ∧ (b = x → low ≤ d.toNat) ∧ (b = y → d.toNat ≤ high) := by
  unfold IsTail
  split <;> split <;> omega

theorem readChar_three {b : UInt8} (hLow : 0xe0 ≤ b.toNat)
    (hHigh : b.toNat < 0xf0) {rest : Bytes} {c : Char} {count : Nat} :
    readChar b rest = .ok (c, count) ↔ ∃ d e more, rest = [d, e] ++ more ∧
      (IsTail d ∧ (b.toNat = 0xe0 → 0xa0 ≤ d.toNat) ∧
        (b.toNat = 0xed → d.toNat ≤ 0x9f)) ∧ IsTail e ∧
      Char.ofNat (((b.toNat - 0xe0) * 64 + (d.toNat - 0x80)) * 64 +
        (e.toNat - 0x80)) = c ∧ 2 = count := by
  rw [readChar_eq_ok_of_lead (lead?_three hLow hHigh)]
  constructor
  · rintro ⟨point, hPoint, hChar, hCount⟩
    obtain ⟨d, later, rfl, hFirst, hLast, hPoint⟩ :=
      readTails_succ_eq_ok_iff.1 hPoint
    obtain ⟨e, more, rfl, hFirstE, hLastE, hEnd⟩ :=
      readTails_succ_eq_ok_iff.1 hPoint
    rw [← Except.ok.inj hEnd] at hChar
    exact ⟨d, e, more, rfl,
      (second_iff (by decide) (by decide)).1 ⟨hFirst, hLast⟩,
      ⟨hFirstE, hLastE⟩, hChar, hCount⟩
  · rintro ⟨d, e, more, rfl, hSecond, hE, hChar, hCount⟩
    obtain ⟨hFirst, hLast⟩ :=
      (second_iff (by decide) (by decide)).2 hSecond
    exact ⟨_, readTails_succ_eq_ok_iff.2 ⟨d, e :: more, rfl, hFirst, hLast,
      readTails_succ_eq_ok_iff.2 ⟨e, more, rfl, hE.1, hE.2, rfl⟩⟩, hChar,
      hCount⟩

theorem readChar_four {b : UInt8} (hLow : 0xf0 ≤ b.toNat)
    (hHigh : b.toNat < 0xf5) {rest : Bytes} {c : Char} {count : Nat} :
    readChar b rest = .ok (c, count) ↔ ∃ d e f more,
      rest = [d, e, f] ++ more ∧
      (IsTail d ∧ (b.toNat = 0xf0 → 0x90 ≤ d.toNat) ∧
        (b.toNat = 0xf4 → d.toNat ≤ 0x8f)) ∧ IsTail e ∧ IsTail f ∧
      Char.ofNat ((((b.toNat - 0xf0) * 64 + (d.toNat - 0x80)) * 64 +
        (e.toNat - 0x80)) * 64 + (f.toNat - 0x80)) = c ∧ 3 = count := by
  rw [readChar_eq_ok_of_lead (lead?_four hLow hHigh)]
  constructor
  · rintro ⟨point, hPoint, hChar, hCount⟩
    obtain ⟨d, later, rfl, hFirst, hLast, hPoint⟩ :=
      readTails_succ_eq_ok_iff.1 hPoint
    obtain ⟨e, later, rfl, hFirstE, hLastE, hPoint⟩ :=
      readTails_succ_eq_ok_iff.1 hPoint
    obtain ⟨f, more, rfl, hFirstF, hLastF, hEnd⟩ :=
      readTails_succ_eq_ok_iff.1 hPoint
    rw [← Except.ok.inj hEnd] at hChar
    exact ⟨d, e, f, more, rfl,
      (second_iff (by decide) (by decide)).1 ⟨hFirst, hLast⟩,
      ⟨hFirstE, hLastE⟩, ⟨hFirstF, hLastF⟩, hChar, hCount⟩
  · rintro ⟨d, e, f, more, rfl, hSecond, hE, hF, hChar, hCount⟩
    obtain ⟨hFirst, hLast⟩ :=
      (second_iff (by decide) (by decide)).2 hSecond
    exact ⟨_, readTails_succ_eq_ok_iff.2 ⟨d, e :: f :: more, rfl, hFirst,
      hLast, readTails_succ_eq_ok_iff.2 ⟨e, f :: more, rfl, hE.1, hE.2,
        readTails_succ_eq_ok_iff.2 ⟨f, more, rfl, hF.1, hF.2, rfl⟩⟩⟩, hChar,
      hCount⟩

/-- The bytes of a character are read as it, whatever follows them. -/
theorem readChar_of_encodeChar {b : UInt8} {tails : Bytes} {c : Char}
    (h : encodeChar c = b :: tails) (more : Bytes) :
    readChar b (tails ++ more) = .ok (c, tails.length) := by
  have hPoint := isCodePoint c
  have hByte : ∀ n, n < 0x100 → (UInt8.ofNat n).toNat = n := by
    intro n hn
    rw [UInt8.toNat_ofNat']
    omega
  have hChar : ∀ n, n = c.toNat → Char.ofNat n = c := fun n hn => by
    rw [hn, Char.ofNat_toNat]
  by_cases hOne : c.toNat < 0x80
  · rw [encodeChar_one hOne] at h
    obtain ⟨rfl, rfl⟩ := List.cons.inj h
    rw [readChar, hByte _ (by omega), if_pos hOne, Char.ofNat_toNat]
    rfl
  by_cases hTwo : c.toNat < 0x800
  · rw [encodeChar_two (by omega) hTwo] at h
    obtain ⟨rfl, rfl⟩ := List.cons.inj h
    have hLead := hByte (0xc0 + c.toNat / 64) (by omega)
    refine (readChar_two (by omega) (by omega)).2
      ⟨_, more, rfl, isTail_tailByte _, hChar _ ?_, rfl⟩
    rw [toNat_tailByte, hLead]
    omega
  by_cases hThree : c.toNat < 0x10000
  · rw [encodeChar_three (by omega) hThree] at h
    obtain ⟨rfl, rfl⟩ := List.cons.inj h
    have hLead := hByte (0xe0 + c.toNat / 4096) (by omega)
    refine (readChar_three (by omega) (by omega)).2
      ⟨_, _, more, rfl, ⟨isTail_tailByte _, ?_, ?_⟩, isTail_tailByte _,
        hChar _ ?_, rfl⟩
    all_goals
      simp only [toNat_tailByte, hLead]
      omega
  · rw [encodeChar_four (by omega)] at h
    obtain ⟨rfl, rfl⟩ := List.cons.inj h
    have hLead := hByte (0xf0 + c.toNat / 262144) (by omega)
    refine (readChar_four (by omega) (by omega)).2
      ⟨_, _, _, more, rfl, ⟨isTail_tailByte _, ?_, ?_⟩, isTail_tailByte _,
        isTail_tailByte _, hChar _ ?_, rfl⟩
    all_goals
      simp only [toNat_tailByte, hLead]
      omega

/-- What is read as a character starts with its bytes. -/
theorem encodeChar_of_readChar {b : UInt8} {rest : Bytes} {c : Char}
    {count : Nat} (h : readChar b rest = .ok (c, count)) :
    ∃ tails more, rest = tails ++ more ∧ tails.length = count ∧
      (∀ d ∈ tails, IsTail d) ∧ encodeChar c = b :: tails := by
  have hByte : ∀ n, n = b.toNat → UInt8.ofNat n = b := fun n hn => by
    rw [hn, UInt8.ofNat_toNat]
  by_cases hOne : b.toNat < 0x80
  · rw [readChar, if_pos hOne] at h
    obtain ⟨rfl, rfl⟩ := Prod.mk.inj (Except.ok.inj h)
    have hChar := toNat_ofNat (n := b.toNat) (by omega)
    refine ⟨[], rest, rfl, rfl, List.forall_mem_nil _, ?_⟩
    rw [encodeChar_one (by omega), hChar, hByte _ rfl]
  obtain ⟨lead, hLead⟩ : ∃ lead, lead? b.toNat = some lead := by
    cases hLead : lead? b.toNat with
    | some lead => exact ⟨lead, rfl⟩
    | none =>
        rw [readChar, if_neg hOne, hLead] at h
        cases h
  have hBounds := lead?_bounds hLead
  by_cases hTwo : b.toNat < 0xe0
  · obtain ⟨d, more, rfl, hD, rfl, rfl⟩ := (readChar_two hBounds.1 hTwo).1 h
    refine ⟨[d], more, rfl, rfl, by simp [hD], ?_⟩
    unfold IsTail at hD
    have hChar := toNat_ofNat
      (n := (b.toNat - 0xc0) * 64 + (d.toNat - 0x80)) (by omega)
    rw [encodeChar_two (by omega) (by omega), hChar, hByte _ (by omega),
      tailByte_eq (b := d) (by omega)]
  by_cases hThree : b.toNat < 0xf0
  · obtain ⟨d, e, more, rfl, ⟨hD, hSecond⟩, hE, rfl, rfl⟩ :=
      (readChar_three (by omega) hThree).1 h
    refine ⟨[d, e], more, rfl, rfl, by simp [hD, hE], ?_⟩
    unfold IsTail at hD hE
    have hChar := toNat_ofNat (n := ((b.toNat - 0xe0) * 64 +
      (d.toNat - 0x80)) * 64 + (e.toNat - 0x80)) (by omega)
    rw [encodeChar_three (by omega) (by omega), hChar, hByte _ (by omega),
      tailByte_eq (b := d) (by omega), tailByte_eq (b := e) (by omega)]
  · obtain ⟨d, e, f, more, rfl, ⟨hD, hSecond⟩, hE, hF, rfl, rfl⟩ :=
      (readChar_four (by omega) hBounds.2).1 h
    refine ⟨[d, e, f], more, rfl, rfl, by simp [hD, hE, hF], ?_⟩
    unfold IsTail at hD hE hF
    have hChar := toNat_ofNat (n := (((b.toNat - 0xf0) * 64 +
      (d.toNat - 0x80)) * 64 + (e.toNat - 0x80)) * 64 +
        (f.toNat - 0x80)) (by omega)
    rw [encodeChar_four (by omega), hChar, hByte _ (by omega),
      tailByte_eq (b := d) (by omega), tailByte_eq (b := e) (by omega),
      tailByte_eq (b := f) (by omega)]

/-- What is read as a character: its bytes. -/
theorem readChar_eq_ok_iff {b : UInt8} {rest : Bytes} {c : Char} {count : Nat} :
    readChar b rest = .ok (c, count) ↔
      ∃ tails more, rest = tails ++ more ∧ tails.length = count ∧
        encodeChar c = b :: tails := by
  constructor
  · intro h
    obtain ⟨tails, more, hRest, hCount, -, hChar⟩ := encodeChar_of_readChar h
    exact ⟨tails, more, hRest, hCount, hChar⟩
  · rintro ⟨tails, more, rfl, rfl, hChar⟩
    exact readChar_of_encodeChar hChar more

/-- A character starts with a byte that is no tail, and goes on with tails. -/
theorem exists_encodeChar (c : Char) : ∃ b tails,
    encodeChar c = b :: tails ∧ ¬IsTail b ∧ ∀ d ∈ tails, IsTail d := by
  obtain ⟨b, tails, hChar⟩ : ∃ b tails, encodeChar c = b :: tails := by
    by_cases hOne : c.toNat < 0x80
    · exact ⟨_, _, encodeChar_one hOne⟩
    by_cases hTwo : c.toNat < 0x800
    · exact ⟨_, _, encodeChar_two (by omega) hTwo⟩
    by_cases hThree : c.toNat < 0x10000
    · exact ⟨_, _, encodeChar_three (by omega) hThree⟩
    · exact ⟨_, _, encodeChar_four (by omega)⟩
  have hRead := readChar_of_encodeChar hChar []
  obtain ⟨others, more, -, -, hTails, hSame⟩ := encodeChar_of_readChar hRead
  obtain ⟨-, rfl⟩ := List.cons.inj (hChar.symm.trans hSame)
  refine ⟨b, tails, hChar, fun hTail => ?_, hTails⟩
  unfold IsTail at hTail
  rw [readChar, if_neg (by omega)] at hRead
  split at hRead
  · cases hRead
  · next lead hLead =>
      have hBounds := lead?_bounds hLead
      omega

/-- The first character of a text is known by its bytes. -/
theorem eq_of_encodeChar_append {c d : Char} {rest others : Bytes}
    (h : encodeChar c ++ rest = encodeChar d ++ others) :
    c = d ∧ rest = others := by
  obtain ⟨a, tails, hC, -, -⟩ := exists_encodeChar c
  obtain ⟨b, more, hD, -, -⟩ := exists_encodeChar d
  have hBytes := h
  rw [hC, hD, List.cons_append, List.cons_append] at hBytes
  obtain ⟨rfl, hTails⟩ := List.cons.inj hBytes
  have hRead := readChar_of_encodeChar hC rest
  rw [hTails, readChar_of_encodeChar hD others] at hRead
  obtain ⟨rfl, -⟩ := Prod.mk.inj (Except.ok.inj hRead)
  exact ⟨rfl, List.append_cancel_left h⟩

/-! ## Decoding -/

variable {bytes rest : Bytes} {cs : List Char} {b : UInt8}

/-- The first character of bytes that are UTF-8, and what follows it. -/
theorem decodeFrom_cons {position : Nat}
    (h : decodeFrom position 0 (b :: rest) = .ok cs) :
    ∃ c tails others, readChar b rest = .ok (c, tails) ∧
      decodeFrom (position + 1) tails rest = .ok others ∧
      cs = c :: others := by
  rw [decodeFrom] at h
  split at h
  · cases h
  · next c tails hRead =>
      obtain ⟨others, hOthers, hText⟩ := bind_eq_ok.1 h
      exact ⟨c, tails, others, hRead, hOthers, (pure_eq_ok.1 hText).symm⟩

/-- The tails of a character are passed over. -/
theorem decodeFrom_append (position : Nat) (tails more : Bytes) :
    decodeFrom position tails.length (tails ++ more) =
      decodeFrom (position + tails.length) 0 more := by
  induction tails generalizing position with
  | nil => rfl
  | cons d tails ih =>
      rw [List.length_cons, List.cons_append, decodeFrom, ih, Nat.add_assoc,
        Nat.add_comm 1]

theorem decodeFrom_encode (cs : List Char) (position : Nat) :
    decodeFrom position 0 (encode cs) = .ok cs := by
  induction cs generalizing position with
  | nil => rfl
  | cons c cs ih =>
      obtain ⟨b, tails, hChar, -, -⟩ := exists_encodeChar c
      have hBytes : encode (c :: cs) = b :: (tails ++ encode cs) := by
        rw [encode, List.flatMap_cons, hChar]
        rfl
      rw [hBytes, decodeFrom, readChar_of_encodeChar hChar]
      simp only [decodeFrom_append]
      rw [ih]
      rfl

theorem encode_of_decodeFrom {position skip : Nat}
    (h : decodeFrom position skip bytes = .ok cs)
    (hSkip : skip ≤ bytes.length) : bytes.drop skip = encode cs := by
  induction bytes generalizing position skip cs with
  | nil =>
      rw [decodeFrom] at h
      rw [← Except.ok.inj h, List.drop_nil]
      rfl
  | cons b rest ih =>
      cases skip with
      | succ skip => exact ih h (Nat.le_of_succ_le_succ hSkip)
      | zero =>
          obtain ⟨c, skip, others, hRead, hOthers, rfl⟩ := decodeFrom_cons h
          obtain ⟨tails, more, rfl, rfl, hChar⟩ := readChar_eq_ok_iff.1 hRead
          have hMore := ih hOthers (by simp)
          rw [List.drop_left] at hMore
          rw [List.drop_zero, encode, List.flatMap_cons, hChar, hMore]
          rfl

/-- The byte sequences that are decoded are those of texts. -/
theorem decode_eq_ok_iff : decode bytes = .ok cs ↔ bytes = encode cs := by
  constructor
  · exact fun h => encode_of_decodeFrom h (Nat.zero_le _)
  · rintro rfl
    exact decodeFrom_encode cs 0

theorem decode_encode (cs : List Char) : decode (encode cs) = .ok cs :=
  decodeFrom_encode cs 0

/-! ## The other ways to decode -/

theorem decodeLossyFrom_of_decodeFrom {position skip : Nat}
    (h : decodeFrom position skip bytes = .ok cs) :
    decodeLossyFrom skip bytes = cs := by
  induction bytes generalizing position skip cs with
  | nil =>
      rw [decodeFrom] at h
      rw [decodeLossyFrom, Except.ok.inj h]
  | cons b rest ih =>
      cases skip with
      | succ skip => exact ih h
      | zero =>
          obtain ⟨c, tails, others, hRead, hOthers, rfl⟩ := decodeFrom_cons h
          rw [decodeLossyFrom, hRead]
          exact congrArg (c :: ·) (ih hOthers)

/-- Nothing is replaced in bytes that are UTF-8. -/
theorem decodeLossy_of_decode (h : decode bytes = .ok cs) :
    decodeLossy bytes = cs :=
  decodeLossyFrom_of_decodeFrom h

/-- No character starts as the three-byte form of a surrogate does. -/
theorem startsWithSurrogate_of_readChar {c : Char} {tails : Nat}
    (h : readChar b rest = .ok (c, tails)) :
    startsWithSurrogate b rest = false := by
  rw [Bool.eq_false_iff]
  intro hSurrogate
  unfold startsWithSurrogate at hSurrogate
  split at hSurrogate
  · next second third more =>
      simp only [Bool.and_eq_true, beq_iff_eq, decide_eq_true_eq]
        at hSurrogate
      obtain ⟨⟨⟨⟨rfl, hLow⟩, -⟩, -⟩, -⟩ := hSurrogate
      have hBeyond : ¬(0x80 ≤ second.toNat ∧ second.toNat ≤ 0x9f) := by omega
      obtain ⟨point, hPoint, -⟩ := bind_eq_ok.1 h
      rw [readTails, if_neg hBeyond] at hPoint
      cases hPoint
  · cases hSurrogate

theorem decodeLenientFrom_of_decodeFrom {position skip : Nat}
    (h : decodeFrom position skip bytes = .ok cs) :
    decodeLenientFrom position skip bytes = .ok cs := by
  induction bytes generalizing position skip cs with
  | nil => exact h
  | cons b rest ih =>
      cases skip with
      | succ skip => exact ih h
      | zero =>
          obtain ⟨c, tails, others, hRead, hOthers, rfl⟩ := decodeFrom_cons h
          rw [decodeLenientFrom, startsWithSurrogate_of_readChar hRead, hRead,
            if_neg Bool.false_ne_true]
          exact bind_eq_ok.2 ⟨others, ih hOthers, rfl⟩

end TableGate.Encoding.Utf8
