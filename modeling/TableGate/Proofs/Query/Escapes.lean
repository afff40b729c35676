import TableGate.Proofs.Encoding.Utf8
import TableGate.Query.Items

/-!
# What a key or a value of a query string stands for

A part of a query string is a key or a value as it is sent. It stands for
bytes: those of its characters, a blank for a plus, and a byte for a percent
sign with two hexadecimal digits. A percent sign without them is broken, and
a part with a broken one stands for nothing.

If the bytes are those of a text, the part sends the characters of the text one
by one. The bytes of a character are sent together or not at all: an escape
that leads a character is followed by the escapes of its tails, since nothing
else stands for a tail.

## Main results

* `unescapes_iff`: the bytes that a part stands for, and when it stands for
  any.
* `spells_iff`: what stands for the bytes of a text sends its characters.
* `Spells.sends`: no character but the blank is read that was not sent.
* `decodeText_eq_ok_iff`: the parts that are read.
-/

namespace TableGate.Items

/-! ## Escapes -/

/-- The hexadecimal digits, small and capital. -/
def hexAlphabets : List (List Char) :=
  ["0123456789abcdef".toList, "0123456789ABCDEF".toList]

/-- A character is the hexadecimal digit of a value, small or capital. -/
def IsHexDigit (n : Nat) (c : Char) : Prop :=
  ∃ digits ∈ hexAlphabets, digits[n]? = some c

instance (n : Nat) (c : Char) : Decidable (IsHexDigit n c) :=
  inferInstanceAs (Decidable (∃ digits ∈ hexAlphabets, digits[n]? = some c))

theorem bounds_of_hexValue? {c : Char} {n : Nat}
    (h : Text.hexValue? c = some n) : c.toNat < 128 ∧ n < 16 := by
  simp only [Text.hexValue?, Char.le_def, UInt32.le_iff_toNat_le] at h
  change (if 48 ≤ c.toNat ∧ c.toNat ≤ 57 then some (c.toNat - 48) else
    if 97 ≤ c.toNat ∧ c.toNat ≤ 102 then some (c.toNat - 97 + 10) else
    if 65 ≤ c.toNat ∧ c.toNat ≤ 70 then some (c.toNat - 65 + 10) else none)
      = some n at h
  split_ifs at h
  all_goals
    have hValue := Option.some.inj h
    omega

theorem hexValue?_eq_some_iff {c : Char} {n : Nat} :
    Text.hexValue? c = some n ↔ IsHexDigit n c := by
  constructor
  · intro h
    obtain ⟨hAscii, hn⟩ := bounds_of_hexValue? h
    have hAll : ∀ m : Fin 128, ∀ k : Fin 16,
        Text.hexValue? (.ofNat m) = some k.val → IsHexDigit k (.ofNat m) := by
      decide +kernel
    have hHere := hAll ⟨c.toNat, hAscii⟩ ⟨n, hn⟩
    rw [Char.ofNat_toNat] at hHere
    exact hHere h
  · rintro ⟨digits, hDigits, hAt⟩
    have hAll : ∀ digits ∈ hexAlphabets, digits.length = 16 ∧
        ∀ k : Fin 16, digits[k.val]?.bind Text.hexValue? = some k.val := by
      decide +kernel
    obtain ⟨hn, -⟩ := List.getElem?_eq_some_iff.1 hAt
    obtain ⟨hLength, hValue⟩ := hAll digits hDigits
    have hHere := hValue ⟨n, hLength ▸ hn⟩
    rw [hAt] at hHere
    exact hHere

/-- A text is the escapes of bytes. -/
inductive Escapes : Bytes → List Char → Prop
  | nil : Escapes [] []
  | cons {b : UInt8} {hi lo : Char} {bytes : Bytes} {text : List Char}
      (hHigh : IsHexDigit (b.toNat / 16) hi)
      (hLow : IsHexDigit (b.toNat % 16) lo) (h : Escapes bytes text) :
      Escapes (b :: bytes) ('%' :: hi :: lo :: text)

/-- The bytes that a part of a query string stands for. -/
inductive Unescapes : List Char → Bytes → Prop
  | nil : Unescapes [] []
  | escape {b : UInt8} {hi lo : Char} {part : List Char} {bytes : Bytes}
      (hHigh : IsHexDigit (b.toNat / 16) hi)
      (hLow : IsHexDigit (b.toNat % 16) lo) (h : Unescapes part bytes) :
      Unescapes ('%' :: hi :: lo :: part) (b :: bytes)
  | plus {part : List Char} {bytes : Bytes} (h : Unescapes part bytes) :
      Unescapes ('+' :: part) (0x20 :: bytes)
  | plain {c : Char} {part : List Char} {bytes : Bytes} (hPercent : c ≠ '%')
      (hPlus : c ≠ '+') (h : Unescapes part bytes) :
      Unescapes (c :: part) (String.utf8EncodeChar c ++ bytes)

theorem hexNumber?_pair {b : UInt8} {hi lo : Char}
    (hHigh : IsHexDigit (b.toNat / 16) hi)
    (hLow : IsHexDigit (b.toNat % 16) lo) :
    Text.hexNumber? [hi, lo] = some b.toNat := by
  have hNumber : (0 * 16 + b.toNat / 16) * 16 + b.toNat % 16 = b.toNat := by
    omega
  simp only [Text.hexNumber?, List.foldlM_cons, List.foldlM_nil,
    hexValue?_eq_some_iff.2 hHigh, hexValue?_eq_some_iff.2 hLow,
    Option.map_some, Option.bind_eq_bind, Option.bind_some, hNumber]
  rfl

theorem unescape_plain {c : Char} (hPercent : c ≠ '%') (hPlus : c ≠ '+')
    (rest : List Char) :
    unescape (c :: rest) = String.utf8EncodeChar c ++ unescape rest := by
  rw [unescape, Encoding.Utf8.encodeChar_eq]
  · rintro a b later rfl -
    exact hPercent rfl
  · exact hPlus

theorem unescape_of_unescapes {part : List Char} {bytes : Bytes}
    (h : Unescapes part bytes) : unescape part = bytes := by
  induction h with
  | nil => rfl
  | escape hHigh hLow _ ih =>
      rw [unescape, hexNumber?_pair hHigh hLow, ih]
      simp
  | plus _ ih => rw [unescape, ih]
  | plain hPercent hPlus _ ih => rw [unescape_plain hPercent hPlus, ih]

/-! ## Broken escapes -/

/-- A text starts with two hexadecimal digits. -/
def StartsWithDigits (text : List Char) : Prop :=
  ∃ m n hi lo rest, text = hi :: lo :: rest ∧ IsHexDigit m hi ∧
    IsHexDigit n lo

/-- A percent sign is not followed by two hexadecimal digits. -/
def HasBrokenEscape (text : List Char) : Prop :=
  ∃ before after, text = before ++ '%' :: after ∧ ¬StartsWithDigits after

theorem startsWithDigits_iff {text : List Char} : StartsWithDigits text ↔
    (((text.take 2).length == 2 &&
      (text.take 2).all fun c => (Text.hexValue? c).isSome) = true) := by
  match text with
  | [] => simp [StartsWithDigits]
  | [c] => simp [StartsWithDigits]
  | hi :: lo :: rest =>
      simp only [StartsWithDigits, ← hexValue?_eq_some_iff]
      simp [Option.isSome_iff_exists]

theorem hasBrokenEscape_cons {c : Char} {rest : List Char} :
    HasBrokenEscape (c :: rest) ↔
      (c = '%' ∧ ¬StartsWithDigits rest) ∨ HasBrokenEscape rest := by
  constructor
  · rintro ⟨before, after, hText, hBroken⟩
    cases before with
    | nil =>
        obtain ⟨rfl, rfl⟩ := List.cons.inj hText
        exact .inl ⟨rfl, hBroken⟩
    | cons d before =>
        exact .inr ⟨before, after, (List.cons.inj hText).2, hBroken⟩
  · rintro (⟨rfl, hBroken⟩ | ⟨before, after, rfl, hBroken⟩)
    · exact ⟨[], rest, rfl, hBroken⟩
    · exact ⟨c :: before, after, rfl, hBroken⟩

theorem escapesComplete_eq_true_iff {text : List Char} :
    escapesComplete text = true ↔ ¬HasBrokenEscape text := by
  induction text with
  | nil => simp [escapesComplete, HasBrokenEscape]
  | cons c rest ih =>
      rw [hasBrokenEscape_cons, not_or, ← ih]
      by_cases hc : c = '%'
      · subst hc
        rw [escapesComplete, Bool.and_eq_true, ← startsWithDigits_iff]
        simp
      · rw [escapesComplete]
        · simp [hc]
        · exact hc

theorem not_isHexDigit {c : Char} (h : Text.hexValue? c = none) (n : Nat) :
    ¬IsHexDigit n c := by
  rw [← hexValue?_eq_some_iff, h]
  exact nofun

theorem ne_percent_of_isHexDigit {n : Nat} {c : Char} (h : IsHexDigit n c) :
    c ≠ '%' := by
  rintro rfl
  exact not_isHexDigit (by decide) n h

/-- A byte has two digits, and two digits make a byte. -/
theorem exists_byte_of_isHexDigit {m n : Nat} {hi lo : Char}
    (hHigh : IsHexDigit m hi) (hLow : IsHexDigit n lo) :
    ∃ b : UInt8, IsHexDigit (b.toNat / 16) hi ∧
      IsHexDigit (b.toNat % 16) lo := by
  have hm := (bounds_of_hexValue? (hexValue?_eq_some_iff.2 hHigh)).2
  have hn := (bounds_of_hexValue? (hexValue?_eq_some_iff.2 hLow)).2
  have hByte : (UInt8.ofNat (m * 16 + n)).toNat = m * 16 + n := by
    rw [UInt8.toNat_ofNat']
    omega
  have hFirst : (m * 16 + n) / 16 = m := by omega
  have hSecond : (m * 16 + n) % 16 = n := by omega
  refine ⟨.ofNat (m * 16 + n), ?_, ?_⟩
  · rwa [hByte, hFirst]
  · rwa [hByte, hSecond]

/-- A part stands for bytes if it has no broken escape. -/
theorem exists_unescapes (part : List Char) (h : ¬HasBrokenEscape part) :
    ∃ bytes, Unescapes part bytes := by
  match part with
  | [] => exact ⟨[], .nil⟩
  | c :: rest =>
      rw [hasBrokenEscape_cons, not_or] at h
      by_cases hPercent : c = '%'
      · subst hPercent
        have hDigits : StartsWithDigits rest := by
          by_contra hNone
          exact h.1 ⟨rfl, hNone⟩
        obtain ⟨m, n, hi, lo, more, rfl, hHigh, hLow⟩ := hDigits
        obtain ⟨b, hHigh, hLow⟩ := exists_byte_of_isHexDigit hHigh hLow
        rw [hasBrokenEscape_cons, not_or, hasBrokenEscape_cons, not_or] at h
        obtain ⟨bytes, hBytes⟩ := exists_unescapes more h.2.2.2
        exact ⟨b :: bytes, .escape hHigh hLow hBytes⟩
      · obtain ⟨bytes, hBytes⟩ := exists_unescapes rest h.2
        by_cases hPlus : c = '+'
        · subst hPlus
          exact ⟨_, .plus hBytes⟩
        · exact ⟨_, .plain hPercent hPlus hBytes⟩

theorem Unescapes.not_hasBrokenEscape {part : List Char} {bytes : Bytes}
    (h : Unescapes part bytes) : ¬HasBrokenEscape part := by
  induction h with
  | nil => simp [HasBrokenEscape]
  | escape hHigh hLow _ ih =>
      rw [hasBrokenEscape_cons, hasBrokenEscape_cons, hasBrokenEscape_cons]
      rintro (⟨-, hNone⟩ | ⟨hPercent, -⟩ | ⟨hPercent, -⟩ | hLater)
      · exact hNone ⟨_, _, _, _, _, rfl, hHigh, hLow⟩
      · exact ne_percent_of_isHexDigit hHigh hPercent
      · exact ne_percent_of_isHexDigit hLow hPercent
      · exact ih hLater
  | plus _ ih =>
      rw [hasBrokenEscape_cons]
      rintro (⟨hPercent, -⟩ | hLater)
      · exact absurd hPercent (by decide)
      · exact ih hLater
  | plain hPercent _ _ ih =>
      rw [hasBrokenEscape_cons]
      rintro (⟨hHere, -⟩ | hLater)
      · exact hPercent hHere
      · exact ih hLater

/-- A part stands for bytes exactly if it has no broken escape, and they are
what is read of it. -/
theorem unescapes_iff {part : List Char} {bytes : Bytes} :
    Unescapes part bytes ↔ ¬HasBrokenEscape part ∧ unescape part = bytes := by
  constructor
  · exact fun h => ⟨h.not_hasBrokenEscape, unescape_of_unescapes h⟩
  · rintro ⟨hWhole, rfl⟩
    obtain ⟨bytes, hBytes⟩ := exists_unescapes part hWhole
    rwa [unescape_of_unescapes hBytes]

/-- No escape reaches over a character that is not part of one. -/
theorem hasBrokenEscape_append {sep : Char} (hPercent : sep ≠ '%')
    (hDigit : ∀ n, ¬IsHexDigit n sep) (a b : List Char) :
    HasBrokenEscape (a ++ sep :: b) ↔
      HasBrokenEscape a ∨ HasBrokenEscape b := by
  induction a with
  | nil =>
      rw [List.nil_append, hasBrokenEscape_cons]
      simp [hPercent, HasBrokenEscape]
  | cons c a ih =>
      have hStart : StartsWithDigits (a ++ sep :: b) ↔ StartsWithDigits a := by
        match a with
        | [] => simp [StartsWithDigits, hDigit]
        | [hi] => simp [StartsWithDigits, hDigit]
        | hi :: lo :: rest => simp [StartsWithDigits]
      rw [List.cons_append, hasBrokenEscape_cons, hStart, ih,
        hasBrokenEscape_cons, or_assoc]

/-! ## Characters -/

/-- The characters of a text as they are sent: as they are, a blank as a plus,
or by the escapes of their bytes. -/
inductive Spells : List Char → List Char → Prop
  | nil : Spells [] []
  | plain {c : Char} {part text : List Char} (hPercent : c ≠ '%')
      (hPlus : c ≠ '+') (h : Spells part text) : Spells (c :: part) (c :: text)
  | plus {part text : List Char} (h : Spells part text) :
      Spells ('+' :: part) (' ' :: text)
  | escaped {c : Char} {escapes part text : List Char}
      (hEscapes : Escapes (String.utf8EncodeChar c) escapes)
      (h : Spells part text) : Spells (escapes ++ part) (c :: text)

theorem Escapes.append {bytes more : Bytes} {escapes part : List Char}
    (hEscapes : Escapes bytes escapes) (h : Unescapes part more) :
    Unescapes (escapes ++ part) (bytes ++ more) := by
  induction hEscapes with
  | nil => exact h
  | cons hHigh hLow _ ih => exact .escape hHigh hLow ih

theorem Spells.unescapes {part text : List Char} (h : Spells part text) :
    Unescapes part (text.flatMap String.utf8EncodeChar) := by
  induction h with
  | nil => exact .nil
  | plain hPercent hPlus _ ih => exact .plain hPercent hPlus ih
  | plus _ ih => exact .plus ih
  | escaped hEscapes _ ih => exact hEscapes.append ih

open Encoding.Utf8 (IsTail encodeChar encodeChar_eq exists_encodeChar
  eq_of_encodeChar_append)

/-- Tails are sent by escapes only. -/
theorem Unescapes.exists_tails {tails more : Bytes} {part : List Char}
    (h : Unescapes part (tails ++ more)) (hTails : ∀ d ∈ tails, IsTail d) :
    ∃ escapes rest, part = escapes ++ rest ∧ Escapes tails escapes ∧
      Unescapes rest more := by
  induction tails generalizing part with
  | nil => exact ⟨[], part, rfl, .nil, h⟩
  | cons d tails ih =>
      obtain ⟨hFirst, hOthers⟩ := List.forall_mem_cons.1 hTails
      generalize hBytes : d :: tails ++ more = bytes at h
      cases h with
      | nil => cases hBytes
      | @escape b hi lo part bytes hHigh hLow h =>
          obtain ⟨rfl, rfl⟩ := List.cons.inj hBytes
          obtain ⟨escapes, rest, rfl, hEscapes, hRest⟩ := ih h hOthers
          exact ⟨_, rest, rfl, .cons hHigh hLow hEscapes, hRest⟩
      | plus h =>
          rw [(List.cons.inj hBytes).1] at hFirst
          exact absurd hFirst.1 (by decide)
      | @plain c part bytes hPercent hPlus h =>
          obtain ⟨b, others, hChar, hLead, -⟩ := exists_encodeChar c
          rw [← encodeChar_eq, hChar] at hBytes
          rw [(List.cons.inj hBytes).1] at hFirst
          exact absurd hFirst hLead

/-- What stands for the bytes of a text sends its characters one by one. -/
theorem spells_iff {part text : List Char} : Spells part text ↔
    Unescapes part (text.flatMap String.utf8EncodeChar) := by
  constructor
  · exact Spells.unescapes
  intro h
  induction text generalizing part with
  | nil =>
      generalize hBytes : [].flatMap String.utf8EncodeChar = bytes at h
      cases h with
      | nil => exact .nil
      | escape => cases hBytes
      | plus => cases hBytes
      | @plain c =>
          obtain ⟨b, others, hChar, -, -⟩ := exists_encodeChar c
          rw [← encodeChar_eq, hChar] at hBytes
          cases hBytes
  | cons c text ih =>
      rw [List.flatMap_cons, ← encodeChar_eq] at h
      obtain ⟨b, tails, hChar, -, hTails⟩ := exists_encodeChar c
      generalize hMore : text.flatMap String.utf8EncodeChar = more at h ih
      generalize hBytes : encodeChar c ++ more = bytes at h
      cases h with
      | nil =>
          rw [hChar] at hBytes
          cases hBytes
      | @escape _ hi lo _ _ hHigh hLow h =>
          rw [hChar] at hBytes
          obtain ⟨rfl, rfl⟩ := List.cons.inj hBytes
          obtain ⟨escapes, rest, rfl, hEscapes, hRest⟩ := h.exists_tails hTails
          have hHere : Escapes (String.utf8EncodeChar c)
              ('%' :: hi :: lo :: escapes) := by
            rw [← encodeChar_eq, hChar]
            exact .cons hHigh hLow hEscapes
          exact .escaped hHere (ih hRest)
      | @plus part bytes h =>
          obtain ⟨rfl, rfl⟩ := eq_of_encodeChar_append (d := ' ') hBytes
          exact .plus (ih h)
      | plain hPercent hPlus h =>
          rw [← encodeChar_eq] at hBytes
          obtain ⟨rfl, rfl⟩ := eq_of_encodeChar_append hBytes
          exact .plain hPercent hPlus (ih h)

/-- A part sends a character: as it is, or by the escapes of its bytes. -/
def Sends (part : List Char) (c : Char) : Prop :=
  c ∈ part ∨ ∃ escapes, Escapes (String.utf8EncodeChar c) escapes ∧
    escapes <:+: part

/-- Every character but the blank is sent. -/
theorem Spells.sends {part text : List Char} (h : Spells part text) {c : Char}
    (hBlank : c ≠ ' ') (hMem : c ∈ text) : Sends part c := by
  have hLonger : ∀ {part : List Char} (start : List Char), Sends part c →
      Sends (start ++ part) c := by
    rintro part start (hHere | ⟨escapes, hEscapes, hInside⟩)
    · exact .inl (List.mem_append_right _ hHere)
    · exact .inr ⟨escapes, hEscapes,
        hInside.trans (List.suffix_append start part).isInfix⟩
  induction h with
  | nil => cases hMem
  | @plain d part text _ _ _ ih =>
      rcases List.mem_cons.1 hMem with rfl | hLater
      · exact .inl List.mem_cons_self
      · exact hLonger [d] (ih hLater)
  | plus _ ih =>
      rcases List.mem_cons.1 hMem with rfl | hLater
      · exact absurd rfl hBlank
      · exact hLonger ['+'] (ih hLater)
  | @escaped d escapes part text hEscapes _ ih =>
      rcases List.mem_cons.1 hMem with rfl | hLater
      · exact .inr ⟨escapes, hEscapes,
          (List.prefix_append escapes part).isInfix⟩
      · exact hLonger escapes (ih hLater)

/-! ## Texts -/

/-- The bytes of a text. -/
def utf8 (s : String) : Bytes := s.toUTF8.data.toList

theorem decodeText_eq_ok_iff {part : List Char} {s : String} :
    decodeText part = .ok s ↔ unescape part = utf8 s := by
  have hBytes : utf8 s = Encoding.Utf8.encode s.toList :=
    (Encoding.Utf8.encode_toList s).symm
  rw [hBytes, ← Encoding.Utf8.decode_eq_ok_iff, decodeText]
  cases Encoding.Utf8.decode (unescape part) with
  | error fault => exact ⟨fun h => absurd h Result.refuse_ne_ok, nofun⟩
  | ok cs =>
      constructor
      · intro h
        rw [← Except.ok.inj h, String.toList_ofList]
      · intro h
        rw [Except.ok.inj h]
        exact congrArg Except.ok String.ofList_toList

theorem spells_toList_iff {part : List Char} {s : String} :
    Spells part s.toList ↔
      ¬HasBrokenEscape part ∧ unescape part = utf8 s := by
  have hBytes : s.toList.flatMap String.utf8EncodeChar = utf8 s := by
    rw [utf8, ← Encoding.Utf8.encode_toList, Encoding.Utf8.encode,
      funext encodeChar_eq]
  rw [spells_iff, unescapes_iff, hBytes]

/-- Every byte has its escapes. -/
theorem exists_escapes (bytes : Bytes) : ∃ text, Escapes bytes text := by
  induction bytes with
  | nil => exact ⟨[], .nil⟩
  | cons b bytes ih =>
      obtain ⟨text, hText⟩ := ih
      have hAll : ∀ n : Fin 16, IsHexDigit n (Text.hexDigit n) := by
        decide +kernel
      have hByte := b.toNat_lt
      exact ⟨_, .cons (hAll ⟨b.toNat / 16, by omega⟩)
        (hAll ⟨b.toNat % 16, by omega⟩) hText⟩

theorem Escapes.notMem {bytes : Bytes} {text : List Char}
    (h : Escapes bytes text) {c : Char} (hPercent : c ≠ '%')
    (hDigit : Text.hexValue? c = none) : c ∉ text := by
  induction h with
  | nil => exact List.not_mem_nil
  | cons hHigh hLow _ ih =>
      have hNone := not_isHexDigit hDigit
      simp only [List.mem_cons, not_or]
      exact ⟨hPercent, fun hc => hNone _ (hc ▸ hHigh),
        fun hc => hNone _ (hc ▸ hLow), ih⟩

theorem Escapes.spells {s : String} {part : List Char}
    (h : Escapes (utf8 s) part) : Spells part s.toList := by
  have hWhole := h.append .nil
  rw [List.append_nil, List.append_nil] at hWhole
  exact spells_toList_iff.2 (unescapes_iff.1 hWhole)

end TableGate.Items
