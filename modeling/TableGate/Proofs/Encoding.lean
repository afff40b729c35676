import TableGate.Encoding.Base64
import TableGate.Encoding.Detect
import TableGate.Proofs.Encoding.Utf8

/-!
# Text through bytes and back

A token is text that travels as Base64. Decoding gives back every byte
sequence that was encoded, and a document of ASCII characters is found to be
UTF-8 and read character by character.

## Main results

* `Base64.decode?_encode`: bytes survive Base64.
* `Base64.mem_encode`: no other characters than those of the alphabet and
  padding are written.
* `decodeDocument_encode`: a document of ASCII is read as it was written.
-/

namespace TableGate.Encoding

/-! ## Base64 -/

namespace Base64

theorem value?_digit {n : Nat} (h : n < 64) : value? (digit n) = some n := by
  have hAll : ∀ m : Fin 64, value? (digit m) = some m := by
    decide +kernel
  exact hAll ⟨n, h⟩

theorem digit_ne_pad {n : Nat} (h : n < 64) : digit n ≠ pad := by
  have hAll : ∀ m : Fin 64, digit m ≠ pad := by decide +kernel
  exact hAll ⟨n, h⟩

/-- A byte is its number. -/
theorem ofNat_eq {a : UInt8} {n : Nat} (h : n = a.toNat) :
    UInt8.ofNat n = a := by
  rw [h, UInt8.ofNat_toNat]

/-- What is encoded is empty or does not start with padding. -/
theorem all_pad_encode (bytes : Bytes) :
    (encode bytes).all (· == pad) = bytes.isEmpty := by
  have hDigit : ∀ {n : Nat} {rest : List Char}, n < 64 →
      (digit n :: rest).all (· == pad) = false := by
    intro n rest h
    rw [List.all_cons, beq_false_of_ne (digit_ne_pad h), Bool.false_and]
  match bytes with
  | [] => rfl
  | [a] =>
      have ha := a.toNat_lt
      exact hDigit (by omega)
  | [a, b] =>
      have ha := a.toNat_lt
      have hb := b.toNat_lt
      exact hDigit (by omega)
  | a :: b :: c :: rest =>
      have ha := a.toNat_lt
      have hb := b.toNat_lt
      have hc := c.toNat_lt
      exact hDigit (by omega)

/-- Four digits are three bytes. -/
theorem decode?_cons {w x y z : Nat} {rest : List Char} {bytes : Bytes}
    (hw : w < 64) (hx : x < 64) (hy : y < 64) (hz : z < 64)
    (hRest : (if rest.all (· == pad) then some [] else decode? rest) =
      some bytes) :
    decode? (digit w :: digit x :: digit y :: digit z :: rest) =
      some (.ofNat ((((w * 64 + x) * 64 + y) * 64 + z) / 65536) ::
        .ofNat ((((w * 64 + x) * 64 + y) * 64 + z) / 256 % 256) ::
        .ofNat ((((w * 64 + x) * 64 + y) * 64 + z) % 256) :: bytes) := by
  rw [decode?, value?_digit hw, value?_digit hx, value?_digit hy,
    value?_digit hz]
  · cases hAll : rest.all (· == pad) with
    | true =>
        rw [hAll] at hRest
        cases hRest
        rfl
    | false =>
        rw [hAll] at hRest
        simp only [Bool.false_eq_true, if_false] at hRest ⊢
        rw [hRest]
        rfl
  · exact fun _ hLast _ => digit_ne_pad hz hLast
  · exact fun hLast _ => digit_ne_pad hz hLast

/-- Bytes survive Base64. -/
theorem decode?_encode (bytes : Bytes) :
    decode? (encode bytes) = some bytes := by
  match bytes with
  | [] => rfl
  | [a] =>
      have ha := a.toNat_lt
      show decode? [digit _, digit _, '=', '='] = _
      rw [decode?, value?_digit (by omega), value?_digit (by omega)]
      exact congrArg (fun x => some [x]) (ofNat_eq (by omega))
  | [a, b] =>
      have ha := a.toNat_lt
      have hb := b.toNat_lt
      show decode? [digit _, digit _, digit _, '='] = _
      rw [decode?, value?_digit (by omega), value?_digit (by omega),
        value?_digit (by omega)]
      · show some [UInt8.ofNat (_ / 1024), UInt8.ofNat (_ / 4 % 256)] = _
        rw [ofNat_eq (a := a) (by omega), ofNat_eq (a := b) (by omega)]
      · exact digit_ne_pad (by omega)
  | a :: b :: c :: rest =>
      have ha := a.toNat_lt
      have hb := b.toNat_lt
      have hc := c.toNat_lt
      have hRest : (if (encode rest).all (· == pad) then some []
          else decode? (encode rest)) = some rest := by
        rw [all_pad_encode]
        cases rest with
        | nil => rfl
        | cons d others => exact decode?_encode (d :: others)
      rw [encode]
      rw [decode?_cons (by omega) (by omega) (by omega) (by omega) hRest,
        ofNat_eq (a := a) (by omega), ofNat_eq (a := b) (by omega),
        ofNat_eq (a := c) (by omega)]

end Base64

/-- Every character of the text is one of the alphabet, or padding. -/
theorem Base64.mem_encode (bytes : Bytes) :
    ∀ c ∈ encode bytes, c ∈ pad :: alphabet := by
  have hDigit : ∀ n : Nat, digit n ∈ pad :: alphabet := by
    intro n
    rw [digit, List.getD_eq_getElem?_getD]
    cases hAt : alphabet[n]? with
    | none => exact List.mem_cons_self
    | some d => exact List.mem_cons_of_mem _ (List.mem_of_getElem? hAt)
  have hPad : pad ∈ pad :: alphabet := List.mem_cons_self
  induction bytes using encode.induct with
  | case1 => exact List.forall_mem_nil _
  | case2 a =>
      simp only [encode, List.forall_mem_cons]
      exact ⟨hDigit _, hDigit _, hPad, hPad, List.forall_mem_nil _⟩
  | case3 a b =>
      simp only [encode, List.forall_mem_cons]
      exact ⟨hDigit _, hDigit _, hDigit _, hPad, List.forall_mem_nil _⟩
  | case4 a b c rest ih =>
      simp only [encode, List.forall_mem_cons]
      exact ⟨hDigit _, hDigit _, hDigit _, hDigit _, ih⟩

/-- Every character of the text is visible. -/
theorem Base64.visible_encode (bytes : Bytes) :
    ∀ c ∈ encode bytes, 0x21 ≤ c.toNat ∧ c.toNat ≤ 0x7e := by
  have hAll : (pad :: alphabet).all (fun c =>
      decide (0x21 ≤ c.toNat ∧ c.toNat ≤ 0x7e)) = true := by decide +kernel
  exact fun c hc => of_decide_eq_true
    (List.all_eq_true.1 hAll c (mem_encode bytes c hc))

/-! ## ASCII -/

/-- The characters of ASCII other than the first. -/
def IsAscii (cs : List Char) : Prop :=
  ∀ c ∈ cs, 0 < c.toNat ∧ c.toNat < 0x80

instance (cs : List Char) : Decidable (IsAscii cs) := List.decidableBAll _ cs

theorem IsAscii.append {a b : List Char} (ha : IsAscii a) (hb : IsAscii b) :
    IsAscii (a ++ b) := fun c hc =>
  (List.mem_append.1 hc).elim (ha c) (hb c)

theorem IsAscii.cons {c : Char} {rest : List Char}
    (hFirst : 0 < c.toNat ∧ c.toNat < 0x80) (hRest : IsAscii rest) :
    IsAscii (c :: rest) := fun d hd =>
  (List.mem_cons.1 hd).elim (fun hEq => hEq ▸ hFirst) (hRest d)

theorem Utf8.encode_of_isAscii {cs : List Char} (h : IsAscii cs) :
    Utf8.encode cs = cs.map fun c => UInt8.ofNat c.toNat := by
  induction cs with
  | nil => rfl
  | cons c rest ih =>
      have hRest : IsAscii rest := fun d hd => h d (List.mem_cons_of_mem _ hd)
      have hFirst : Utf8.encodeChar c = [UInt8.ofNat c.toNat] :=
        if_pos (h c List.mem_cons_self).2
      rw [Utf8.encode, List.flatMap_cons, hFirst, List.map_cons]
      exact congrArg _ (ih hRest)

theorem toNat_ofNat_of_ascii {c : Char} (h : c.toNat < 0x80) :
    (UInt8.ofNat c.toNat).toNat = c.toNat := by
  rw [UInt8.toNat_ofNat']
  omega

/-- Without zero bytes there is no telling a document from UTF-8. -/
theorem unmarked_of_no_zero {bytes : Bytes} (h : 0 ∉ bytes) :
    unmarked bytes = .utf8 := by
  have hZero : ∀ b ∈ bytes, b ≠ 0 := fun b hb hEq => h (hEq ▸ hb)
  unfold unmarked
  split
  · rw [if_neg (hZero _ (by simp)), if_neg (hZero _ (by simp))]
  · rw [if_neg (hZero _ (by simp)), if_neg (hZero _ (by simp))]
  · rfl

/-- Bytes of ASCII are taken for UTF-8. -/
theorem detect_of_ascii {bytes : Bytes}
    (h : ∀ b ∈ bytes, 0 < b.toNat ∧ b.toNat < 0x80) :
    detect bytes = (.utf8, 0) := by
  have hZero : 0 ∉ bytes := fun hb => absurd (h 0 hb).1 (by decide)
  -- Every mark has a byte that is zero or high.
  have hMarks : ∀ mark ∈ marks, (mark.1.any fun b =>
      b.toNat == 0 || decide (0x80 ≤ b.toNat)) = true := by decide
  have hNone : marks.find? (fun mark => mark.1.isPrefixOf bytes) = none := by
    rw [List.find?_eq_none]
    intro mark hMark hPrefix
    obtain ⟨b, hb, hOdd⟩ := List.any_eq_true.1 (hMarks mark hMark)
    have hAscii := h b ((List.isPrefixOf_iff_prefix.1 hPrefix).subset hb)
    rw [Bool.or_eq_true, beq_iff_eq, decide_eq_true_eq] at hOdd
    omega
  rw [detect, hNone, unmarked_of_no_zero hZero]

/-- ASCII survives UTF-8. -/
theorem decodeDocument_encode {cs : List Char} (h : IsAscii cs) :
    decodeDocument (Utf8.encode cs) = .ok cs := by
  have hBytes : ∀ b ∈ Utf8.encode cs, 0 < b.toNat ∧ b.toNat < 0x80 := by
    intro b hb
    rw [Utf8.encode_of_isAscii h] at hb
    obtain ⟨c, hc, rfl⟩ := List.mem_map.1 hb
    rw [toNat_ofNat_of_ascii (h c hc).2]
    exact h c hc
  simp only [decodeDocument, detect_of_ascii hBytes, List.drop_zero,
    Utf8.decodeLenientFrom_of_decodeFrom (Utf8.decodeFrom_encode cs 0)]

end TableGate.Encoding
