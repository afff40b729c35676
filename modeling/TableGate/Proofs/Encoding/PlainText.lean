import TableGate.Proofs.Encoding

/-!
# Plain text as bytes

A document that arrives as bytes may be in one of several encodings, and a
text that arrives as bytes has replacement characters where it is not UTF-8.
Neither matters for plain text: bytes that are UTF-8, without zero bytes and
without a byte order mark, are taken for UTF-8, and every way to decode them
gives the same characters.

## Main results

* `decodeDocument_of_isPlainText`: plain text is decoded as UTF-8.
-/

namespace TableGate.Encoding

open Result (bind_eq_ok pure_eq_ok)

/-- The characters of bytes that are UTF-8, without zero bytes and without a
byte order mark. -/
structure IsPlainText (bytes : Bytes) (cs : List Char) : Prop where
  decodes : Utf8.decode bytes = .ok cs
  no_zero : 0 ∉ bytes
  no_mark : ¬[0xef, 0xbb, 0xbf] <+: bytes

/-! ## Detection -/

variable {bytes : Bytes} {cs : List Char}

/-- Plain text has no byte order mark of any encoding. -/
theorem IsPlainText.find?_marks (h : IsPlainText bytes cs) :
    marks.find? (fun mark => mark.1.isPrefixOf bytes) = none := by
  rw [List.find?_eq_none]
  intro mark hMark hPrefix
  obtain ⟨rest, rfl⟩ := List.isPrefixOf_iff_prefix.1 hPrefix
  -- A mark holds a zero, or starts with a byte that leads no character.
  have hMarks : ∀ mark ∈ marks, mark.1 = [0xef, 0xbb, 0xbf] ∨ 0 ∈ mark.1 ∨
      ∃ b ∈ mark.1.head?, ∀ rest, Utf8.readChar b rest =
        .error (.invalidStartByte, 1) := by
    intro mark hMark
    rcases List.mem_cons.1 hMark with rfl | hMark
    · exact Or.inr (Or.inl (by decide))
    rcases List.mem_cons.1 hMark with rfl | hMark
    · exact Or.inr (Or.inl (by decide))
    rcases List.mem_cons.1 hMark with rfl | hMark
    · exact Or.inr (Or.inr ⟨0xfe, rfl, fun _ => rfl⟩)
    rcases List.mem_cons.1 hMark with rfl | hMark
    · exact Or.inr (Or.inr ⟨0xff, rfl, fun _ => rfl⟩)
    · rw [List.mem_singleton.1 hMark]
      exact Or.inl rfl
  rcases hMarks mark hMark with hUtf8 | hZero | ⟨b, hFirst, hBad⟩
  · exact h.no_mark ⟨rest, by rw [hUtf8]⟩
  · exact h.no_zero (List.mem_append_left _ hZero)
  · obtain ⟨others, hOthers⟩ := List.head?_eq_some_iff.1 hFirst
    have hDecodes := h.decodes
    rw [hOthers] at hDecodes
    obtain ⟨c, tails, -, hRead, -⟩ := Utf8.decodeFrom_cons hDecodes
    rw [hBad] at hRead
    cases hRead

/-- Plain text is taken for UTF-8. -/
theorem IsPlainText.detect_eq (h : IsPlainText bytes cs) :
    detect bytes = (.utf8, 0) := by
  rw [detect, h.find?_marks, unmarked_of_no_zero h.no_zero]

/-- Plain text is decoded as UTF-8. -/
theorem decodeDocument_of_isPlainText (h : IsPlainText bytes cs) :
    decodeDocument bytes = .ok cs := by
  simp only [decodeDocument, h.detect_eq, List.drop_zero,
    Utf8.decodeLenientFrom_of_decodeFrom h.decodes]

end TableGate.Encoding
