import TableGate.Proofs.Sql.Characters
import TableGate.Proofs.Sql.Command

/-!
# Placeholders and names of values

The number of a placeholder is nowhere stored: it is the place of the value
among the values of the statement. This module reads the numbers back from the
text, as a database does, and the names from the text with named values, as a
driver does. A driver takes a colon for the start of a name unless a colon, a
word character or a backslash stands before it, so the cast `::numeric` names
nothing.

## Main results

* `placeholders_charsWith`: the placeholders of a statement are numbered in
  order, one for each value.
* `binds_charsWith`: so are the names.
* `lookup_namedArgs`: each value is found under its name.
-/

namespace TableGate.Sql

/-! ## Reading placeholders -/

/-- The digits behind each dollar sign. -/
def placeholders : List Char → List (List Char)
  | [] => []
  | c :: rest =>
      if c = '$' then rest.takeWhile Text.isDecimalDigit :: placeholders rest
      else placeholders rest

/-- Whether a colon after a character may start a name. -/
def mayStartName (c : Char) : Bool :=
  !(c == ':' || c == '\\' || Text.isWord c)

/-- The name that starts here: word characters, as many as there are, with no
colon after them. -/
def nameOf (cs : List Char) : List Char :=
  if (cs.dropWhile Text.isWord).head? = some ':' then
    (cs.takeWhile Text.isWord).dropLast
  else cs.takeWhile Text.isWord

/-- The names behind the colons of a text, given the character before it. -/
def binds : Option Char → List Char → List (List Char)
  | _, [] => []
  | before, c :: rest =>
      if c = ':' ∧ before.all mayStartName = true ∧ nameOf rest ≠ [] then
        nameOf rest :: binds (some c) rest
      else binds (some c) rest

/-- The parts of a text between marks, put together again. -/
def weave (mark : Nat → List Char) : Nat → List (List Char) → List Char
  | _, [] => []
  | _, [part] => part
  | count, part :: parts =>
      part ++ mark (count + 1) ++ weave mark (count + 1) parts

/-! ## Characters of words -/

/-- The characters of statements besides those of names. -/
def punctuation : List Char :=
  [' ', '\x22', '\x27', '(', ')', '*', ',', '-', '.', ':', '<', '=', '>', '!']

theorem mem_wordText (w : Word) :
    ∀ c ∈ w.text.toList, isNamePart c = true ∨ c ∈ punctuation := by
  have hAll : ∀ w ∈ Word.all, (w.text.toList.all fun c =>
      isNamePart c || punctuation.contains c) = true := by decide +kernel
  intro c hc
  have hChar := List.all_eq_true.1 (hAll w w.mem_all) c hc
  rwa [Bool.or_eq_true, List.contains_iff_mem] at hChar

/-- Whether no number and no name goes on with a character. -/
def endsNumber (c : Char) : Bool :=
  !(Text.isDecimalDigit c || Text.isWord c || c == ':')

/-- A word that does not start bare may stand after a number or a name. -/
theorem head?_wordText (w : Word) (h : w.start ≠ .bare) :
    w.text.toList.head?.any endsNumber = true := by
  have hAll : ∀ w ∈ Word.all, w.start ≠ .bare →
      w.text.toList.head?.any endsNumber = true := by decide +kernel
  exact hAll w w.mem_all h

/-- A word that does not end bare ends with a character before a name. -/
theorem getLast?_wordText (w : Word) (h : w.finish ≠ .bare) :
    w.text.toList.getLast?.any mayStartName = true := by
  have hAll : ∀ w ∈ Word.all, w.finish ≠ .bare →
      w.text.toList.getLast?.any mayStartName = true := by decide +kernel
  exact hAll w w.mem_all h

/-- Whether a piece is a word. -/
def Piece.isWord : Piece → Bool
  | .word _ => true
  | _ => false

theorem Piece.isWord_cases (piece : Piece) :
    (∃ w, piece = .word w) ∨ piece.isWord = false := by
  cases piece with
  | word w => exact Or.inl ⟨w, rfl⟩
  | _ => exact Or.inr rfl

theorem mem_between_marks {mark : Char} (hMark : mark ∈ ['\x22', '\x27', '.'])
    (name : Identifier) :
    ∀ c ∈ mark :: name.text.toList ++ [mark],
      isNamePart c = true ∨ c ∈ ['\x22', '\x27', '.'] := by
  intro c hc
  rcases List.mem_cons.1 hc with rfl | hc
  · exact Or.inr hMark
  · rcases List.mem_append.1 hc with hc | hc
    · exact Or.inl (isNamePart_of_mem_isName name.isName c hc)
    · rw [List.mem_singleton.1 hc]
      exact Or.inr hMark

theorem mem_quoted (name : Identifier) :
    ∀ c ∈ name.quoted.toList,
      isNamePart c = true ∨ c ∈ ['\x22', '\x27', '.'] := by
  rw [toList_quoted]
  exact mem_between_marks (by decide) name

/-- Names and keys have few characters. -/
theorem mem_chars {piece : Piece} (hWord : piece.isWord = false)
    (hValue : piece.values = 0) (mark : List Char) :
    ∀ c ∈ piece.chars mark,
      isNamePart c = true ∨ c ∈ ['\x22', '\x27', '.'] := by
  cases piece with
  | word w => exact absurd hWord.symm Bool.false_ne_true
  | table schema name =>
      intro c hc
      rw [Piece.chars_eq rfl, toList_table] at hc
      rcases List.mem_append.1 hc with hc | hc
      · exact mem_quoted schema c hc
      · rcases List.mem_cons.1 hc with rfl | hc
        · exact Or.inr (by decide)
        · exact mem_quoted name c hc
  | column name => exact mem_quoted name
  | label name => exact mem_quoted name
  | field name =>
      rw [Piece.chars_eq rfl, toList_field]
      exact mem_between_marks (by decide) name
  | index digits =>
      intro c hc
      exact Or.inl (isNamePart_of_isDigit
        (isDigit_of_mem_isDigits digits.isDigits c hc))
  | bind value => exact absurd hValue Nat.one_ne_zero

theorem colon_notMem_chars {piece : Piece} (hWord : piece.isWord = false)
    (hValue : piece.values = 0) (mark : List Char) :
    ':' ∉ piece.chars mark := by
  intro hc
  rcases mem_chars hWord hValue mark ':' hc with hPart | hOther
  · exact absurd hPart (by decide)
  · exact absurd hOther (by decide)

/-- Only values bring dollar signs. -/
theorem dollar_notMem_chars {piece : Piece} (hValue : piece.values = 0)
    (mark : List Char) : '$' ∉ piece.chars mark := by
  intro hc
  rcases piece.isWord_cases with ⟨w, rfl⟩ | hWord
  · rcases mem_wordText w '$' hc with hPart | hOther
    · exact absurd hPart (by decide)
    · exact absurd hOther (by decide)
  · rcases mem_chars hWord hValue mark '$' hc with hPart | hOther
    · exact absurd hPart (by decide)
    · exact absurd hOther (by decide)

/-- After a bare piece no number and no name goes on. -/
theorem endsNumber_head?_charsWith {piece : Piece} {rest : Fragment}
    (h : Tidy (piece :: rest)) (hFinish : piece.finish = .bare)
    (mark : Nat → List Char) (count : Nat) :
    ∀ c ∈ (charsWith mark count rest).head?, endsNumber c = true := by
  intro c hc
  cases rest with
  | nil => cases hc
  | cons other others =>
      have hStart : other.start ≠ .bare := by
        intro hStart
        have hTouch := (List.isChain_cons_cons.1 h).1.1
        rw [hFinish, hStart] at hTouch
        exact absurd hTouch (by decide)
      cases other with
      | word w =>
          obtain ⟨d, hd, hEnds⟩ :=
            (Option.any_eq_true _ _).1 (head?_wordText w hStart)
          have hFirst : (charsWith mark count (.word w :: others)).head? =
              some d := by
            rw [charsWith, List.head?_append, Piece.chars_eq rfl, Piece.text,
              hd]
            rfl
          obtain rfl : d = c := Option.some.inj (hFirst.symm.trans hc)
          exact hEnds
      | _ => exact absurd rfl hStart

theorem argsOf_cons {piece : Piece} (h : piece.values = 0) (rest : Fragment) :
    argsOf (piece :: rest) = argsOf rest := by
  cases piece with
  | bind value => exact absurd h Nat.one_ne_zero
  | _ => rfl

theorem length_argsOf_cons (piece : Piece) (rest : Fragment) :
    (argsOf (piece :: rest)).length =
      piece.values + (argsOf rest).length := by
  rcases piece.values_cases with hNone | ⟨value, rfl⟩
  · rw [argsOf_cons hNone, hNone, Nat.zero_add]
  · rw [args_bind, List.length_cons, Piece.values, Nat.add_comm]

/-- Pieces that follow others are numbered on. -/
theorem charsWith_append (mark : Nat → List Char) (count : Nat)
    (a b : Fragment) :
    charsWith mark count (a ++ b) =
      charsWith mark count a ++
        charsWith mark (count + (argsOf a).length) b := by
  induction a generalizing count with
  | nil => rfl
  | cons piece rest ih =>
      rw [List.cons_append, charsWith, charsWith, ih, List.append_assoc,
        length_argsOf_cons, Nat.add_assoc]

/-! ## The placeholders of a statement -/

theorem isDecimalDigit_of_isDigit {c : Char} (h : c.isDigit = true) :
    Text.isDecimalDigit c = true := by
  rw [Char.isDigit, Bool.and_eq_true, decide_eq_true_iff, decide_eq_true_iff]
    at h
  exact Text.inRanges_iff.2 ⟨(0x30, 0x39), List.mem_cons_self,
    UInt32.le_iff_toNat_le.1 h.1, UInt32.le_iff_toNat_le.1 h.2⟩

/-- A run of characters ends where another character follows. -/
theorem takeWhile_append_of_ends {p : Char → Bool} {cs rest : List Char}
    (hAll : ∀ c ∈ cs, p c = true) (hEnd : ∀ c ∈ rest.head?, p c = false) :
    (cs ++ rest).takeWhile p = cs ∧ (cs ++ rest).dropWhile p = rest := by
  rw [List.takeWhile_append_of_pos hAll, List.dropWhile_append_of_pos hAll]
  cases rest with
  | nil => exact ⟨List.append_nil cs, rfl⟩
  | cons c others =>
      have hNot := hEnd c rfl
      rw [List.takeWhile_cons, List.dropWhile_cons, hNot]
      exact ⟨List.append_nil cs, rfl⟩

theorem placeholders_append {a : List Char} (h : '$' ∉ a) (b : List Char) :
    placeholders (a ++ b) = placeholders b := by
  induction a with
  | nil => rfl
  | cons c rest ih =>
      rw [List.mem_cons, not_or] at h
      rw [List.cons_append, placeholders, if_neg (Ne.symm h.1), ih h.2]

theorem placeholders_dollar (n : Nat) {rest : List Char}
    (h : ∀ c ∈ rest.head?, endsNumber c = true) :
    placeholders (dollar n ++ rest) =
      Text.natDigits n :: placeholders rest := by
  have hNumber : (Text.natDigits n ++ rest).takeWhile Text.isDecimalDigit =
      Text.natDigits n := by
    refine (takeWhile_append_of_ends (fun c hc =>
      isDecimalDigit_of_isDigit (Text.isDigit_of_mem_natDigits hc))
        fun c hc => ?_).1
    have hEnds := h c hc
    rw [endsNumber, Bool.not_eq_true', Bool.or_eq_false_iff,
      Bool.or_eq_false_iff] at hEnds
    exact hEnds.1.1
  rw [dollar, List.cons_append, placeholders, if_pos rfl, hNumber,
    placeholders_append (notMem_natDigits (by decide) n)]

/-- The placeholders of a statement are numbered in order. -/
theorem placeholders_charsWith {fragment : Fragment} (h : Tidy fragment)
    (count : Nat) :
    placeholders (charsWith dollar count fragment) =
      (List.range' (count + 1) (argsOf fragment).length).map
        Text.natDigits := by
  induction fragment generalizing count with
  | nil => rfl
  | cons piece rest ih =>
      rw [charsWith]
      rcases piece.values_cases with hNone | ⟨value, rfl⟩
      · rw [placeholders_append (dollar_notMem_chars hNone _), ih h.tail,
          argsOf_cons hNone, hNone, Nat.add_zero]
      · rw [Piece.chars, placeholders_dollar _
          (endsNumber_head?_charsWith h rfl dollar _), ih h.tail, args_bind,
          List.length_cons, List.range'_succ]
        rfl

/-! ## The text with named values -/

theorem nameBinds_append {a : List Char} (h : '$' ∉ a) (b : List Char) :
    nameBinds (a ++ b) = a ++ nameBinds b := by
  induction a with
  | nil => rfl
  | cons c rest ih =>
      rw [List.mem_cons, not_or] at h
      rw [List.cons_append, nameBinds, ih h.2]
      · rfl
      · exact fun _ _ hDollar => absurd hDollar.symm h.1

theorem nameBinds_dollar (n : Nat) (rest : List Char) :
    nameBinds (dollar n ++ rest) = named n ++ nameBinds rest := by
  have hTail := nameBinds_append (notMem_natDigits (by decide) n) rest
  obtain ⟨d, others, hNumber, hDigit⟩ := Text.exists_natDigits_eq n
  have hFirst : Text.isDecimalDigit d = true := isDecimalDigit_of_isDigit hDigit
  rw [hNumber] at hTail
  rw [dollar, named, hNumber, List.cons_append, List.cons_append, nameBinds,
    if_pos hFirst, ← List.cons_append, hTail]
  rfl

theorem nameBinds_charsWith (count : Nat) (fragment : Fragment) :
    nameBinds (charsWith dollar count fragment) =
      charsWith named count fragment := by
  induction fragment generalizing count with
  | nil => rfl
  | cons piece rest ih =>
      rw [charsWith, charsWith]
      rcases piece.values_cases with hNone | ⟨value, rfl⟩
      · rw [nameBinds_append (dollar_notMem_chars hNone _), ih,
          Piece.chars_eq hNone, Piece.chars_eq hNone]
      · rw [Piece.chars, nameBinds_dollar, ih]
        rfl

/-- The parts of a statement around its values. -/
def partsOf : Fragment → List (List Char)
  | [] => [[]]
  | .bind _ :: rest => [] :: partsOf rest
  | piece :: rest =>
      (partsOf rest).modifyHead fun part => piece.text.toList ++ part

theorem partsOf_cons {piece : Piece} (h : piece.values = 0) (rest : Fragment) :
    partsOf (piece :: rest) =
      (partsOf rest).modifyHead fun part => piece.text.toList ++ part := by
  cases piece with
  | bind value => exact absurd h Nat.one_ne_zero
  | _ => rfl

theorem length_partsOf (fragment : Fragment) :
    (partsOf fragment).length = (argsOf fragment).length + 1 := by
  induction fragment with
  | nil => rfl
  | cons piece rest ih =>
      rcases piece.values_cases with hNone | ⟨value, rfl⟩
      · rw [partsOf_cons hNone, List.length_modifyHead, ih, argsOf_cons hNone]
      · rw [partsOf, List.length_cons, ih, args_bind, List.length_cons]

theorem partsOf_ne_nil (fragment : Fragment) : partsOf fragment ≠ [] := by
  rw [← List.length_pos_iff, length_partsOf]
  exact Nat.succ_pos _

theorem weave_cons {parts : List (List Char)} (h : parts ≠ [])
    (mark : Nat → List Char) (count : Nat) (part : List Char) :
    weave mark count (part :: parts) =
      part ++ mark (count + 1) ++ weave mark (count + 1) parts := by
  cases parts with
  | nil => exact absurd rfl h
  | cons next others => rfl

theorem weave_modifyHead {parts : List (List Char)} (h : parts ≠ [])
    (mark : Nat → List Char) (count : Nat) (a : List Char) :
    weave mark count (parts.modifyHead fun part => a ++ part) =
      a ++ weave mark count parts := by
  cases parts with
  | nil => exact absurd rfl h
  | cons part others =>
      rw [List.modifyHead_cons]
      by_cases hLast : others = []
      · rw [hLast]
        rfl
      · rw [weave_cons hLast, weave_cons hLast, List.append_assoc,
          List.append_assoc, List.append_assoc]

theorem weave_partsOf (mark : Nat → List Char) (count : Nat)
    (fragment : Fragment) :
    weave mark count (partsOf fragment) = charsWith mark count fragment := by
  induction fragment generalizing count with
  | nil => rfl
  | cons piece rest ih =>
      have hSome := partsOf_ne_nil rest
      rcases piece.values_cases with hNone | ⟨value, rfl⟩
      · rw [partsOf_cons hNone, weave_modifyHead hSome, ih, charsWith,
          Piece.chars_eq hNone, hNone, Nat.add_zero]
      · rw [partsOf, weave_cons hSome, ih]
        rfl

theorem dollar_notMem_partsOf (fragment : Fragment) :
    ∀ part ∈ partsOf fragment, '$' ∉ part := by
  induction fragment with
  | nil => simp [partsOf]
  | cons piece rest ih =>
      rcases piece.values_cases with hNone | ⟨value, rfl⟩
      · have hPiece := dollar_notMem_chars hNone []
        rw [Piece.chars_eq hNone] at hPiece
        rw [partsOf_cons hNone]
        cases hParts : partsOf rest with
        | nil => exact absurd hParts (partsOf_ne_nil rest)
        | cons first others =>
            rw [hParts] at ih
            intro part hPart
            rcases List.mem_cons.1 hPart with rfl | hOther
            · rw [List.mem_append, not_or]
              exact ⟨hPiece, ih first List.mem_cons_self⟩
            · exact ih part (List.mem_cons_of_mem _ hOther)
      · intro part hPart
        rcases List.mem_cons.1 hPart with rfl | hOther
        · exact List.not_mem_nil
        · exact ih part hOther

/-! ## The names of a statement -/

theorem binds_append {a : List Char} (h : ':' ∉ a) (before : Option Char)
    (b : List Char) :
    binds before (a ++ b) = binds (a.getLast?.or before) b := by
  induction a generalizing before with
  | nil => rfl
  | cons c rest ih =>
      rw [List.mem_cons, not_or] at h
      have hColon : ¬ (c = ':' ∧ before.all mayStartName = true ∧
          nameOf (rest ++ b) ≠ []) := fun hAll => h.1 hAll.1.symm
      rw [List.cons_append, binds, if_neg hColon, ih h.2]
      congr 1
      cases rest with
      | nil => rfl
      | cons d others =>
          rw [List.getLast?_cons_cons, List.getLast?_cons]
          rfl

/-- The cast to a number names nothing: no name starts at its first colon,
and none may start at its second. -/
theorem binds_asNumeric (before : Option Char) (rest : List Char) :
    binds before (Word.asNumeric.text.toList ++ rest) =
      binds (some 'c') rest := by
  have hText : Word.asNumeric.text.toList =
      ')' :: ':' :: ':' :: ['n', 'u', 'm', 'e', 'r', 'i', 'c'] := rfl
  have hNoName : ∀ cs, nameOf (':' :: cs) = [] := by
    intro cs
    have hColon : Text.isWord ':' = false := by decide
    rw [nameOf, List.takeWhile_cons, List.dropWhile_cons, hColon]
    rfl
  have hSecond : (some ':').all mayStartName = false := by decide
  have hWord : ':' ∉ ['n', 'u', 'm', 'e', 'r', 'i', 'c'] := by decide
  rw [hText, List.cons_append, binds, if_neg fun h => absurd h.1 (by decide),
    List.cons_append, binds, if_neg fun h => h.2.2 (hNoName _),
    List.cons_append, binds, hSecond, if_neg fun h => absurd h.2.1 (by decide),
    binds_append hWord]
  rfl

/-- No word names anything. -/
theorem binds_wordText (w : Word) (before : Option Char) (rest : List Char) :
    binds before (w.text.toList ++ rest) =
      binds (w.text.toList.getLast?.or before) rest := by
  by_cases hCast : w = .asNumeric
  · rw [hCast, binds_asNumeric]
    rfl
  · have hAll : ∀ w ∈ Word.all, w ≠ .asNumeric → ':' ∉ w.text.toList := by
      decide +kernel
    exact binds_append (hAll w w.mem_all hCast) before rest

theorem isWord_of_isNamePart {c : Char} (h : isNamePart c = true) :
    Text.isWord c = true := by
  have hLow : c.val.toNat < 128 := by
    rw [isNamePart, Bool.or_eq_true, beq_iff_eq] at h
    have hBelow : ∀ last : Char, last.val.toNat < 128 → c.val ≤ last.val →
        c.val.toNat < 128 := fun last hLast hLe =>
      Nat.lt_of_le_of_lt (UInt32.le_iff_toNat_le.1 hLe) hLast
    rcases h with hLetter | rfl
    · rcases Bool.or_eq_true_iff.1 hLetter with hAlpha | hDigit
      · rcases Bool.or_eq_true_iff.1 hAlpha with hUpper | hLower
        · exact hBelow 'Z' (by decide) (of_decide_eq_true hUpper).2
        · exact hBelow 'z' (by decide)
            (of_decide_eq_true (Bool.and_eq_true_iff.1 hLower).2)
      · exact hBelow '9' (by decide)
          (of_decide_eq_true (Bool.and_eq_true_iff.1 hDigit).2)
    · decide
  rwa [Text.isWord_ascii hLow]

theorem binds_named {before : Option Char}
    (hBefore : before.all mayStartName = true) (n : Nat) {rest : List Char}
    (h : ∀ c ∈ rest.head?, endsNumber c = true) :
    ∃ last, binds before (named n ++ rest) =
      ('p' :: Text.natDigits n) :: binds last rest := by
  have hParts : ∀ c ∈ 'p' :: Text.natDigits n, isNamePart c = true := by
    intro c hc
    rcases List.mem_cons.1 hc with rfl | hDigit
    · decide
    · exact isNamePart_of_isDigit (Text.isDigit_of_mem_natDigits hDigit)
  have hEnd : ∀ c ∈ rest.head?, Text.isWord c = false := by
    intro c hc
    have hEnds := h c hc
    rw [endsNumber, Bool.not_eq_true', Bool.or_eq_false_iff,
      Bool.or_eq_false_iff] at hEnds
    exact hEnds.1.2
  have hSpan := takeWhile_append_of_ends
    (fun c hc => isWord_of_isNamePart (hParts c hc)) hEnd
  have hNoColon : rest.head? ≠ some ':' := by
    intro hColon
    exact absurd (h ':' hColon) (by decide)
  have hName : nameOf ('p' :: Text.natDigits n ++ rest) =
      'p' :: Text.natDigits n := by
    rw [nameOf, hSpan.1, hSpan.2, if_neg hNoColon]
  have hNone : ':' ∉ 'p' :: Text.natDigits n := fun hc =>
    absurd (hParts ':' hc) (by decide)
  refine ⟨('p' :: Text.natDigits n).getLast?.or (some ':'), ?_⟩
  have hText : named n ++ rest =
      ':' :: ('p' :: Text.natDigits n ++ rest) := rfl
  rw [hText, binds, hName, if_pos ⟨rfl, hBefore, List.cons_ne_nil _ _⟩,
    binds_append hNone]

/-- A value only follows what ends in a character that may stand before a
name. -/
theorem mayStartName_of_tidy {piece : Piece} {rest : Fragment}
    (h : Tidy (piece :: rest)) {last : Option Char}
    (hLast : piece.finish ≠ .bare → last.all mayStartName = true) :
    ∀ q ∈ rest.head?, q.start = .bare → last.all mayStartName = true := by
  intro q hq hStart
  refine hLast fun hFinish => ?_
  cases rest with
  | nil => cases hq
  | cons other others =>
      obtain rfl : other = q := Option.some.inj hq
      have hTouch := (List.isChain_cons_cons.1 h).1.1
      rw [hFinish, hStart] at hTouch
      exact absurd hTouch (by decide)

/-- The names of the values of a statement are numbered in order. -/
theorem binds_charsWith {fragment : Fragment} (h : Tidy fragment) (count : Nat)
    {before : Option Char}
    (hBefore : ∀ q ∈ fragment.head?, q.start = .bare →
      before.all mayStartName = true) :
    binds before (charsWith named count fragment) =
      (List.range' (count + 1) (argsOf fragment).length).map fun n =>
        'p' :: Text.natDigits n := by
  induction fragment generalizing count before with
  | nil => rfl
  | cons piece rest ih =>
      rw [charsWith]
      rcases piece.values_cases with hNone | ⟨value, rfl⟩
      · rw [argsOf_cons hNone, hNone, Nat.add_zero]
        rcases piece.isWord_cases with ⟨w, rfl⟩ | hWord
        · rw [Piece.chars_eq hNone, Piece.text, binds_wordText]
          refine ih h.tail _ (mayStartName_of_tidy h fun hFinish => ?_)
          obtain ⟨c, hc, hMay⟩ := (Option.any_eq_true _ _).1
            (getLast?_wordText w hFinish)
          rw [hc]
          exact hMay
        · rw [binds_append (colon_notMem_chars hWord hNone _)]
          have hBare : piece.finish = .bare := by
            cases piece with
            | word w => exact absurd hWord.symm Bool.false_ne_true
            | _ => rfl
          exact ih h.tail _ (mayStartName_of_tidy h fun hFinish =>
            absurd hBare hFinish)
      · obtain ⟨last, hRead⟩ := binds_named (hBefore _ rfl rfl) (count + 1)
          (endsNumber_head?_charsWith h rfl named _)
        rw [Piece.chars, hRead, ih h.tail, args_bind, List.length_cons,
          List.range'_succ]
        · rfl
        · exact mayStartName_of_tidy h fun hFinish => absurd rfl hFinish

/-! ## What the names stand for -/

theorem natDigits_injective {m n : Nat}
    (h : Text.natDigits m = Text.natDigits n) : m = n := by
  have hNumber := congrArg (fun ds => Nat.ofDigitChars 10 ds 0) h
  simpa [Text.natDigits, Nat.ofDigitChars_ten_toDigits] using hNumber

/-- The name of a value. -/
def nameText (n : Nat) : String := "p" ++ Text.natText n

theorem nameText_injective {m n : Nat} (h : nameText m = nameText n) :
    m = n := by
  have hText := congrArg String.toList h
  rw [nameText, nameText, String.toList_append, String.toList_append] at hText
  have hDigits := List.append_cancel_left hText
  rw [Text.natText, Text.natText, String.toList_ofList, String.toList_ofList]
    at hDigits
  exact natDigits_injective hDigits

theorem lookup_zipIdx (args : List Value) (count i : Nat) :
    ((args.zipIdx count).map fun arg =>
      (nameText (arg.2 + 1), arg.1)).lookup (nameText (count + i + 1)) =
        args[i]? := by
  induction args generalizing count i with
  | nil => rfl
  | cons value rest ih =>
      rw [List.zipIdx_cons, List.map_cons, List.lookup_cons]
      cases i with
      | zero =>
          rw [Nat.add_zero, beq_self_eq_true]
          rfl
      | succ i =>
          have hOther : (nameText (count + (i + 1) + 1) ==
              nameText (count + 1)) = false := by
            rw [beq_eq_false_iff_ne]
            intro hSame
            have hEq := nameText_injective hSame
            omega
          have hRest := ih (count + 1) i
          rw [hOther, ← Nat.add_assoc, Nat.add_right_comm count i 1, hRest]
          rfl

/-- Each value is found under its name. -/
theorem lookup_namedArgs {args : List Value} {i : Nat} {value : Value}
    (h : args[i]? = some value) :
    (namedArgs args).lookup (nameText (i + 1)) = some value := by
  have hLookup := lookup_zipIdx args 0 i
  rw [Nat.zero_add, h] at hLookup
  exact hLookup

/-! ## Statements -/

theorem Statement.toList_sql (s : Statement) :
    s.sql.toList = charsWith dollar 0 s.pieces := by
  rw [Statement.sql, toList_textFrom]

theorem Statement.toList_prepare (s : Statement) :
    s.prepare.sql.toList = charsWith named 0 s.pieces := by
  rw [Statement.prepare, prepareText, String.toList_ofList, s.toList_sql,
    nameBinds_charsWith]

end TableGate.Sql
