import Mathlib.Data.List.Chain
import TableGate.Proofs.Expression.Basic
import TableGate.Proofs.Identifier
import TableGate.Proofs.Integer
import TableGate.Proofs.Sql.Paths

/-!
# Paths, as they are written and as they are sent

A column is cut at its arrows before anything in it is looked at. There is one
way to cut a text: no part keeps an arrow, and an arrow is long wherever it can
be. Blanks around a part are dropped, and what follows an arrow has to be a
name or a run of digits.

A path is sent as its quoted base and its steps, each an arrow with a quoted
name or a bare index. Without the quotes that is again a way to write the path,
so what is sent tells paths apart because what is written does.

## Main results

* `cutArrows_eq_iff`: how a text is cut, said without the walk over it.
* `ofColumn_of_isCut`: what becomes of a column that is cut in a known way.
* `WrittenPath.ofColumn_text`: a written path is read as it was meant.
* `paths_told_apart`: what is refused, and what is sent.
-/

namespace TableGate

open Text (isBlank trimChars)

namespace ColumnPath

/-! ## Cutting at arrows -/

/-- No hyphen stands right before a greater sign. -/
def ArrowFree (cs : List Char) : Prop :=
  cs.IsChain fun c d => ¬(c = '-' ∧ d = '>')

/-- An arrow and the text after it, as they stand. -/
def pieceText (piece : Arrow × List Char) : List Char :=
  piece.1.spelling.toList ++ piece.2

/-- A text with the text before its first arrow, and each arrow with the text
up to the next. What follows a short arrow does not go on with the sign that
would make it long. -/
structure IsCut (text base : List Char) (pieces : List (Arrow × List Char)) :
    Prop where
  text_eq : text = base ++ pieces.flatMap pieceText
  base_free : ArrowFree base
  piece_free : ∀ piece ∈ pieces, ArrowFree piece.2
  short : ∀ piece ∈ pieces, piece.1 = .json → piece.2.head? ≠ some '>'

theorem arrowFree_of_notMem {cs : List Char} (h : '-' ∉ cs) :
    ArrowFree cs := by
  induction cs with
  | nil => exact .nil
  | cons c rest ih =>
      refine List.isChain_cons.2 ⟨fun d _ hArrow => ?_,
        ih fun hMem => h (List.mem_cons_of_mem c hMem)⟩
      rw [hArrow.1] at h
      exact h List.mem_cons_self

/-- Texts that meet without an arrow between them have none together. -/
theorem ArrowFree.append {a b : List Char} (ha : ArrowFree a)
    (hb : ArrowFree b)
    (hMeet : ¬(a.getLast? = some '-' ∧ b.head? = some '>')) :
    ArrowFree (a ++ b) := by
  refine List.isChain_append.2 ⟨ha, hb, fun c hc d hd hArrow => hMeet ?_⟩
  rw [Option.mem_def.1 hc, Option.mem_def.1 hd, hArrow.1, hArrow.2]
  exact ⟨rfl, rfl⟩

/-- Where no arrow starts, the first character belongs to the text before the
first arrow. -/
theorem cutArrows_cons {c : Char} {cs : List Char}
    (h : ¬(c = '-' ∧ cs.head? = some '>')) :
    cutArrows (c :: cs) = (c :: (cutArrows cs).1, (cutArrows cs).2) := by
  rw [cutArrows]
  · rintro rest rfl rfl
    exact h ⟨rfl, rfl⟩
  · rintro rest rfl rfl
    exact h ⟨rfl, rfl⟩

theorem cutArrows_arrow (arrow : Arrow) {rest : List Char}
    (h : arrow = .json → rest.head? ≠ some '>') :
    cutArrows (arrow.spelling.toList ++ rest) =
      ([], (arrow, (cutArrows rest).1) :: (cutArrows rest).2) := by
  cases arrow with
  | text => rfl
  | json =>
      show cutArrows ('-' :: '>' :: rest) = _
      rw [cutArrows]
      rintro later rfl
      exact h rfl rfl

theorem cutArrows_append {part rest : List Char} (hPart : ArrowFree part)
    (hRest : rest.head? ≠ some '>') :
    cutArrows (part ++ rest) =
      (part ++ (cutArrows rest).1, (cutArrows rest).2) := by
  induction part with
  | nil => rfl
  | cons c part ih =>
      have hNoArrow : ¬(c = '-' ∧ (part ++ rest).head? = some '>') := by
        rintro ⟨rfl, hNext⟩
        cases part with
        | nil => exact hRest hNext
        | cons d part =>
            exact (List.isChain_cons_cons.1 hPart).1
              ⟨rfl, Option.some.inj hNext⟩
      rw [List.cons_append, cutArrows_cons hNoArrow,
        ih (List.isChain_cons.1 hPart).2]
      rfl

/-- Pieces start with their arrows. -/
theorem head?_pieces (pieces : List (Arrow × List Char)) :
    (pieces.flatMap pieceText).head? ≠ some '>' := by
  cases pieces with
  | nil => simp
  | cons piece others =>
      obtain ⟨arrow, part⟩ := piece
      cases arrow <;> simp [pieceText, Arrow.spelling]

theorem head?_append_pieces {part : List Char}
    (h : part.head? ≠ some '>') (pieces : List (Arrow × List Char)) :
    (part ++ pieces.flatMap pieceText).head? ≠ some '>' := by
  cases part with
  | nil => exact head?_pieces pieces
  | cons c part => exact h

variable {text base : List Char} {pieces : List (Arrow × List Char)}

theorem IsCut.cutArrows_eq (h : IsCut text base pieces) :
    cutArrows text = (base, pieces) := by
  induction pieces generalizing text base with
  | nil =>
      rw [h.text_eq, cutArrows_append h.base_free (head?_pieces [])]
      simp [cutArrows]
  | cons piece others ih =>
      obtain ⟨arrow, part⟩ := piece
      have hRest : IsCut (part ++ others.flatMap pieceText) part others :=
        ⟨rfl, h.piece_free _ List.mem_cons_self,
          fun p hp => h.piece_free p (List.mem_cons_of_mem _ hp),
          fun p hp => h.short p (List.mem_cons_of_mem _ hp)⟩
      have hArrow : arrow = .json →
          (part ++ others.flatMap pieceText).head? ≠ some '>' := fun hJson =>
        head?_append_pieces (h.short _ List.mem_cons_self hJson) others
      rw [h.text_eq, cutArrows_append h.base_free (head?_pieces _),
        List.flatMap_cons, pieceText, List.append_assoc,
        cutArrows_arrow arrow hArrow, ih hRest, List.append_nil]

/-- An arrow in front of a text that is cut. -/
theorem IsCut.arrow (h : IsCut text base pieces) (arrow : Arrow)
    (hShort : arrow = .json → text.head? ≠ some '>') :
    IsCut (arrow.spelling.toList ++ text) [] ((arrow, base) :: pieces) := by
  have hText := h.text_eq
  refine ⟨by rw [hText]; simp [pieceText], .nil,
    List.forall_mem_cons.2 ⟨h.base_free, h.piece_free⟩,
    List.forall_mem_cons.2 ⟨fun hJson hNext => hShort hJson ?_, h.short⟩⟩
  rw [hText, List.head?_append, hNext]
  rfl

/-- A character in front of a text that is cut, if no arrow starts there. -/
theorem IsCut.cons (h : IsCut text base pieces) {c : Char}
    (hNoArrow : ¬(c = '-' ∧ text.head? = some '>')) :
    IsCut (c :: text) (c :: base) pieces := by
  refine ⟨by rw [h.text_eq]; rfl,
    List.isChain_cons.2 ⟨fun d hd hArrow => hNoArrow ⟨hArrow.1, ?_⟩,
      h.base_free⟩, h.piece_free, h.short⟩
  rw [h.text_eq, List.head?_append, Option.mem_def.1 hd, hArrow.2]
  rfl

theorem isCut_cutArrows (cs : List Char) :
    IsCut cs (cutArrows cs).1 (cutArrows cs).2 := by
  induction cs using cutArrows.induct with
  | case1 rest part others hCut ih =>
      rw [hCut] at ih
      rw [cutArrows, hCut]
      exact ih.arrow .text Arrow.noConfusion
  | case2 rest hOther part others hCut ih =>
      rw [hCut] at ih
      rw [cutArrows.eq_2 rest hOther, hCut]
      refine ih.arrow .json fun _ hNext => ?_
      obtain ⟨later, rfl⟩ := List.head?_eq_some_iff.1 hNext
      exact hOther later rfl
  | case3 c rest hText hJson part others hCut ih =>
      rw [hCut] at ih
      rw [cutArrows.eq_3 c rest hText hJson, hCut]
      refine ih.cons fun hArrow => ?_
      obtain ⟨later, rfl⟩ := List.head?_eq_some_iff.1 hArrow.2
      exact hJson later hArrow.1 rfl
  | case4 => exact ⟨rfl, .nil, List.forall_mem_nil _, List.forall_mem_nil _⟩

/-- There is one way to cut a text, and it is the one that is taken. -/
theorem cutArrows_eq_iff :
    cutArrows text = (base, pieces) ↔ IsCut text base pieces := by
  constructor
  · intro h
    have hCut := isCut_cutArrows text
    rwa [h] at hCut
  · exact IsCut.cutArrows_eq

/-! ## Blanks around a column -/

/-- A piece without the blanks around what follows its arrow. -/
def trimPiece (piece : Arrow × List Char) : Arrow × List Char :=
  (piece.1, trimChars piece.2)

theorem notMem_of_blank {blanks : List Char}
    (h : ∀ c ∈ blanks, isBlank c = true) {c : Char} (hc : isBlank c = false) :
    c ∉ blanks := by
  intro hMem
  rw [h c hMem] at hc
  cases hc

theorem head?_of_blank {blanks : List Char}
    (h : ∀ c ∈ blanks, isBlank c = true) : blanks.head? ≠ some '>' := fun hc =>
  notMem_of_blank h (by decide) (List.mem_of_mem_head? hc)

/-- Blanks around a text that is cut stand around its first and its last
part. -/
theorem IsCut.exists_around (h : IsCut text base pieces)
    {before after : List Char} (hBefore : ∀ c ∈ before, isBlank c = true)
    (hAfter : ∀ c ∈ after, isBlank c = true) :
    ∃ wide wides, IsCut (before ++ text ++ after) wide wides ∧
      trimChars wide = trimChars base ∧
        wides.map trimPiece = pieces.map trimPiece := by
  have hLead : ArrowFree before :=
    arrowFree_of_notMem (notMem_of_blank hBefore (by decide))
  have hTail : ArrowFree after :=
    arrowFree_of_notMem (notMem_of_blank hAfter (by decide))
  have hStart : before.getLast? ≠ some '-' := fun hc =>
    notMem_of_blank hBefore (by decide) (List.mem_of_mem_getLast? hc)
  have hEnd := head?_of_blank hAfter
  have hNone : ∀ c ∈ ([] : List Char), isBlank c = true :=
    List.forall_mem_nil _
  have hText := h.text_eq
  rcases List.eq_nil_or_concat' pieces with rfl | ⟨others, last, rfl⟩
  · refine ⟨before ++ base ++ after, [],
      ⟨by rw [hText]; simp, ?_, List.forall_mem_nil _, List.forall_mem_nil _⟩,
      Text.trimChars_around hBefore hAfter base, rfl⟩
    exact (hLead.append h.base_free fun hMeet => hStart hMeet.1).append hTail
      fun hMeet => hEnd hMeet.2
  · have hPieces := List.forall_mem_append.1 h.piece_free
    have hShorts := List.forall_mem_append.1 h.short
    have hLast := List.forall_mem_singleton.1 hPieces.2
    refine ⟨before ++ base, others ++ [(last.1, last.2 ++ after)],
      ⟨?_, hLead.append h.base_free fun hMeet => hStart hMeet.1,
        List.forall_mem_append.2 ⟨hPieces.1, List.forall_mem_singleton.2
          (hLast.append hTail fun hMeet => hEnd hMeet.2)⟩,
        List.forall_mem_append.2 ⟨hShorts.1, List.forall_mem_singleton.2
          fun hJson hNext => ?_⟩⟩, ?_, ?_⟩
    · rw [hText]
      simp [pieceText]
    · have hShort := List.forall_mem_singleton.1 hShorts.2 hJson
      cases hPart : last.2 with
      | nil =>
          rw [hPart] at hNext
          exact hEnd hNext
      | cons c rest =>
          rw [hPart] at hNext hShort
          exact hShort hNext
    · have hWide := Text.trimChars_around hBefore hNone base
      rwa [List.append_nil] at hWide
    · have hWide := Text.trimChars_around hNone hAfter last.2
      rw [List.nil_append] at hWide
      simp [trimPiece, hWide]

/-- A step is read from what is left without the blanks. -/
theorem mapM_step?_trimPiece (pieces : List (Arrow × List Char)) :
    (pieces.map trimPiece).mapM step? = pieces.mapM step? := by
  induction pieces with
  | nil => rfl
  | cons piece others ih =>
      have hStep : step? (trimPiece piece) = step? piece := by
        rw [step?, step?, trimPiece, Text.trimChars_trimChars]
      rw [List.map_cons, List.mapM_cons, List.mapM_cons, hStep, ih]

/-- What becomes of a column that is cut in a known way. The blanks around it
may be dropped before the cut or after it. -/
theorem ofColumn_of_isCut {column : String}
    (h : IsCut column.toList base pieces) :
    ofColumn column = (pieces.mapM step?).elim (refuse (.jsonPath column))
      fun steps => .ok ⟨.ofList (trimChars base), steps⟩ := by
  obtain ⟨before, after, hText, hBefore, hAfter⟩ :=
    Text.exists_eq_trimChars column.toList
  obtain ⟨wide, wides, hWide, hBase, hPieces⟩ :=
    (isCut_cutArrows (trimChars column.toList)).exists_around hBefore hAfter
  rw [← hText] at hWide
  obtain ⟨rfl, rfl⟩ := Prod.mk.inj (h.cutArrows_eq.symm.trans
    hWide.cutArrows_eq)
  rw [ofColumn, hBase, ← mapM_step?_trimPiece pieces, hPieces,
    mapM_step?_trimPiece]
  cases cutArrows (trimChars column.toList) with
  | mk first rest =>
      dsimp only
      cases rest.mapM step? with
      | none => rfl
      | some steps => rfl

/-! ## Keys -/

/-- What may follow an arrow: a name or a run of digits. -/
def IsKey (cs : List Char) : Prop := isName cs = true ∨ isDigits cs = true

/-- Some arrow of a column is followed by neither a name nor digits, blanks
aside. -/
def HasStrayKey (column : String) : Prop :=
  ∃ base pieces, IsCut column.toList base pieces ∧
    ∃ piece ∈ pieces, ¬IsKey (trimChars piece.2)

theorem isSome_ofString?_iff {s : String} :
    (PathKey.ofString? s).isSome = true ↔ IsKey s.toList := by
  unfold PathKey.ofString? IsKey
  split
  · next name hName =>
      have hSome := Identifier.isSome_ofString? (s := s)
      rw [hName] at hSome
      simp [← hSome]
  · next hName =>
      have hNone := Identifier.isSome_ofString? (s := s)
      rw [hName] at hNone
      unfold Digits.ofString?
      by_cases hDigits : isDigits s.toList = true
      · simp [hDigits]
      · simp [hDigits, ← hNone]

theorem isSome_step?_iff {piece : Arrow × List Char} :
    (step? piece).isSome = true ↔ IsKey (trimChars piece.2) := by
  rw [step?, Option.isSome_map, isSome_ofString?_iff, String.toList_ofList]

/-- A column is a path exactly if none of its keys is stray. -/
theorem exists_ofColumn_iff {column : String} :
    (∃ path, ofColumn column = .ok path) ↔ ¬HasStrayKey column := by
  have hCut := isCut_cutArrows column.toList
  have hRead := ofColumn_of_isCut hCut
  constructor
  · rintro ⟨path, hPath⟩ ⟨base, pieces, hOther, piece, hMem, hStray⟩
    rw [ofColumn_of_isCut hOther] at hPath
    cases hSteps : pieces.mapM step? with
    | none =>
        rw [hSteps] at hPath
        exact Result.refuse_ne_ok hPath
    | some steps =>
        have hSome : (pieces.mapM step?).isSome = true := by
          rw [hSteps]
          rfl
        exact hStray (isSome_step?_iff.1
          (Result.isSome_mapM.1 hSome piece hMem))
  · intro h
    have hSome : ((cutArrows column.toList).2.mapM step?).isSome = true := by
      refine Result.isSome_mapM.2 fun piece hMem => isSome_step?_iff.2 ?_
      by_contra hStray
      exact h ⟨_, _, hCut, piece, hMem, hStray⟩
    obtain ⟨steps, hSteps⟩ := Option.isSome_iff_exists.1 hSome
    rw [hSteps] at hRead
    exact ⟨_, hRead⟩

/-- A column that is no path is refused as one. -/
theorem ofColumn_eq_refuse_iff {column : String} :
    ofColumn column = refuse (.jsonPath column) ↔ HasStrayKey column := by
  have hRead := ofColumn_of_isCut (isCut_cutArrows column.toList)
  constructor
  · intro h
    by_contra hNone
    obtain ⟨path, hPath⟩ := exists_ofColumn_iff.2 hNone
    rw [h] at hPath
    exact Result.refuse_ne_ok hPath
  · intro h
    cases hSteps : (cutArrows column.toList).2.mapM step? with
    | none =>
        rw [hSteps] at hRead
        exact hRead
    | some steps =>
        rw [hSteps] at hRead
        exact absurd ⟨_, hRead⟩ fun hPath => exists_ofColumn_iff.1 hPath h

end ColumnPath

namespace PathKey

/-- A name does not start with a digit. -/
theorem isName_of_isDigits {cs : List Char} (h : isDigits cs = true) :
    isName cs = false := by
  cases cs with
  | nil => rfl
  | cons c rest =>
      have hDigit := Text.toNat_of_isDigit
        (isDigit_of_mem_isDigits h c List.mem_cons_self)
      have hStart : isNameStart c = false := by
        rw [Bool.eq_false_iff]
        intro hName
        delta isNameStart Char.isAlpha Char.isUpper Char.isLower at hName
        simp only [Bool.or_eq_true, Bool.and_eq_true, decide_eq_true_eq,
          beq_iff_eq, ge_iff_le, UInt32.le_iff_toNat_le] at hName
        change ((65 ≤ c.toNat ∧ c.toNat ≤ 90) ∨
          (97 ≤ c.toNat ∧ c.toNat ≤ 122)) ∨ c = '_' at hName
        rcases hName with (hUpper | hLower) | rfl
        · omega
        · omega
        · exact absurd hDigit.2 (by decide)
      rw [isName, hStart, Bool.false_and]

theorem ofString?_spelling (key : PathKey) :
    ofString? key.spelling = some key := by
  cases key with
  | field name => rw [ofString?, spelling, name.ofString?_text]
  | index digits =>
      have hName := isName_of_isDigits digits.isDigits
      rw [ofString?, spelling, Identifier.ofString?, dif_neg (by simp [hName]),
        Digits.ofString?, dif_pos digits.isDigits]
      rfl

/-- The characters of a key are those of names. -/
theorem isNamePart_of_mem (key : PathKey) {c : Char}
    (h : c ∈ key.spelling.toList) : isNamePart c = true := by
  cases key with
  | field name => exact isNamePart_of_mem_isName name.isName c h
  | index digits =>
      have hDigit := isDigit_of_mem_isDigits digits.isDigits c h
      rw [isNamePart, Char.isAlphanum, hDigit, Bool.or_true, Bool.true_or]

end PathKey

namespace ColumnPath

/-! ## Paths as they are written -/

/-- A step with the blanks around its key. -/
structure WrittenStep where
  step : Step
  before : Blanks := .none
  after : Blanks := .none

/-- A path with the blanks around its base and its keys. -/
structure WrittenPath where
  base : Identifier
  steps : List WrittenStep
  before : Blanks := .none
  after : Blanks := .none

/-- The arrow of a step and the text of its key. -/
def WrittenStep.piece (s : WrittenStep) : Arrow × List Char :=
  (s.step.arrow, s.before.around s.step.key.spelling.toList s.after)

/-- The text of a path. -/
def WrittenPath.text (w : WrittenPath) : List Char :=
  w.before.around w.base.text.toList w.after ++
    w.steps.flatMap fun s => pieceText s.piece

/-- The path that is meant. -/
def WrittenPath.path (w : WrittenPath) : ColumnPath :=
  ⟨w.base.text, w.steps.map (·.step)⟩

section Around

variable {core : List Char} (hCore : ∀ c ∈ core, isNamePart c = true)
  (before after : Blanks)
include hCore

theorem trimChars_around : trimChars (before.around core after) = core :=
  Text.trimChars_between before.blank after.blank
    (fun c hc => Identifier.isBlank_of_isNamePart
      (hCore c (List.mem_of_mem_head? hc)))
    fun c hc => Identifier.isBlank_of_isNamePart
      (hCore c (List.mem_of_mem_getLast? hc))

/-- Neither blanks nor the characters of names make an arrow. -/
theorem notMem_around {c : Char} (hBlank : isBlank c = false)
    (hPart : isNamePart c = false) : c ∉ before.around core after := by
  intro hMem
  rcases List.mem_append.1 hMem with hLead | hAfter
  · rcases List.mem_append.1 hLead with hBefore | hHere
    · exact notMem_of_blank before.blank hBlank hBefore
    · rw [hCore c hHere] at hPart
      cases hPart
  · exact notMem_of_blank after.blank hBlank hAfter

theorem arrowFree_around : ArrowFree (before.around core after) :=
  arrowFree_of_notMem
    (notMem_around hCore before after (by decide) (by decide))

theorem head?_around : (before.around core after).head? ≠ some '>' := fun hc =>
  notMem_around hCore before after (by decide) (by decide)
    (List.mem_of_mem_head? hc)

end Around

namespace WrittenPath

theorem isCut_text (w : WrittenPath) :
    IsCut w.text (w.before.around w.base.text.toList w.after)
      (w.steps.map WrittenStep.piece) := by
  refine ⟨by rw [text, List.flatMap_map],
    arrowFree_around (isNamePart_of_mem_isName w.base.isName) _ _, ?_, ?_⟩
  · intro piece hPiece
    obtain ⟨s, -, rfl⟩ := List.mem_map.1 hPiece
    exact arrowFree_around (fun c => s.step.key.isNamePart_of_mem) _ _
  · intro piece hPiece _
    obtain ⟨s, -, rfl⟩ := List.mem_map.1 hPiece
    exact head?_around (fun c => s.step.key.isNamePart_of_mem) _ _

theorem step?_piece (s : WrittenStep) : step? s.piece = some s.step := by
  have hTrim := trimChars_around (fun c => s.step.key.isNamePart_of_mem)
    s.before s.after
  rw [step?, WrittenStep.piece, hTrim, String.ofList_toList,
    PathKey.ofString?_spelling]
  rfl

theorem mapM_step?_pieces (steps : List WrittenStep) :
    (steps.map WrittenStep.piece).mapM step? = some (steps.map (·.step)) := by
  induction steps with
  | nil => rfl
  | cons s steps ih =>
      rw [List.map_cons, List.mapM_cons, step?_piece, ih]
      rfl

/-- A written path is read as it was meant, wherever there are blanks. -/
theorem ofColumn_text (w : WrittenPath) :
    ofColumn (.ofList w.text) = .ok w.path := by
  have hCut := w.isCut_text
  rw [← String.toList_ofList (l := w.text)] at hCut
  rw [ofColumn_of_isCut hCut, mapM_step?_pieces,
    trimChars_around (isNamePart_of_mem_isName w.base.isName),
    String.ofList_toList]
  rfl

end WrittenPath

/-! ## Paths as they are sent -/

/-- The text of a key in a statement: a quoted name or a bare index. -/
def sentKey : PathKey → List Char
  | .field name => '\x27' :: name.text.toList ++ ['\x27']
  | .index digits => digits.text.toList

/-- The text of a step in a statement. -/
def sentStep (step : Step) : List Char :=
  step.arrow.spelling.toList ++ sentKey step.key

theorem charsWith_flatMap_stepPieces (mark : Nat → List Char) (count : Nat)
    (steps : List Step) :
    Sql.charsWith mark count (steps.flatMap Sql.stepPieces) =
      steps.flatMap sentStep := by
  induction steps generalizing count with
  | nil => rfl
  | cons step steps ih =>
      have hStep : '-' :: Sql.stepTail step = sentStep step := by
        obtain ⟨arrow, key⟩ := step
        cases arrow <;> cases key <;>
          simp [Sql.stepTail, sentStep, sentKey, Arrow.spelling]
      rw [List.flatMap_cons, Sql.charsWith_step, ih, List.flatMap_cons,
        ← hStep, List.cons_append]

namespace WrittenPath

/-- The text of a path in a statement. -/
def sent (w : WrittenPath) : List Char :=
  w.base.quoted.toList ++ w.path.steps.flatMap sentStep

/-- A path without its blanks. -/
def tight (w : WrittenPath) : WrittenPath where
  base := w.base
  steps := w.path.steps.map fun step => { step }

theorem path_tight (w : WrittenPath) : w.tight.path = w.path := by
  simp [path, tight]

/-- What is sent for a path: its quoted base and its steps, in a statement
with any number of values before it. -/
theorem exists_pathFragment_sent (w : WrittenPath) :
    ∃ fragment, Sql.pathFragment w.path = .ok fragment ∧
      ∀ count, (Sql.textFrom count fragment).toList = w.sent := by
  refine ⟨.column w.base :: w.path.steps.flatMap Sql.stepPieces, ?_, ?_⟩
  · rw [Sql.pathFragment, path, w.base.column_text]
    rfl
  · intro count
    rw [Sql.toList_textFrom, Sql.charsWith, charsWith_flatMap_stepPieces, sent]
    rfl

end WrittenPath

/-- A text without its quotes. -/
def unquoted (text : List Char) : List Char :=
  text.filter fun c => !(c == '\x22' || c == '\x27')

theorem unquoted_append (a b : List Char) :
    unquoted (a ++ b) = unquoted a ++ unquoted b :=
  List.filter_append ..

theorem unquoted_eq_self {cs : List Char} (h : ∀ c ∈ cs, isNamePart c = true) :
    unquoted cs = cs := by
  refine List.filter_eq_self.2 fun c hc => ?_
  have hDouble := ne_of_isNamePart (d := '\x22') (h c hc) (by decide)
  have hSingle := ne_of_isNamePart (d := '\x27') (h c hc) (by decide)
  simp [hDouble, hSingle]

/-- Quotes around a name are all that quoting adds. -/
theorem unquoted_quote {quote : Char} (hQuote : unquoted [quote] = [])
    (name : Identifier) :
    unquoted (quote :: name.text.toList ++ [quote]) = name.text.toList := by
  rw [← List.singleton_append, unquoted_append, unquoted_append, hQuote,
    unquoted_eq_self (isNamePart_of_mem_isName name.isName), List.nil_append,
    List.append_nil]

theorem unquoted_sentStep (step : Step) :
    unquoted (sentStep step) =
      step.arrow.spelling.toList ++ step.key.spelling.toList := by
  have hArrow : unquoted step.arrow.spelling.toList =
      step.arrow.spelling.toList := by
    cases step.arrow <;> decide
  have hKey : unquoted (sentKey step.key) = step.key.spelling.toList := by
    cases hCase : step.key with
    | field name => exact unquoted_quote (by decide) name
    | index digits =>
        exact unquoted_eq_self fun c => (PathKey.index digits).isNamePart_of_mem
  rw [sentStep, unquoted_append, hArrow, hKey]

theorem unquoted_sentSteps (steps : List Step) :
    unquoted (steps.flatMap sentStep) =
      (steps.map fun step => { step : WrittenStep }).flatMap
        fun s => pieceText s.piece := by
  induction steps with
  | nil => rfl
  | cons step steps ih =>
      rw [List.flatMap_cons, unquoted_append, unquoted_sentStep, ih]
      simp [pieceText, WrittenStep.piece, Blanks.around, Blanks.none]

/-- Without its quotes, what is sent for a path is a way to write it. -/
theorem WrittenPath.unquoted_sent (w : WrittenPath) :
    unquoted w.sent = w.tight.text := by
  rw [sent, unquoted_append, unquoted_sentSteps, Sql.toList_quoted,
    unquoted_quote (by decide), text, tight]
  simp [Blanks.around, Blanks.none]

/-- What is sent tells paths apart. -/
theorem WrittenPath.sent_eq_iff {w v : WrittenPath} :
    w.sent = v.sent ↔ w.path = v.path := by
  constructor
  · intro h
    have hText : w.tight.text = v.tight.text := by
      rw [← w.unquoted_sent, h, v.unquoted_sent]
    have hRead := w.tight.ofColumn_text
    rw [hText, v.tight.ofColumn_text] at hRead
    rw [← w.path_tight, ← v.path_tight]
    exact (Except.ok.inj hRead).symm
  · intro h
    have hBase : w.base = v.base :=
      Identifier.eq_of_text (congrArg ColumnPath.base h)
    rw [sent, sent, h, hBase]

/-! ## The paths of a service -/

/-- A path is read as it was written, with blanks around its base and its keys
or without. A column is refused exactly if what follows one of its arrows is
neither a name nor a run of digits. Two paths are sent as one text only if they
are one path, and a path gives text exactly if its last arrow is the long
one. -/
theorem paths_told_apart (w v : WrittenPath) (column : String) :
    ofColumn (.ofList w.text) = .ok w.path ∧
      (ofColumn column = refuse (.jsonPath column) ↔ HasStrayKey column) ∧
      ((∃ path, ofColumn column = .ok path) ↔ ¬HasStrayKey column) ∧
      (∃ a b, Sql.pathFragment w.path = .ok a ∧
        Sql.pathFragment v.path = .ok b ∧
          ∀ m n, (Sql.textFrom m a).toList = w.sent ∧
            (Sql.textFrom m a = Sql.textFrom n b ↔ w.path = v.path)) ∧
      (w.path.extractsText = true ↔
        ∃ s, w.steps.getLast? = some s ∧ s.step.arrow = .text) := by
  refine ⟨w.ofColumn_text, ofColumn_eq_refuse_iff, exists_ofColumn_iff, ?_, ?_⟩
  · obtain ⟨a, hFirst, hFirstText⟩ := w.exists_pathFragment_sent
    obtain ⟨b, hSecond, hSecondText⟩ := v.exists_pathFragment_sent
    refine ⟨a, b, hFirst, hSecond, fun m n => ⟨hFirstText m, ?_⟩⟩
    rw [← WrittenPath.sent_eq_iff, ← hFirstText m, ← hSecondText n,
      String.toList_inj]
  · rw [extractsText, WrittenPath.path, List.getLast?_map]
    cases w.steps.getLast? with
    | none => simp
    | some s => simp

end ColumnPath

end TableGate
