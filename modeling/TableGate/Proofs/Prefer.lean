import Mathlib.Data.List.Basic
import Mathlib.Data.List.Induction
import TableGate.Prefer
import TableGate.Proofs.Text

/-!
# What a header of preferences says

A header is cut at its commas and semicolons, in whatever mix they stand. A
piece that has an equals sign says something: a name and a value, without the
blanks around them and without regard to case. Each preference listens for one
name and for the words of its values, and of all pieces that it understands the
last one counts.

The reader trims a whole token and makes it small before it looks for the
equals sign, by rules that may change the length of a text and look at the
neighbours of a letter. Neither makes a difference for names and words.

## Main results

* `ofChars_eq_iff`: a token is read as a name and the word of a value exactly
  if its piece says them.
* `last_understood_counts`: each preference is what the last piece says that it
  understands, so pieces that none of them understands change nothing, and
  neither does the order of pieces with different names.
-/

namespace TableGate.Preferences

open Text (IsDirect isBlank lowerChars trimChars)

/-! ## Pieces -/

/-- The characters between which the pieces of a header stand. -/
def isSeparator (c : Char) : Bool := c == ',' || c == ';'

/-- The pieces of a header. -/
def pieces (header : String) : List (List Char) :=
  header.toList.splitOnP isSeparator

/-- A text without the blanks around it, in small letters. -/
def plainForm (cs : List Char) : List Char := (trimChars cs).map Char.toLower

/-- The name and the value that a piece says, if it has an equals sign. -/
def said? (piece : List Char) : Option (List Char × List Char) :=
  (Text.cut? '=' piece).map fun cut => (plainForm cut.1, plainForm cut.2)

/-- Whether a piece says a name, whatever the value. -/
def hasName (name : String) (piece : List Char) : Bool :=
  (said? piece).any fun said => said.1 == name.toList

/-! ## Preferences -/

/-- A text of visible characters that no cut falls into. The k is left out
because a character outside of ASCII is made small to it. -/
def IsWord (s : String) : Prop :=
  s.toList ≠ [] ∧ ∀ x ∈ s.toList,
    0x21 ≤ x.toNat ∧ x.toNat ≤ 0x7e ∧ x ≠ 'k' ∧ x ≠ '='

instance (s : String) : Decidable (IsWord s) :=
  letI : Decidable (∀ x ∈ s.toList,
      0x21 ≤ x.toNat ∧ x.toNat ≤ 0x7e ∧ x ≠ 'k' ∧ x ≠ '=') :=
    List.decidableBAll _ _
  inferInstanceAs (Decidable (_ ∧ _))

/-- A preference: its name, and the words for its values. -/
structure Setting (α : Type) where
  name : String
  word : α → String
  ofWord? : String → Option α
  name_isWord : IsWord name
  word_isWord : ∀ value, IsWord (word value)
  ofWord?_eq_some_iff : ∀ {s value}, ofWord? s = some value ↔ s = word value

namespace Setting

variable {α : Type}

/-- The piece says the name of the preference and the word of a value. -/
def Gives (setting : Setting α) (piece : List Char) (value : α) : Prop :=
  said? piece = some (setting.name.toList, (setting.word value).toList)

/-- What the last of the pieces says that give a value; nothing if none does. -/
inductive Last (setting : Setting α) (pieces : List (List Char)) :
    Option α → Prop
  | none (h : ∀ piece ∈ pieces, ∀ value, ¬setting.Gives piece value) :
      Last setting pieces none
  | some {front back : List (List Char)} {piece : List Char} {value : α}
      (hPieces : pieces = front ++ piece :: back)
      (h : setting.Gives piece value)
      (hLast : ∀ later ∈ back, ∀ value, ¬setting.Gives later value) :
      Last setting pieces (some value)

/-- The value that a piece gives. -/
def given? (setting : Setting α) (piece : List Char) : Option α :=
  (said? piece).bind fun said =>
    if said.1 = setting.name.toList then setting.ofWord? (.ofList said.2)
    else none

/-- The value that a token of the reader gives. -/
def ofToken? (setting : Setting α) (token : Token) : Option α :=
  if token.name = setting.name then setting.ofWord? token.value else none

variable {setting : Setting α} {value : α}

theorem given?_eq_some_iff {piece : List Char} :
    setting.given? piece = some value ↔ setting.Gives piece value := by
  unfold given? Gives
  constructor
  · intro h
    obtain ⟨⟨name, word⟩, hSaid, h⟩ := Option.bind_eq_some_iff.1 h
    rw [hSaid]
    split at h
    · next hName =>
        have hWord := setting.ofWord?_eq_some_iff.1 h
        simp only at hName hWord
        rw [hName, ← hWord, String.toList_ofList]
    · cases h
  · intro h
    rw [h]
    exact (if_pos rfl).trans
      (setting.ofWord?_eq_some_iff.2 String.ofList_toList)

theorem ofToken?_eq_some_iff {token : Token} :
    setting.ofToken? token = some value ↔
      token = ⟨setting.name, setting.word value⟩ := by
  obtain ⟨name, word⟩ := token
  rw [Token.mk.injEq]
  unfold ofToken?
  split
  · next hName => rw [setting.ofWord?_eq_some_iff, and_iff_right hName]
  · next hName => exact iff_of_false (by simp) fun h => hName h.1

/-- The last of the values that are given is what the last piece says. -/
theorem last_getLast? (setting : Setting α) (pieces : List (List Char)) :
    setting.Last pieces (pieces.filterMap setting.given?).getLast? := by
  have hAbsent : ∀ {piece}, setting.given? piece = none →
      ∀ value, ¬setting.Gives piece value := by
    intro piece hNone value hGives
    rw [given?_eq_some_iff.2 hGives] at hNone
    cases hNone
  induction pieces using List.reverseRecOn with
  | nil => exact .none fun _ h => absurd h List.not_mem_nil
  | append_singleton pieces piece ih =>
      rw [List.filterMap_append]
      cases hGiven : setting.given? piece with
      | some value =>
          rw [List.filterMap_cons_some hGiven, List.filterMap_nil,
            List.getLast?_concat]
          exact .some rfl (given?_eq_some_iff.1 hGiven)
            fun _ h => absurd h List.not_mem_nil
      | none =>
          rw [List.filterMap_cons_none hGiven, List.filterMap_nil,
            List.append_nil]
          generalize (pieces.filterMap setting.given?).getLast? = last at ih
          cases ih with
          | none h =>
              refine .none fun other hOther => ?_
              rcases List.mem_append.1 hOther with hBefore | hHere
              · exact h other hBefore
              · rw [List.mem_singleton.1 hHere]
                exact hAbsent hGiven
          | @some front back last value hPieces h hLast =>
              have hLonger :
                  pieces ++ [piece] = front ++ last :: (back ++ [piece]) := by
                rw [hPieces, List.append_assoc, List.cons_append]
              refine .some hLonger h fun later hLater => ?_
              rcases List.mem_append.1 hLater with hBack | hHere
              · exact hLast later hBack
              · rw [List.mem_singleton.1 hHere]
                exact hAbsent hGiven

/-- What a header gives a preference depends on the pieces with its name. -/
theorem filterMap_given?_congr {a b : List (List Char)}
    (h : a.filter (hasName setting.name) = b.filter (hasName setting.name)) :
    a.filterMap setting.given? = b.filterMap setting.given? := by
  have hNamed : ∀ pieces : List (List Char), pieces.filterMap setting.given? =
      (pieces.filter (hasName setting.name)).filterMap setting.given? := by
    intro pieces
    rw [List.filterMap_filter]
    refine List.filterMap_congr fun piece _ => ?_
    split
    · rfl
    · next hOther =>
        refine Option.eq_none_iff_forall_not_mem.2 fun value hValue => hOther ?_
        rw [hasName, given?_eq_some_iff.1 hValue]
        exact beq_self_eq_true _
  rw [hNamed a, hNamed b, h]

end Setting

/-! ## Reading a token -/

/-- Both sides of a cut without the blanks around them. -/
def trimmed (cut : List Char × List Char) : List Char × List Char :=
  (trimChars cut.1, trimChars cut.2)

/-- Blanks around a text change neither side of its first equals sign. -/
theorem map_cut?_trimChars (cs : List Char) :
    (Text.cut? '=' (trimChars cs)).map trimmed =
      (Text.cut? '=' cs).map trimmed := by
  obtain ⟨before, after, hText, hBefore, hAfter⟩ := Text.exists_eq_trimChars cs
  have hOutside : ∀ {blanks : List Char},
      (∀ c ∈ blanks, isBlank c = true) → '=' ∉ blanks :=
    fun hBlanks hMem => absurd (hBlanks _ hMem) (by decide)
  by_cases hEquals : '=' ∈ trimChars cs
  · obtain ⟨left, right, hSplit, hFirst⟩ := List.eq_append_cons_of_mem hEquals
    have hInner : Text.cut? '=' (trimChars cs) = some (left, right) :=
      Text.cut?_eq_some_iff.2 ⟨hSplit, hFirst⟩
    have hOuter : Text.cut? '=' cs = some (before ++ left, right ++ after) := by
      refine Text.cut?_eq_some_iff.2 ⟨?_, ?_⟩
      · rw [hText, hSplit]
        simp only [List.append_assoc, List.cons_append]
      · rw [List.mem_append, not_or]
        exact ⟨hOutside hBefore, hFirst⟩
    have hLeft : trimChars (before ++ left) = trimChars left := by
      have hNone : ∀ c ∈ ([] : List Char), isBlank c = true := nofun
      rw [← List.append_nil (before ++ left),
        Text.trimChars_around hBefore hNone]
    have hRight : trimChars (right ++ after) = trimChars right := by
      have hNone : ∀ c ∈ ([] : List Char), isBlank c = true := nofun
      exact Text.trimChars_around hNone hAfter right
    rw [hInner, hOuter, Option.map_some, Option.map_some, trimmed, trimmed,
      hLeft, hRight]
  · have hNone : '=' ∉ cs := by
      rw [hText, List.mem_append, List.mem_append, not_or, not_or]
      exact ⟨⟨hOutside hBefore, hEquals⟩, hOutside hAfter⟩
    rw [Text.cut?_eq_none hEquals, Text.cut?_eq_none hNone]

/-- An equals sign stands where it stood before the text was made small. -/
theorem cut?_map_toLower (cs : List Char) :
    Text.cut? '=' (cs.map Char.toLower) = (Text.cut? '=' cs).map fun cut =>
      (cut.1.map Char.toLower, cut.2.map Char.toLower) := by
  induction cs with
  | nil => rfl
  | cons c cs ih =>
      rw [List.map_cons, Text.cut?, Text.cut?, ih]
      by_cases hc : c = '='
      · rw [hc]
        rfl
      · have hSmall : c.toLower ≠ '=' := fun h =>
          hc (Text.eq_of_toLower_low (by decide) h)
        rw [if_neg hc, if_neg hSmall, Option.map_map, Option.map_map]
        rfl

/-- What a piece says may be read off its small form. -/
theorem said?_eq (piece : List Char) :
    said? piece =
      (Text.cut? '=' ((trimChars piece).map Char.toLower)).map trimmed := by
  rw [← Text.trimChars_map_toLower, map_cut?_trimChars, cut?_map_toLower,
    Option.map_map]
  refine congrArg (Option.map · (Text.cut? '=' piece)) (funext fun cut => ?_)
  rw [Function.comp_apply, trimmed, Text.trimChars_map_toLower,
    Text.trimChars_map_toLower]
  rfl

variable {name word : String}

theorem IsWord.isDirect (h : IsWord name) {cs : List Char}
    (hName : trimChars cs = name.toList) : ∀ x ∈ cs, IsDirect x := by
  intro x hx
  obtain ⟨before, after, hText, hBefore, hAfter⟩ := Text.exists_eq_trimChars cs
  rw [hText, hName, List.mem_append, List.mem_append] at hx
  rcases hx with (hStart | hWord) | hEnd
  · exact .inl (hBefore x hStart)
  · obtain ⟨hLow, hHigh, hK, -⟩ := h.2 x hWord
    exact .inr ⟨by omega, by omega, hK⟩
  · exact .inl (hAfter x hEnd)

/-- A text with two words around its first equals sign is made of characters
that only themselves and their capitals are made small to. -/
theorem isDirect_of_cut? (hName : IsWord name) (hWord : IsWord word)
    {cs : List Char} (h : (Text.cut? '=' cs).map trimmed =
      some (name.toList, word.toList)) : ∀ x ∈ cs, IsDirect x := by
  obtain ⟨⟨left, right⟩, hCut, hSides⟩ := Option.map_eq_some_iff.1 h
  obtain ⟨hLeft, hRight⟩ := Prod.mk.inj hSides
  rw [(Text.cut?_eq_some_iff.1 hCut).1, List.forall_mem_append,
    List.forall_mem_cons]
  exact ⟨hName.isDirect hLeft, .inr (by decide), hWord.isDirect hRight⟩

theorem ofChars_eq_mk_iff (hWord : IsWord word) {cs : List Char} :
    Token.ofChars cs = ⟨name, word⟩ ↔
      (Text.cut? '=' cs).map trimmed = some (name.toList, word.toList) := by
  have hSides : ∀ left right : List Char,
      Token.mk (.ofList left) (.ofList right) = ⟨name, word⟩ ↔
        left = name.toList ∧ right = word.toList := by
    intro left right
    rw [Token.mk.injEq, ← String.toList_inj, ← String.toList_inj,
      String.toList_ofList, String.toList_ofList]
  unfold Token.ofChars
  cases hCut : Text.cut? '=' cs with
  | none =>
      refine iff_of_false (fun h => hWord.1 ?_) (by simp)
      exact ((hSides _ _).1 h).2.symm
  | some cut =>
      rw [Option.map_some, Option.some.injEq, Prod.mk.injEq]
      exact hSides _ _

/-- A token is read as a name and a word exactly if its piece has them around
its first equals sign, in capital or small letters and with blanks around each
of them. -/
theorem ofChars_eq_iff (hName : IsWord name) (hWord : IsWord word)
    {piece : List Char} :
    Token.ofChars (lowerChars (trimChars piece)) = ⟨name, word⟩ ↔
      said? piece = some (name.toList, word.toList) := by
  rw [ofChars_eq_mk_iff hWord, said?_eq]
  constructor
  · intro h
    rw [(Text.lowerChars_eq_iff (isDirect_of_cut? hName hWord h)).1 rfl]
    exact h
  · intro h
    rw [(Text.lowerChars_eq_iff (isDirect_of_cut? hName hWord h)).2 rfl]
    exact h

/-! ## Reading a header -/

/-- A header is cut at its semicolons as it is at its commas. -/
theorem splitOn_commas (cs : List Char) :
    Text.splitOn ',' (cs.map fun c => if c = ';' then ',' else c) =
      cs.splitOnP isSeparator := by
  induction cs with
  | nil => rfl
  | cons c cs ih =>
      rw [List.map_cons, Text.splitOn, ih,
        List.splitOnP_cons_eq_if_modifyHead]
      by_cases hc : isSeparator c = true
      · have hComma : (if c = ';' then ',' else c) = ',' := by
          simp only [isSeparator, Bool.or_eq_true, beq_iff_eq] at hc
          rcases hc with rfl | rfl
          · rfl
          · rfl
        rw [if_pos hComma, if_pos hc]
      · have hOther : c ≠ ';' ∧ c ≠ ',' := by
          simp only [isSeparator, Bool.or_eq_true, beq_iff_eq, not_or] at hc
          exact hc.symm
        rw [if_neg hOther.1, if_neg hOther.2, if_neg hc]
        cases hRest : cs.splitOnP isSeparator with
        | nil => exact absurd hRest (List.splitOnP_ne_nil _ _)
        | cons first others => rfl

/-- The tokens of a header give a preference what its pieces give. -/
theorem filterMap_tokens {α : Type} (setting : Setting α) (header : String) :
    (tokens header).filterMap setting.ofToken? =
      (pieces header).filterMap setting.given? := by
  have hPiece : ∀ piece : List Char,
      setting.ofToken? (Token.ofChars (lowerChars (trimChars piece))) =
        setting.given? piece := by
    intro piece
    refine Option.ext fun value => ?_
    rw [Setting.ofToken?_eq_some_iff, Setting.given?_eq_some_iff,
      ofChars_eq_iff setting.name_isWord (setting.word_isWord value)]
    rfl
  -- The reader leaves out what is empty, and an empty piece gives nothing.
  have hEmpty : setting.ofToken? (Token.ofChars (lowerChars [])) = none := by
    refine Option.eq_none_iff_forall_not_mem.2 fun value hValue => ?_
    have hToken := Setting.ofToken?_eq_some_iff.1 hValue
    have hName : "" = setting.name := congrArg Token.name hToken
    exact setting.name_isWord.1 (by rw [← hName]; rfl)
  unfold tokens
  dsimp only
  rw [splitOn_commas, List.filterMap_map, List.filterMap_filter,
    List.filterMap_map]
  refine List.filterMap_congr fun piece _ => ?_
  rw [Function.comp_apply, ← hPiece piece]
  split
  · rw [Function.comp_apply]
  · next hNone =>
      have hBlank : trimChars piece = [] := by simpa using hNone
      rw [hBlank, hEmpty]

/-! ## The four preferences -/

/-- A value is found by its own token. -/
theorem eq_token_of_find? {α : Type} {token : α → String} {all : List α}
    {s : String} {value : α}
    (h : all.find? (fun value => token value == s) = some value) :
    s = token value :=
  have hSame : (token value == s) = true :=
    List.find?_some (p := fun value => token value == s) h
  (beq_iff_eq.1 hSame).symm

/-- What a write answers with. -/
def returning : Setting ReturnMode where
  name := "return"
  word := ReturnMode.token
  ofWord? := ReturnMode.ofToken?
  name_isWord := by decide
  word_isWord mode := by cases mode <;> decide
  ofWord?_eq_some_iff := by
    intro s mode
    exact ⟨eq_token_of_find?, fun h => h ▸ mode.ofToken?_token⟩

/-- What happens to records that exist already. -/
def resolving : Setting Resolution where
  name := "resolution"
  word := Resolution.token
  ofWord? := Resolution.ofToken?
  name_isWord := by decide
  word_isWord resolution := by cases resolution <;> decide
  ofWord?_eq_some_iff := by
    intro s resolution
    exact ⟨eq_token_of_find?, fun h => h ▸ resolution.ofToken?_token⟩

/-- What a missing field stands for: there is one value to ask for. -/
def missing : Setting Unit where
  name := "missing"
  word _ := "default"
  ofWord? s := if s = "default" then some () else none
  name_isWord := by decide
  word_isWord _ := by decide
  ofWord?_eq_some_iff := by simp

/-- How the total of a list is found. -/
def counting : Setting CountType where
  name := "count"
  word := CountType.token
  ofWord? := CountType.ofToken?
  name_isWord := by decide
  word_isWord count := by cases count <;> decide
  ofWord?_eq_some_iff := by
    intro s count
    exact ⟨eq_token_of_find?, fun h => h ▸ count.ofToken?_token⟩

/-! ## What a token changes -/

/-- A token changes each preference to what it gives it. -/
theorem apply_eq (p : Preferences) (token : Token) : p.apply token = {
    returnMode := (returning.ofToken? token).getD p.returnMode
    resolution := (resolving.ofToken? token).or p.resolution
    missingDefault := (missing.ofToken? token).isSome || p.missingDefault
    count := (counting.ofToken? token).or p.count } := by
  obtain ⟨returnMode, resolution, missingDefault, count⟩ := p
  unfold apply Setting.ofToken? returning resolving missing counting
  -- The names differ, so a token is heard by one preference at most.
  grind

/-- Of all tokens the last ones count that give a preference a value. -/
theorem foldl_apply (tokens : List Token) (p : Preferences) :
    tokens.foldl apply p = {
      returnMode := (tokens.filterMap returning.ofToken?).getLast?.getD
        p.returnMode
      resolution := (tokens.filterMap resolving.ofToken?).getLast?.or
        p.resolution
      missingDefault := (tokens.filterMap missing.ofToken?).getLast?.isSome ||
        p.missingDefault
      count := (tokens.filterMap counting.ofToken?).getLast?.or p.count } := by
  induction tokens using List.reverseRecOn with
  | nil => rfl
  | append_singleton tokens token ih =>
      have hLast : ∀ {α : Type} (setting : Setting α),
          ((tokens ++ [token]).filterMap setting.ofToken?).getLast? =
            (setting.ofToken? token).or
              (tokens.filterMap setting.ofToken?).getLast? := by
        intro α setting
        rw [List.filterMap_append, List.getLast?_append]
        cases hToken : setting.ofToken? token with
        | none => rw [List.filterMap_cons_none hToken]; rfl
        | some value => rw [List.filterMap_cons_some hToken]; rfl
      rw [List.foldl_append, List.foldl_cons, List.foldl_nil, ih, apply_eq]
      simp only [hLast, Option.or_assoc, Option.isSome_or, Bool.or_assoc,
        Option.getD_or]

/-! ## What counts -/

/-- What the last of the pieces says that each preference understands; where
none does, the preference is what it is by default. -/
structure SaidLast (pieces : List (List Char)) (p : Preferences) : Prop where
  returnMode : ∃ last, returning.Last pieces last ∧
    p.returnMode = last.getD .representation
  resolution : resolving.Last pieces p.resolution
  missingDefault : p.missingDefault = true ↔
    ∃ piece ∈ pieces, missing.Gives piece ()
  count : counting.Last pieces p.count

theorem read_eq (header : String) : read header = {
    returnMode := ((pieces header).filterMap returning.given?).getLast?.getD
      .representation
    resolution := ((pieces header).filterMap resolving.given?).getLast?
    missingDefault := ((pieces header).filterMap missing.given?).getLast?.isSome
    count := ((pieces header).filterMap counting.given?).getLast? } := by
  rw [read, foldl_apply]
  simp only [filterMap_tokens, Option.or_none, Bool.or_false]

/-- The names that are listened for. -/
def names : List String := ["return", "resolution", "missing", "count"]

/-- A piece that no preference understands. -/
structure IsIdle (piece : List Char) : Prop where
  returning : ∀ mode, ¬returning.Gives piece mode
  resolving : ∀ resolution, ¬resolving.Gives piece resolution
  missing : ¬missing.Gives piece ()
  counting : ∀ count, ¬counting.Gives piece count

theorem saidLast_read (header : String) :
    SaidLast (pieces header) (read header) := by
  rw [read_eq]
  refine ⟨⟨_, returning.last_getLast? _, rfl⟩, resolving.last_getLast? _, ?_,
    counting.last_getLast? _⟩
  have hLast := missing.last_getLast? (pieces header)
  dsimp only
  generalize ((pieces header).filterMap missing.given?).getLast? = last at hLast
  cases hLast with
  | none h =>
      refine iff_of_false (by simp) ?_
      rintro ⟨piece, hPiece, hGives⟩
      exact h piece hPiece () hGives
  | @some front back piece value hPieces h hLater =>
      refine iff_of_true rfl ⟨piece, ?_, h⟩
      rw [hPieces]
      exact List.mem_append_right _ List.mem_cons_self

theorem read_congr {a b : String}
    (hReturning : (pieces a).filterMap returning.given? =
      (pieces b).filterMap returning.given?)
    (hResolving : (pieces a).filterMap resolving.given? =
      (pieces b).filterMap resolving.given?)
    (hMissing : (pieces a).filterMap missing.given? =
      (pieces b).filterMap missing.given?)
    (hCounting : (pieces a).filterMap counting.given? =
      (pieces b).filterMap counting.given?) : read a = read b := by
  rw [read_eq, read_eq, hReturning, hResolving, hMissing, hCounting]

theorem Setting.given?_eq_none {α : Type} {setting : Setting α}
    {piece : List Char} (h : ∀ value, ¬setting.Gives piece value) :
    setting.given? piece = none :=
  Option.eq_none_iff_forall_not_mem.2 fun value hValue =>
    h value (given?_eq_some_iff.1 hValue)

/-- Pieces that are not understood change nothing, wherever they stand. -/
theorem read_insert {header other : String} {front back : List (List Char)}
    {piece : List Char} (hHeader : pieces header = front ++ back)
    (hOther : pieces other = front ++ piece :: back) (h : IsIdle piece) :
    read other = read header := by
  have hInsert : ∀ {α : Type} (setting : Setting α),
      (∀ value, ¬setting.Gives piece value) →
      (pieces other).filterMap setting.given? =
        (pieces header).filterMap setting.given? := by
    intro α setting hNone
    rw [hHeader, hOther, List.filterMap_append, List.filterMap_append,
      List.filterMap_cons_none (Setting.given?_eq_none hNone)]
  exact read_congr (hInsert returning h.returning)
    (hInsert resolving h.resolving) (hInsert missing fun _ => h.missing)
    (hInsert counting h.counting)

/-- Each preference is what the last piece says that it understands, and the
default where there is none. A piece that no preference understands changes
nothing, wherever it stands, and neither does the order of the pieces, as long
as those of one name keep theirs. -/
theorem last_understood_counts (header : String) :
    SaidLast (pieces header) (read header) ∧
      (∀ (other : String) (front back : List (List Char)) (piece : List Char),
        pieces header = front ++ back → pieces other = front ++ piece :: back →
          IsIdle piece → read other = read header) ∧
      ∀ other : String,
        (∀ name ∈ names, (pieces other).filter (hasName name) =
          (pieces header).filter (hasName name)) →
        read other = read header := by
  refine ⟨saidLast_read header, fun other front back piece => read_insert,
    fun other h => ?_⟩
  exact read_congr (Setting.filterMap_given?_congr (h _ (by decide)))
    (Setting.filterMap_given?_congr (h _ (by decide)))
    (Setting.filterMap_given?_congr (h _ (by decide)))
    (Setting.filterMap_given?_congr (h _ (by decide)))

example : read "RETURN = Minimal;return=none,count=exact,,Count=PLANNED" =
    { returnMode := .minimal, count := some .planned } := by
  decide +kernel

end TableGate.Preferences
