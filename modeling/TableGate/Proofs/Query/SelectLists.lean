import TableGate.Proofs.Expression.Reading
import TableGate.Proofs.Result
import TableGate.Query.Select

/-!
# Select lists, as they are written

An entry of a select list is a plain column, or a call of an aggregate function
with a label before it if wanted. Blanks may stand around every entry, and the
name of a function may be written in capital and small letters.

The three kinds of punctuation are cut at three levels: commas between entries
only outside of parentheses, the colon of a label only before the first
parenthesis, and parentheses only around an argument. So the parts of an entry
need no more than that each of them has none of the punctuation that would end
it.

## Main results

* `readItem_entry`: an entry is read as it was meant.
* `readItem_fault`: a call that no function allows is refused, with its cause.
* `select_lists`: a list of entries is read in order, and one such call among
  them refuses it.
-/

namespace TableGate.Selection

open Text (isBlank trimChars)

/-! ## Entries -/

/-- A text without commas and parentheses, and without blanks at its ends. -/
structure IsPlain (cs : List Char) : Prop where
  trimmed : trimChars cs = cs
  unmarked : ∀ c ∈ cs, Group.isMark c = false

/-- A column as it is written. A star is none. -/
structure ColumnText where
  chars : List Char
  nonempty : chars ≠ []
  no_star : chars ≠ ['*']
  isPlain : IsPlain chars

/-- A label as it is written. -/
structure LabelText where
  chars : List Char
  nonempty : chars ≠ []
  no_colon : ':' ∉ chars
  isPlain : IsPlain chars

/-- What stands between the parentheses of a call. -/
inductive Argument
  | column (name : ColumnText)
  | star
  | nothing

/-- The text of an argument. -/
def Argument.chars : Argument → List Char
  | column name => name.chars
  | star => ['*']
  | nothing => []

/-- The column of an argument, if it is one. -/
def Argument.column? : Argument → Option String
  | column name => some (.ofList name.chars)
  | _ => none

/-- A call of something, with a label before it if wanted. -/
structure WrittenCall where
  label : Option LabelText
  name : List Char
  argument : Argument
  no_colon : ':' ∉ name
  isPlain : IsPlain name

namespace WrittenCall

/-- A name, and an argument between parentheses. -/
def body (call : WrittenCall) : List Char :=
  call.name ++ '(' :: (call.argument.chars ++ [')'])

/-- The text of a call. -/
def text (call : WrittenCall) : List Char :=
  match call.label with
  | some label => label.chars ++ ':' :: call.body
  | none => call.body

/-- The text of the label; no label has none. -/
def labelChars (call : WrittenCall) : List Char :=
  (call.label.map (·.chars)).getD []

/-- The name is that of a function, in capital or small letters. -/
def Names (call : WrittenCall) (function : AggregateFunction) : Prop :=
  call.name.map Char.toLower = function.name.toList

/-- The name is a word. -/
def IsWord (call : WrittenCall) : Prop :=
  call.name ≠ [] ∧ call.name.all Text.isWord = true

instance (call : WrittenCall) : Decidable call.IsWord :=
  inferInstanceAs (Decidable (_ ∧ _))

/-- The aggregation by a function that a call is meant for. -/
def aggregation (call : WrittenCall) (function : AggregateFunction) :
    Aggregation where
  function
  column := call.argument.column?
  label := .ofList call.labelChars

end WrittenCall

/-- A plain column, or a function over a column. Only `count` does without
one. -/
inductive Entry
  | column (name : ColumnText)
  | aggregate (call : WrittenCall) (function : AggregateFunction)
      (names : call.Names function)
      (fits : function = .count ∨ call.argument.column?.isSome)

namespace Entry

/-- The text of an entry. -/
def text : Entry → List Char
  | column name => name.chars
  | aggregate call _ _ _ => call.text

/-- The column of an entry, if it is one. -/
def column? : Entry → Option String
  | column name => some (.ofList name.chars)
  | aggregate .. => none

/-- What an entry is read as. -/
def item : Entry → Item
  | column name => .column (.ofList name.chars)
  | aggregate call function _ _ => .aggregate (call.aggregation function)

/-- The aggregation of an entry, if it is one. -/
def aggregation? : Entry → Option Aggregation
  | column _ => none
  | aggregate call function _ _ => some (call.aggregation function)

end Entry

/-- A call of no function, or of one that needs a column and has none. -/
inductive Fault
  | unknown (call : WrittenCall) (names : ∀ function, ¬call.Names function)
  | columnless (call : WrittenCall) (function : AggregateFunction)
      (names : call.Names function) (needs : function ≠ .count)
      (none : call.argument.column? = none)

namespace Fault

/-- The text of a faulty call. -/
def text : Fault → List Char
  | unknown call _ => call.text
  | columnless call _ _ _ _ => call.text

/-- Why it is refused. What is no word is not even taken for a name. -/
def cause : Fault → Invalid
  | unknown call _ =>
      if call.IsWord then .aggregateName (.ofList call.name)
      else .selectItem (.ofList call.text)
  | columnless _ function _ _ _ => .aggregateColumn function.name

end Fault

/-- Something with blanks around it. -/
structure Spaced (α : Type) where
  core : α
  before : Blanks := .none
  after : Blanks := .none

/-- The text of something with blanks around it. -/
def Spaced.text {α : Type} (text : α → List Char) (s : Spaced α) : List Char :=
  s.before.around (text s.core) s.after

/-! ## Punctuation -/

/-- A run of characters of a class ends before the first one outside of it. -/
theorem takeWhile_run {p : Char → Bool} {cs : List Char}
    (h : ∀ c ∈ cs, p c = true) {d : Char} (hEnd : p d = false)
    (rest : List Char) : (cs ++ d :: rest).takeWhile p = cs := by
  rw [List.takeWhile_append_of_pos h,
    List.takeWhile_cons_of_neg (by simp [hEnd]), List.append_nil]

theorem dropWhile_run {p : Char → Bool} {cs : List Char}
    (h : ∀ c ∈ cs, p c = true) {d : Char} (hEnd : p d = false)
    (rest : List Char) : (cs ++ d :: rest).dropWhile p = d :: rest := by
  rw [List.dropWhile_append_of_pos h,
    List.dropWhile_cons_of_neg (by simp [hEnd])]

section Plain

variable {cs : List Char} (h : IsPlain cs)
include h

theorem IsPlain.notMem {c : Char} (hMark : Group.isMark c = true) : c ∉ cs := by
  intro hMem
  rw [h.unmarked c hMem] at hMark
  cases hMark

theorem IsPlain.isParen_eq_false : ∀ c ∈ cs, isParen c = false := by
  intro c hc
  have hMark := h.unmarked c hc
  rw [Group.isMark, Bool.or_eq_false_iff] at hMark
  exact hMark.1

theorem IsPlain.isSegment : Group.IsSegment cs :=
  Group.isSegment_of_plain (h.notMem rfl) (h.notMem rfl) (h.notMem rfl)

/-- Blanks around a plain text are dropped. -/
theorem IsPlain.trimChars_around (before after : Blanks) :
    trimChars (before.around cs after) = cs := by
  rw [Blanks.around, Text.trimChars_around before.blank after.blank, h.trimmed]

/-- Before what starts with no blank a plain text starts with none. -/
theorem IsPlain.head?_append {rest : List Char}
    (hRest : ∀ c ∈ rest.head?, isBlank c = false) :
    ∀ c ∈ (cs ++ rest).head?, isBlank c = false := by
  have hHead : ∀ c ∈ (trimChars cs).head?, isBlank c = false :=
    Text.head?_stripChars
  rw [h.trimmed] at hHead
  cases cs with
  | nil => exact hRest
  | cons d ds => exact hHead

end Plain

namespace Argument

theorem isPlain_chars (argument : Argument) : IsPlain argument.chars := by
  cases argument with
  | column name => exact name.isPlain
  | star => exact ⟨by decide, List.forall_mem_singleton.2 rfl⟩
  | nothing => exact ⟨rfl, List.forall_mem_nil _⟩

/-- An argument that is no column is left out or a star. -/
theorem chars_iff (argument : Argument) :
    (argument.chars = [] ∨ argument.chars = ['*']) ↔
      argument.column? = none := by
  cases argument with
  | column name => simp [chars, column?, name.nonempty, name.no_star]
  | star => simp [chars, column?]
  | nothing => simp [chars, column?]

theorem ofList_chars (argument : Argument) {column : String}
    (h : argument.column? = some column) :
    String.ofList argument.chars = column := by
  cases argument with
  | column name => exact Option.some.inj h
  | star => cases h
  | nothing => cases h

end Argument

namespace WrittenCall

variable (call : WrittenCall)

theorem isPlain_labelChars : IsPlain call.labelChars := by
  unfold labelChars
  cases call.label with
  | none => exact ⟨rfl, List.forall_mem_nil _⟩
  | some label => exact label.isPlain

theorem head?_text : ∀ c ∈ call.text.head?, isBlank c = false := by
  have hBody : ∀ c ∈ call.body.head?, isBlank c = false := by
    refine call.isPlain.head?_append fun c hc => ?_
    rw [← Option.some.inj hc]
    decide
  unfold text
  cases call.label with
  | none => exact hBody
  | some label =>
      refine label.isPlain.head?_append fun c hc => ?_
      rw [← Option.some.inj hc]
      decide

theorem exists_text : ∃ lead, call.text = lead ++ [')'] := by
  unfold text
  cases call.label with
  | none => exact ⟨call.name ++ '(' :: call.argument.chars, by simp [body]⟩
  | some label =>
      exact ⟨label.chars ++ ':' :: (call.name ++ '(' :: call.argument.chars),
        by simp [body]⟩

/-- Blanks around a call are dropped. -/
theorem trimChars_around (before after : Blanks) :
    trimChars (before.around call.text after) = call.text := by
  refine Text.trimChars_between before.blank after.blank call.head?_text ?_
  obtain ⟨lead, hText⟩ := call.exists_text
  rw [hText, List.getLast?_concat]
  rintro c ⟨⟩
  decide

theorem isSegment_text : Group.IsSegment call.text := by
  have hArgument := call.argument.isPlain_chars
  have hBody : Group.IsSegment call.body := call.isPlain.isSegment.append
    (Group.balanced_of_plain (hArgument.notMem rfl)
      (hArgument.notMem rfl)).parenthesized
  unfold text
  cases call.label with
  | none => exact hBody
  | some label =>
      have hColon : Group.IsSegment [':'] := by decide
      exact label.isPlain.isSegment.append (hColon.append hBody)

/-! ## The parts of a call -/

/-- A label ends at the first colon. -/
theorem cutLabel_text : cutLabel call.text = (call.labelChars, call.body) := by
  have hPlain : ∀ {cs : List Char}, IsPlain cs → ':' ∉ cs →
      ∀ c ∈ cs, (!isParen c && c != ':') = true := by
    intro cs h hColon c hc
    have hOther : c ≠ ':' := fun hEq => hColon (hEq ▸ hc)
    simp [h.isParen_eq_false c hc, hOther]
  unfold text labelChars
  cases call.label with
  | none =>
      have hName := hPlain call.isPlain call.no_colon
      rw [cutLabel, body, dropWhile_run hName (by decide)]
      split
      · next hOther =>
          obtain ⟨hColon, -⟩ := List.cons.inj hOther
          exact absurd hColon (by decide)
      · rfl
  | some label =>
      obtain ⟨c, lead, hLabel⟩ := List.exists_cons_of_ne_nil label.nonempty
      have hText := hPlain label.isPlain label.no_colon
      rw [cutLabel, takeWhile_run hText (by decide),
        dropWhile_run hText (by decide)]
      simp only [Option.map_some, Option.getD_some, hLabel]

/-- An argument ends at the first parenthesis. -/
theorem call?_of_isWord (h : call.IsWord) : call? call.text =
    some ⟨call.labelChars, call.name, call.argument.chars⟩ := by
  obtain ⟨c, name, hName⟩ := List.exists_cons_of_ne_nil h.1
  have hWord := List.all_eq_true.1 h.2
  have hArgument : ∀ d ∈ call.argument.chars, (!isParen d) = true := by
    intro d hd
    rw [call.argument.isPlain_chars.isParen_eq_false d hd]
    rfl
  rw [call?, cutLabel_text]
  simp only [body]
  rw [takeWhile_run hWord (by decide), dropWhile_run hWord (by decide), hName]
  simp only
  rw [takeWhile_run hArgument (by decide), dropWhile_run hArgument (by decide),
    if_pos rfl]

/-- A name that is no word leaves no call. -/
theorem call?_of_not_isWord (h : ¬call.IsWord) : call? call.text = none := by
  rw [call?, cutLabel_text]
  simp only [body]
  split
  · next c name rest hTake hDrop =>
      have hLeft : call.name.dropWhile Text.isWord = [] := by
        by_contra hSome
        obtain ⟨d, left, hLeft⟩ := List.exists_cons_of_ne_nil hSome
        rw [List.dropWhile_append, hLeft] at hDrop
        obtain ⟨rfl, -⟩ := List.cons.inj hDrop
        have hMem : '(' ∈ call.name :=
          (List.dropWhile_suffix Text.isWord).subset
            (by rw [hLeft]; exact List.mem_cons_self)
        exact call.isPlain.notMem rfl hMem
      have hAll : call.name.all Text.isWord = true :=
        List.all_eq_true.2 (List.dropWhile_eq_nil_iff.1 hLeft)
      refine absurd ⟨fun hEmpty => ?_, hAll⟩ h
      rw [hEmpty, List.nil_append, List.takeWhile_cons_of_neg (by decide)]
        at hTake
      cases hTake
  · rfl

/-! ## The function of a call -/

/-- The names of functions are ASCII words without a k. -/
theorem name_chars (function : AggregateFunction) :
    function.name.toList ≠ [] ∧ ∀ x ∈ function.name.toList,
      (0 < x.toNat ∧ x.toNat < 128 ∧ x ≠ 'k') ∧ x.isLower = true := by
  have hAll : function.name.toList ≠ [] ∧ (function.name.toList.all fun x =>
      decide ((0 < x.toNat ∧ x.toNat < 128 ∧ x ≠ 'k') ∧ x.isLower = true)) =
        true := by
    cases function <;> decide +kernel
  exact ⟨hAll.1, fun x hx =>
    of_decide_eq_true (List.all_eq_true.1 hAll.2 x hx)⟩

variable {call}

/-- The name of a function is a word, in capital or small letters. -/
theorem Names.isWord {function : AggregateFunction} (h : call.Names function) :
    call.IsWord := by
  obtain ⟨hSome, hChars⟩ := name_chars function
  rw [← h] at hSome hChars
  refine ⟨fun hEmpty => hSome (by rw [hEmpty]; rfl),
    List.all_eq_true.2 fun c hc => ?_⟩
  obtain ⟨⟨-, hAscii, -⟩, hSmall⟩ := hChars _ (List.mem_map_of_mem hc)
  rw [Text.isWord_ascii (Text.ascii_of_toLower hAscii), Char.isAlphanum,
    Text.isAlpha_of_toLower hSmall]
  rfl

theorem Names.ofName? {function : AggregateFunction}
    (h : call.Names function) :
    AggregateFunction.ofName? (.ofList call.name) = some function := by
  have hAscii : ∀ c ∈ call.name, c.toNat < 128 := by
    intro c hc
    obtain ⟨-, hChars⟩ := name_chars function
    rw [← h] at hChars
    exact Text.ascii_of_toLower (hChars _ (List.mem_map_of_mem hc)).1.2.1
  have hLower : Text.lower (.ofList call.name) = Text.lower function.name := by
    have hName : Text.lower function.name = function.name := by
      cases function <;> decide +kernel
    rw [hName, Text.lower, String.toList_ofList,
      Text.lowerChars_ascii hAscii, h, String.ofList_toList]
  rw [← AggregateFunction.ofName?_name function]
  unfold AggregateFunction.ofName?
  rw [hLower]

theorem ofName?_eq_none (h : ∀ function, ¬call.Names function) :
    AggregateFunction.ofName? (.ofList call.name) = none := by
  unfold AggregateFunction.ofName?
  refine List.find?_eq_none.2 fun function _ hSame => h function ?_
  rw [beq_iff_eq, Text.lower, String.toList_ofList] at hSame
  have hLower : Text.lowerChars call.name = function.name.toList := by
    rw [hSame, String.toList_ofList]
  exact Text.map_toLower_of_lowerChars
    (fun x hx => ((name_chars function).2 x hx).1) hLower

/-- What becomes of a call of a function. -/
theorem Names.aggregate_eq {function : AggregateFunction}
    (h : call.Names function) :
    aggregate ⟨call.labelChars, call.name, call.argument.chars⟩ =
      if call.argument.column? = none ∧ function ≠ .count then
        refuse (.aggregateColumn function.name)
      else .ok (call.aggregation function) := by
  have hArgument := call.argument.chars_iff
  rw [aggregate, h.ofName?]
  simp only [call.argument.isPlain_chars.trimmed,
    call.isPlain_labelChars.trimmed, hArgument]
  cases hColumn : call.argument.column? with
  | none =>
      by_cases hCount : function = .count
      · simp [hCount, aggregation, hColumn]
      · simp [hCount]
  | some column =>
      have hName := call.argument.ofList_chars hColumn
      simp [aggregation, hColumn, hName]

end WrittenCall

/-! ## Reading entries -/

/-- What is not a column is read as a call. -/
theorem readItem_call (call : WrittenCall) (before after : Blanks) :
    readItem (before.around call.text after) =
      (call? call.text).elim (refuse (.selectItem (.ofList call.text)))
        fun parts => (aggregate parts).map .aggregate := by
  obtain ⟨lead, hText⟩ := call.exists_text
  have hParen : call.text.any isParen = true := by
    rw [hText, List.any_append]
    simp [isParen]
  have hOther : ¬(call.text = [] ∨ call.text = ['*']) := by
    rintro (hEmpty | hStar)
    · rw [hEmpty] at hParen
      cases hParen
    · rw [hStar] at hParen
      exact absurd hParen (by decide)
  simp only [readItem, call.trimChars_around, if_neg hOther, hParen,
    Bool.not_true, Bool.false_eq_true, if_false]
  cases call? call.text with
  | none => rfl
  | some parts => rfl

/-- An entry is read as it was meant. -/
theorem readItem_entry (s : Spaced Entry) :
    readItem (s.text Entry.text) = .ok s.core.item := by
  obtain ⟨entry, before, after⟩ := s
  cases entry with
  | column name =>
      have hNone : name.chars.any isParen = false :=
        List.any_eq_false.2 fun c hc => by
          rw [name.isPlain.isParen_eq_false c hc]
          exact Bool.false_ne_true
      simp only [readItem, Spaced.text, Entry.text,
        name.isPlain.trimChars_around, name.nonempty, name.no_star, hNone,
        or_self, if_false, Bool.not_false, if_true]
      rfl
  | aggregate call function names fits =>
      have hFits : ¬(call.argument.column? = none ∧ function ≠ .count) := by
        rintro ⟨hNone, hOther⟩
        rcases fits with hCount | hSome
        · exact hOther hCount
        · rw [hNone] at hSome
          cases hSome
      simp only [Spaced.text, Entry.text, readItem_call,
        call.call?_of_isWord names.isWord, Option.elim_some,
        names.aggregate_eq, if_neg hFits]
      rfl

/-- A faulty call is refused for its cause. -/
theorem readItem_fault (s : Spaced Fault) :
    readItem (s.text Fault.text) = refuse s.core.cause := by
  obtain ⟨fault, before, after⟩ := s
  cases fault with
  | unknown call names =>
      by_cases hWord : call.IsWord
      · simp only [Spaced.text, Fault.text, readItem_call,
          call.call?_of_isWord hWord, Option.elim_some, aggregate,
          WrittenCall.ofName?_eq_none names, Fault.cause]
        rw [if_pos hWord]
        rfl
      · simp only [Spaced.text, Fault.text, readItem_call,
          call.call?_of_not_isWord hWord, Option.elim_none, Fault.cause]
        rw [if_neg hWord]
  | columnless call function names needs none =>
      simp only [Spaced.text, Fault.text, readItem_call,
        call.call?_of_isWord names.isWord, Option.elim_some,
        names.aggregate_eq, if_pos (And.intro none needs)]
      rfl

/-! ## Lists -/

theorem mem_joinWith {sep piece : List Char} {pieces : List (List Char)}
    (hPiece : piece ∈ pieces) {c : Char} (hc : c ∈ piece) :
    c ∈ Text.joinWith sep pieces := by
  induction pieces with
  | nil => cases hPiece
  | cons first others ih =>
      cases others with
      | nil =>
          rw [List.mem_singleton.1 hPiece] at hc
          exact hc
      | cons next others =>
          rw [Text.joinWith]
          · rcases List.mem_cons.1 hPiece with rfl | hLater
            · exact List.mem_append_left _ (List.mem_append_left _ hc)
            · exact List.mem_append_right _ (ih hLater)
          · exact List.cons_ne_nil _ _

/-- A list is read entry by entry, if something visible stands in it. -/
theorem read_joinWith {pieces : List (List Char)}
    (hSegments : ∀ piece ∈ pieces, Group.IsSegment piece)
    (hVisible : ∃ piece ∈ pieces, ∃ c ∈ piece, isBlank c = false) :
    read (.ofList (Text.joinWith [','] pieces)) =
      (pieces.mapM readItem).map ofItems := by
  obtain ⟨piece, hPiece, c, hc, hBlank⟩ := hVisible
  have hNotBlank : ¬Text.isAllBlank
      (.ofList (Text.joinWith [','] pieces)) = true := by
    rw [Text.isAllBlank, String.toList_ofList, List.all_eq_true]
    intro hAll
    rw [hAll c (mem_joinWith hPiece hc)] at hBlank
    cases hBlank
  rw [read, if_neg hNotBlank, String.toList_ofList,
    Group.splitTopLevel_joinWith (List.ne_nil_of_mem hPiece) hSegments]
  cases hRead : pieces.mapM readItem with
  | error e => simp only [bind, Except.bind, hRead]; rfl
  | ok items => simp only [bind, Except.bind, hRead]; rfl

theorem isSegment_around {core : List Char} (h : Group.IsSegment core)
    (before after : Blanks) : Group.IsSegment (before.around core after) :=
  (before.isSegment.append h).append after.isSegment

theorem exists_visible_around {core : List Char}
    (h : ∃ c ∈ core, isBlank c = false) (before after : Blanks) :
    ∃ c ∈ before.around core after, isBlank c = false := by
  obtain ⟨c, hc, hBlank⟩ := h
  exact ⟨c, List.mem_append_left _ (List.mem_append_right _ hc), hBlank⟩

theorem WrittenCall.exists_visible (call : WrittenCall) :
    ∃ c ∈ call.text, isBlank c = false := by
  obtain ⟨lead, hText⟩ := call.exists_text
  exact ⟨')', by simp [hText], by decide⟩

namespace Entry

theorem isSegment_text (entry : Entry) : Group.IsSegment entry.text := by
  cases entry with
  | column name => exact name.isPlain.isSegment
  | aggregate call _ _ _ => exact call.isSegment_text

theorem exists_visible (entry : Entry) :
    ∃ c ∈ entry.text, isBlank c = false := by
  cases entry with
  | column name =>
      obtain ⟨c, rest, hText⟩ := List.exists_cons_of_ne_nil name.nonempty
      have hNone : ∀ c ∈ ([] : List Char).head?, isBlank c = false := nofun
      have hHead := name.isPlain.head?_append hNone
      rw [List.append_nil, hText] at hHead
      exact ⟨c, by simp [text, hText], hHead c rfl⟩
  | aggregate call _ _ _ => exact call.exists_visible

end Entry

theorem Fault.isSegment_text (fault : Fault) : Group.IsSegment fault.text := by
  cases fault with
  | unknown call _ => exact call.isSegment_text
  | columnless call _ _ _ _ => exact call.isSegment_text

theorem Fault.exists_visible (fault : Fault) :
    ∃ c ∈ fault.text, isBlank c = false := by
  cases fault with
  | unknown call _ => exact call.exists_visible
  | columnless call _ _ _ _ => exact call.exists_visible

/-- The texts of entries with blanks around them. -/
def entryTexts (entries : List (Spaced Entry)) : List (List Char) :=
  entries.map (Spaced.text Entry.text)

theorem isSegment_of_mem_entryTexts {entries : List (Spaced Entry)} :
    ∀ piece ∈ entryTexts entries, Group.IsSegment piece := by
  intro piece hPiece
  obtain ⟨s, -, rfl⟩ := List.mem_map.1 hPiece
  exact isSegment_around s.core.isSegment_text _ _

theorem mapM_readItem_entryTexts (entries : List (Spaced Entry)) :
    (entryTexts entries).mapM readItem =
      .ok (entries.map fun s => s.core.item) := by
  rw [Result.mapM_eq_ok, entryTexts, List.forall₂_map_left_iff,
    List.forall₂_map_right_iff, List.forall₂_same]
  exact fun s _ => readItem_entry s

/-- What a list of entries selects. -/
def selected (entries : List (Spaced Entry)) : Selection where
  columns := entries.filterMap fun s => s.core.column?
  aggregations := entries.filterMap fun s => s.core.aggregation?

theorem ofItems_entries (entries : List (Spaced Entry)) :
    ofItems (entries.map fun s => s.core.item) = selected entries := by
  rw [ofItems, selected, List.filterMap_map, List.filterMap_map]
  congr 1
  · refine List.filterMap_congr fun s _ => ?_
    cases hCase : s.core <;> simp [hCase, Entry.item, Entry.column?]
  · refine List.filterMap_congr fun s _ => ?_
    cases hCase : s.core <;> simp [hCase, Entry.item, Entry.aggregation?]

/-- Entries are read in order. -/
theorem read_entries (entries : List (Spaced Entry)) :
    read (.ofList (Text.joinWith [','] (entryTexts entries))) =
      .ok (selected entries) := by
  cases entries with
  | nil => rfl
  | cons first others =>
      have hVisible : ∃ piece ∈ entryTexts (first :: others), ∃ c ∈ piece,
          isBlank c = false :=
        ⟨_, List.mem_cons_self,
          exists_visible_around first.core.exists_visible _ _⟩
      rw [read_joinWith isSegment_of_mem_entryTexts hVisible,
        mapM_readItem_entryTexts, ← ofItems_entries]
      rfl

/-- A faulty call among entries refuses the list for its cause. -/
theorem read_fault (front back : List (Spaced Entry)) (fault : Spaced Fault) :
    read (.ofList (Text.joinWith [','] (entryTexts front ++
        fault.text Fault.text :: entryTexts back))) =
      refuse fault.core.cause := by
  have hSegments : ∀ piece ∈ entryTexts front ++
      fault.text Fault.text :: entryTexts back, Group.IsSegment piece := by
    intro piece hPiece
    rcases List.mem_append.1 hPiece with hFront | hLater
    · exact isSegment_of_mem_entryTexts piece hFront
    rcases List.mem_cons.1 hLater with rfl | hBack
    · exact isSegment_around fault.core.isSegment_text _ _
    · exact isSegment_of_mem_entryTexts piece hBack
  have hVisible : ∃ piece ∈ entryTexts front ++
      fault.text Fault.text :: entryTexts back, ∃ c ∈ piece,
        isBlank c = false :=
    ⟨_, List.mem_append_right _ List.mem_cons_self,
      exists_visible_around fault.core.exists_visible _ _⟩
  rw [read_joinWith hSegments hVisible, List.mapM_append,
    mapM_readItem_entryTexts, List.mapM_cons, readItem_fault]
  rfl

/-- A list of columns and aggregates is read as its columns and its
aggregations, each in order. A call of an unknown function in the place of any
of its entries refuses the list, and so does one without the column that its
function needs. -/
theorem select_lists (entries front back : List (Spaced Entry))
    (fault : Spaced Fault) :
    read (.ofList (Text.joinWith [','] (entryTexts entries))) =
        .ok (selected entries) ∧
      read (.ofList (Text.joinWith [','] (entryTexts front ++
        fault.text Fault.text :: entryTexts back))) =
          refuse fault.core.cause :=
  ⟨read_entries entries, read_fault front back fault⟩

end TableGate.Selection
