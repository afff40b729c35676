import TableGate.Proofs.Sql.Characters
import TableGate.Proofs.Sql.Command

/-!
# Statements as sequences of tokens

`scan` reads a text into quoted names, keys, placeholders, words and symbols,
taking as many characters for each as it can, and knows nothing of how the
text was made. Scanning the text of a statement gives back, piece by piece,
the tokens its builder meant: whatever the input held, it has not started a
token of its own.

## Main results

* `scan_charsWith`: the tokens of a statement are those of its pieces.
* `statement_inert`: all text that is not of the fixed vocabulary is a quoted
  name, a key, an array index after an arrow or the number of a placeholder.
-/

namespace TableGate.Sql

/-! ## Scanning -/

/-- A token. -/
inductive Token
  | quoted (mark : Char) (text : List Char)
  | placeholder (digits : List Char)
  | word (text : List Char)
  | symbol (text : List Char)
deriving DecidableEq

/-- The spelling of a token. -/
def Token.text : Token → List Char
  | quoted mark text => mark :: text ++ [mark]
  | placeholder digits => '$' :: digits
  | word text => text
  | symbol text => text

/-- A token that may go on. -/
inductive Pending
  | none
  | quoted (mark : Char) (text : List Char)
  | placeholder (digits : List Char)
  | word (text : List Char)
  | operator (text : List Char)
deriving DecidableEq

/-- The characters of operators and arrows. -/
def isOperatorChar (c : Char) : Bool :=
  ['-', '>', '<', '=', '!', ':'].contains c

/-- Start a token. -/
def Pending.begin (c : Char) : List Token × Pending :=
  if c = '\x22' ∨ c = '\x27' then ([], .quoted c [])
  else if c = '$' then ([], .placeholder [])
  else if isNamePart c then ([], .word [c])
  else if isOperatorChar c then ([], .operator [c])
  else ([.symbol [c]], .none)

/-- Go on with a token, if it goes on. -/
def Pending.extend? : Pending → Char → Option (List Token × Pending)
  | none, _ => .none
  | quoted mark text, c =>
      if c = mark then some ([.quoted mark text], none)
      else some ([], quoted mark (text ++ [c]))
  | placeholder digits, c =>
      if c.isDigit then some ([], placeholder (digits ++ [c])) else .none
  | word text, c =>
      if isNamePart c then some ([], word (text ++ [c])) else .none
  | operator text, c =>
      if isOperatorChar c then some ([], operator (text ++ [c])) else .none

/-- The token that ends here; a quote that was not closed is a symbol. -/
def Pending.flush : Pending → List Token
  | none => []
  | quoted mark text => [.symbol (mark :: text)]
  | placeholder digits => [.placeholder digits]
  | word text => [.word text]
  | operator text => [.symbol text]

/-- Read one more character. -/
def Pending.next (p : Pending) (c : Char) : List Token × Pending :=
  match p.extend? c with
  | some result => result
  | .none => (p.flush ++ (begin c).1, (begin c).2)

/-- Read characters: the tokens that ended, and the one that may go on. -/
def run : Pending → List Char → List Token × Pending
  | p, [] => ([], p)
  | p, c :: rest =>
      ((p.next c).1 ++ (run (p.next c).2 rest).1, (run (p.next c).2 rest).2)

/-- The tokens of a text that follows the start of a token. -/
def scanFrom (p : Pending) (cs : List Char) : List Token :=
  (run p cs).1 ++ (run p cs).2.flush

/-- The tokens of a text. -/
def scan (cs : List Char) : List Token := scanFrom .none cs

theorem run_append (p : Pending) (a b : List Char) :
    run p (a ++ b) =
      ((run p a).1 ++ (run (run p a).2 b).1, (run (run p a).2 b).2) := by
  induction a generalizing p with
  | nil => rfl
  | cons c rest ih =>
      rw [List.cons_append, run, ih, run, List.append_assoc]

theorem scanFrom_append (p : Pending) (a b : List Char) :
    scanFrom p (a ++ b) = (run p a).1 ++ scanFrom (run p a).2 b := by
  rw [scanFrom, run_append, scanFrom, List.append_assoc]

/-! ## Scanning loses nothing -/

/-- The characters of a token that may go on. -/
def Pending.text (p : Pending) : List Char := p.flush.flatMap Token.text

theorem Pending.text_begin (c : Char) :
    (begin c).1.flatMap Token.text ++ (begin c).2.text = [c] := by
  unfold begin
  split_ifs with hQuote hDollar <;> simp_all [text, flush, Token.text]

theorem Pending.text_extend? {p : Pending} {c : Char}
    {result : List Token × Pending} (h : p.extend? c = some result) :
    result.1.flatMap Token.text ++ result.2.text = p.text ++ [c] := by
  cases p with
  | none => cases h
  | _ =>
      simp only [extend?] at h
      split_ifs at h <;>
        · obtain rfl := Option.some.inj h
          simp_all [text, flush, Token.text]

theorem Pending.text_next (p : Pending) (c : Char) :
    (p.next c).1.flatMap Token.text ++ (p.next c).2.text = p.text ++ [c] := by
  unfold next
  split
  · next hExtend => exact text_extend? hExtend
  · rw [List.flatMap_append, List.append_assoc, text_begin]
    rfl

theorem text_scanFrom (p : Pending) (cs : List Char) :
    (scanFrom p cs).flatMap Token.text = p.text ++ cs := by
  induction cs generalizing p with
  | nil => simp [scanFrom, run, Pending.text]
  | cons c rest ih =>
      have hScan : scanFrom p (c :: rest) =
          (p.next c).1 ++ scanFrom (p.next c).2 rest := by
        rw [scanFrom, run, List.append_assoc]
        rfl
      rw [hScan, List.flatMap_append, ih, ← List.append_assoc,
        Pending.text_next, List.append_assoc]
      rfl

/-- The tokens of a text spell the text. -/
theorem text_scan (cs : List Char) : (scan cs).flatMap Token.text = cs :=
  text_scanFrom .none cs

/-! ## Tokens end at edges -/

/-- The edge a character belongs to. -/
def edgeOf (c : Char) : Edge :=
  if isNamePart c ∨ c = '\x22' ∨ c = '\x27' ∨ c = '$' then .bare
  else if isOperatorChar c then .operator
  else .other

/-- The edge of a token that may go on; between quotes there is none. -/
def Pending.edge? : Pending → Option Edge
  | none => some .other
  | quoted _ _ => .none
  | placeholder _ | word _ => some .bare
  | operator _ => some .operator

theorem edgeOf_of_isNamePart {c : Char} (h : isNamePart c = true) :
    edgeOf c = .bare := by
  rw [edgeOf, if_pos (Or.inl h)]

theorem edgeOf_of_isOperatorChar {c : Char} (h : isOperatorChar c = true) :
    edgeOf c = .operator := by
  have hAll : (['-', '>', '<', '=', '!', ':'].all fun d =>
      edgeOf d == .operator) = true := by decide
  exact beq_iff_eq.1 (List.all_eq_true.1 hAll c (List.contains_iff_mem.1 h))

theorem Pending.extend?_eq_none {p : Pending} {e : Edge}
    (hEdge : p.edge? = some e) {c : Char}
    (hApart : e.touches (edgeOf c) = false) : p.extend? c = .none := by
  have hBare : e = .bare → isNamePart c = false := by
    rintro rfl
    rw [Bool.eq_false_iff]
    intro hPart
    rw [edgeOf_of_isNamePart hPart] at hApart
    exact absurd hApart (by decide)
  have hOperator : e = .operator → isOperatorChar c = false := by
    rintro rfl
    rw [Bool.eq_false_iff]
    intro hPart
    rw [edgeOf_of_isOperatorChar hPart] at hApart
    exact absurd hApart (by decide)
  cases p with
  | none => rfl
  | quoted mark text => cases hEdge
  | placeholder digits =>
      have hPart := hBare (Option.some.inj hEdge).symm
      have hDigit : c.isDigit = false := by
        rw [Bool.eq_false_iff]
        intro h
        rw [isNamePart_of_isDigit h] at hPart
        exact absurd hPart (by decide)
      simp [extend?, hDigit]
  | word text => simp [extend?, hBare (Option.some.inj hEdge).symm]
  | operator text => simp [extend?, hOperator (Option.some.inj hEdge).symm]

/-- Where two edges do not touch, the second text is scanned as if it stood
alone. -/
theorem scanFrom_of_apart {p : Pending} {e : Edge} (hEdge : p.edge? = some e)
    {cs : List Char} (hApart : ∀ c ∈ cs.head?, e.touches (edgeOf c) = false) :
    scanFrom p cs = p.flush ++ scan cs := by
  cases cs with
  | nil => simp [scanFrom, scan, run, Pending.flush]
  | cons c rest =>
      have hEnd := p.extend?_eq_none hEdge (hApart c rfl)
      have hNext : p.next c = (p.flush ++ (Pending.none.next c).1,
          (Pending.none.next c).2) := by
        rw [Pending.next, hEnd]
        rfl
      rw [scan, scanFrom, scanFrom, run, run, hNext, List.append_assoc,
        List.append_assoc]
      simp only [List.append_assoc]

/-- What is scanned of one text before another that stands apart from it. -/
structure Scans (cs : List Char) (tokens : List Token) (start finish : Edge) :
    Prop where
  start_eq : (cs.head?.map edgeOf) = some start
  tokens_eq : scan cs = tokens
  finish_eq : (run .none cs).2.edge? = some finish ∨
    (run .none cs).2.edge? = some .other

/-- What is scanned of a text can be read off a run over it. -/
theorem Scans.of_run {cs : List Char} {done : List Token} {p : Pending}
    {start finish : Edge} (hStart : cs.head?.map edgeOf = some start)
    (hRun : run .none cs = (done, p))
    (hEdge : p.edge? = some finish ∨ p.edge? = some .other) :
    Scans cs (done ++ p.flush) start finish := by
  refine ⟨hStart, ?_, ?_⟩
  · rw [scan, scanFrom, hRun]
  · rwa [hRun]

theorem Scans.append {cs : List Char} {tokens : List Token}
    {start finish : Edge} (h : Scans cs tokens start finish) {rest : List Char}
    (hApart : ∀ c ∈ rest.head?, finish.touches (edgeOf c) = false) :
    scan (cs ++ rest) = tokens ++ scan rest := by
  have hRest : scanFrom (run .none cs).2 rest =
      (run .none cs).2.flush ++ scan rest := by
    rcases h.finish_eq with hFinish | hOther
    · exact scanFrom_of_apart hFinish hApart
    · exact scanFrom_of_apart hOther fun _ _ => rfl
  rw [scan, scanFrom_append, hRest, ← List.append_assoc, ← h.tokens_eq]
  rfl

/-! ## The tokens of a piece -/

/-- Characters that continue a token are collected. -/
theorem run_extend {form : List Char → Pending} {cs : List Char}
    (h : ∀ c ∈ cs, ∀ before,
      (form before).extend? c = some ([], form (before ++ [c])))
    (before : List Char) :
    run (form before) cs = ([], form (before ++ cs)) := by
  induction cs generalizing before with
  | nil => rw [run, List.append_nil]
  | cons c rest ih =>
      have hNext : (form before).next c = ([], form (before ++ [c])) := by
        rw [Pending.next, h c List.mem_cons_self]
      have hRest := ih (fun d hd => h d (List.mem_cons_of_mem _ hd))
        (before ++ [c])
      rw [run, hNext, hRest, List.append_assoc]
      rfl

theorem run_quoted {mark : Char} (hMark : mark = '\x22' ∨ mark = '\x27')
    {text : List Char} (h : ∀ c ∈ text, c ≠ mark) :
    run .none (mark :: text ++ [mark]) = ([.quoted mark text], .none) := by
  have hStart : Pending.none.next mark = ([], .quoted mark []) := by
    simp [Pending.next, Pending.extend?, Pending.flush, Pending.begin, hMark]
  have hText : run (.quoted mark []) text = ([], .quoted mark text) :=
    run_extend (fun c hc before => by simp [Pending.extend?, h c hc]) []
  have hEnd : run (.quoted mark text) [mark] =
      ([.quoted mark text], .none) := by
    simp [run, Pending.next, Pending.extend?]
  rw [List.cons_append, run, hStart, run_append, hText]
  simp only [hEnd, List.nil_append]

theorem run_identifier {mark : Char} (hMark : mark = '\x22' ∨ mark = '\x27')
    (id : Identifier) :
    run .none (mark :: id.text.toList ++ [mark]) =
      ([.quoted mark id.text.toList], .none) := by
  have hPart : isNamePart mark = false := by
    rcases hMark with rfl | rfl <;> decide
  exact run_quoted hMark fun c hc =>
    ne_of_isNamePart (isNamePart_of_mem_isName id.isName c hc) hPart

theorem scans_quoted {mark : Char} (hMark : mark = '\x22' ∨ mark = '\x27')
    (id : Identifier) :
    Scans (mark :: id.text.toList ++ [mark]) [.quoted mark id.text.toList]
      .bare .bare := by
  refine .of_run ?_ (run_identifier hMark id) (Or.inr rfl)
  rcases hMark with rfl | rfl <;> rfl

theorem scans_digits {digits : List Char} (h : isDigits digits = true) :
    Scans digits [.word digits] .bare .bare := by
  have hPart := fun c hc =>
    isNamePart_of_isDigit (isDigit_of_mem_isDigits h c hc)
  cases digits with
  | nil => exact absurd h (by decide)
  | cons d rest =>
      have hFirst := hPart d List.mem_cons_self
      have hStart : Pending.none.next d = ([], .word [d]) := by
        have hName := ne_of_isNamePart hFirst (d := '\x22') (by decide)
        have hQuote := ne_of_isNamePart hFirst (d := '\x27') (by decide)
        have hDollar := ne_of_isNamePart hFirst (d := '$') (by decide)
        simp [Pending.next, Pending.extend?, Pending.flush, Pending.begin,
          hName, hQuote, hDollar, hFirst]
      have hRest : run (.word [d]) rest = ([], .word (d :: rest)) :=
        run_extend (fun c hc before => by
          simp [Pending.extend?, hPart c (List.mem_cons_of_mem _ hc)]) [d]
      have hRun : run .none (d :: rest) = ([], .word (d :: rest)) := by
        rw [run, hStart, hRest]
        rfl
      refine .of_run ?_ hRun (Or.inl rfl)
      exact congrArg some (edgeOf_of_isNamePart hFirst)

theorem scans_dollar (n : Nat) :
    Scans (dollar n) [.placeholder (Text.natDigits n)] .bare .bare := by
  have hRest : run (.placeholder []) (Text.natDigits n) =
      ([], .placeholder (Text.natDigits n)) :=
    run_extend (fun c hc before => by
      simp [Pending.extend?, Text.isDigit_of_mem_natDigits hc]) []
  have hRun : run .none (dollar n) = ([], .placeholder (Text.natDigits n)) := by
    have hStart : Pending.none.next '$' = ([], .placeholder []) := rfl
    rw [dollar, run, hStart, hRest]
    rfl
  exact .of_run rfl hRun (Or.inl rfl)

theorem Word.scans (w : Word) :
    Scans w.text.toList (scan w.text.toList) w.start w.finish := by
  cases w with
  | compare operator =>
      cases operator <;> exact ⟨rfl, rfl, Or.inl rfl⟩
  | function f => cases f <;> exact ⟨rfl, rfl, Or.inl rfl⟩
  | arrow a => cases a <;> exact ⟨rfl, rfl, Or.inl rfl⟩
  | _ => exact ⟨rfl, rfl, Or.inl rfl⟩

/-- The tokens of a piece; a value is written as the placeholder of a
number. -/
def Piece.tokens (number : Nat) : Piece → List Token
  | .word w => scan w.text.toList
  | .table schema name =>
      [.quoted '\x22' schema.text.toList, .symbol ['.'],
        .quoted '\x22' name.text.toList]
  | .column name | .label name => [.quoted '\x22' name.text.toList]
  | .field name => [.quoted '\x27' name.text.toList]
  | .index digits => [.word digits.text.toList]
  | .bind _ => [.placeholder (Text.natDigits number)]

/-- The tokens of pieces whose first value is the one after `count` others. -/
def tokensFrom : Nat → Fragment → List Token
  | _, [] => []
  | count, piece :: rest =>
      piece.tokens (count + 1) ++ tokensFrom (count + piece.values) rest

theorem scans_table (schema name : Identifier) (number : Nat) :
    Scans (Piece.table schema name).text.toList
      ((Piece.table schema name).tokens number) .bare .bare := by
  have hText : (Piece.table schema name).text.toList =
      ('\x22' :: schema.text.toList ++ ['\x22']) ++
        (['.'] ++ ('\x22' :: name.text.toList ++ ['\x22'])) := by
    rw [toList_table, toList_quoted, toList_quoted]
    rfl
  have hMark : '\x22' = '\x22' ∨ '\x22' = '\x27' := Or.inl rfl
  have hSchema := run_identifier hMark schema
  have hName := run_identifier hMark name
  have hDot : run .none ['.'] = ([.symbol ['.']], .none) := rfl
  have hRun : run .none (Piece.table schema name).text.toList =
      ((Piece.table schema name).tokens number, .none) := by
    rw [hText, run_append _ ('\x22' :: schema.text.toList ++ ['\x22']), hSchema,
      run_append _ ['.'], hDot, hName]
    rfl
  refine .of_run ?_ hRun (Or.inr rfl)
  rw [hText]
  rfl

theorem Piece.scans (piece : Piece) (number : Nat) :
    Scans (piece.chars (dollar number)) (piece.tokens number) piece.start
      piece.finish := by
  cases piece with
  | word w => exact w.scans
  | table schema name => exact scans_table schema name number
  | column name =>
      rw [Piece.chars_eq rfl, Piece.text, toList_quoted]
      exact scans_quoted (Or.inl rfl) name
  | label name =>
      rw [Piece.chars_eq rfl, Piece.text, toList_quoted]
      exact scans_quoted (Or.inl rfl) name
  | field name =>
      rw [Piece.chars_eq rfl, toList_field]
      exact scans_quoted (Or.inr rfl) name
  | index digits => exact scans_digits digits.isDigits
  | bind value => exact scans_dollar number

/-- The text of a piece starts with its edge. -/
theorem head?_charsWith (piece : Piece) (count : Nat) (rest : Fragment) :
    (charsWith dollar count (piece :: rest)).head?.map edgeOf =
      some piece.start := by
  have hStart := (piece.scans (count + 1)).start_eq
  rw [charsWith]
  cases hText : piece.chars (dollar (count + 1)) with
  | nil =>
      rw [hText] at hStart
      cases hStart
  | cons c others =>
      rw [hText] at hStart
      exact hStart

theorem apart_charsWith {piece : Piece} {rest : Fragment}
    (h : Tidy (piece :: rest)) (count : Nat) :
    ∀ c ∈ (charsWith dollar count rest).head?,
      piece.finish.touches (edgeOf c) = false := by
  intro c hc
  cases rest with
  | nil => cases hc
  | cons other others =>
      have hEdge := head?_charsWith other count others
      rw [Option.mem_def.1 hc] at hEdge
      rw [Option.some.inj hEdge]
      exact (List.isChain_cons_cons.1 h).1.1

/-- The tokens of a statement are those of its pieces. -/
theorem scan_charsWith {fragment : Fragment} (h : Tidy fragment) (count : Nat) :
    scan (charsWith dollar count fragment) = tokensFrom count fragment := by
  induction fragment generalizing count with
  | nil => rfl
  | cons piece rest ih =>
      rw [charsWith, (piece.scans (count + 1)).append (apart_charsWith h _),
        ih h.tail]
      rfl

/-! ## Tokens that may stand in a statement -/

/-- The words of statements. -/
def vocabulary : List (List Char) :=
  ["SELECT", "COUNT", "SUM", "AVG", "MIN", "MAX", "EXPLAIN", "FORMAT", "JSON",
    "INSERT", "INTO", "UPDATE", "DELETE", "FROM", "AS", "WHERE", "AND", "OR",
    "GROUP", "ORDER", "BY", "ASC", "DESC", "NULLS", "FIRST", "LAST", "LIMIT",
    "OFFSET", "DEFAULT", "VALUES", "ON", "CONFLICT", "DO", "NOTHING", "SET",
    "EXCLUDED", "RETURNING", "IS", "NOT", "NULL", "TRUE", "FALSE", "LIKE",
    "ILIKE", "IN", "numeric"].map String.toList

/-- The symbols of statements. -/
def symbols : List (List Char) :=
  [" ", "(", ")", ",", ".", "*", "=", "!=", ">", ">=", "<", "<=", "->", "->>",
    "::"].map String.toList

/-- A name or a key in its quotes, the digits of a placeholder, a number, or a
word or symbol of the fixed vocabulary. -/
def Token.isKnown : Token → Bool
  | quoted mark text => (mark == '\x22' || mark == '\x27') && isName text
  | placeholder digits => isDigits digits
  | word text => vocabulary.contains text || isDigits text
  | symbol text => symbols.contains text

/-- Tokens that would run together. -/
def Token.isBare : Token → Bool
  | symbol _ => false
  | _ => true

/-- A key of a path: in single quotes, or a number. -/
def Token.isKey : Token → Bool
  | quoted mark _ => mark == '\x27'
  | word text => isDigits text
  | _ => false

/-- The arrows of paths. -/
def Token.isArrow : Token → Bool
  | symbol text => text == ['-', '>'] || text == ['-', '>', '>']
  | _ => false

/-- A token may follow another if they do not run together and it is no key,
or follows an arrow, or is the number in `SELECT 1`. -/
def Token.mayFollow (s t : Token) : Bool :=
  !(s.isBare && t.isBare) &&
    (!t.isKey || s.isArrow || (t == word ['1'] && s == symbol [' ']))

/-- Tokens each of which may follow the one before. -/
def Ordered (tokens : List Token) : Prop :=
  tokens.IsChain fun s t => s.mayFollow t = true

instance (tokens : List Token) : Decidable (Ordered tokens) :=
  inferInstanceAs (Decidable (tokens.IsChain _))

/-- What the tokens of a piece are like. -/
structure Piece.Fits (piece : Piece) (tokens : List Token) : Prop where
  ne_nil : tokens ≠ []
  known : ∀ t ∈ tokens, t.isKnown = true
  ordered : Ordered tokens
  head : ∀ t ∈ tokens.head?, (t.isBare = true → piece.start = .bare) ∧
    (t.isKey = true → piece.isKey = true)
  last : ∀ t ∈ tokens.getLast?, (t.isBare = true → piece.finish = .bare) ∧
    (piece.isArrow = true → t.isArrow = true)

instance (piece : Piece) (tokens : List Token) :
    Decidable (piece.Fits tokens) :=
  decidable_of_iff
    (tokens ≠ [] ∧ (∀ t ∈ tokens, t.isKnown = true) ∧ Ordered tokens ∧
      (∀ t ∈ tokens.head?, (t.isBare = true → piece.start = .bare) ∧
        (t.isKey = true → piece.isKey = true)) ∧
      ∀ t ∈ tokens.getLast?, (t.isBare = true → piece.finish = .bare) ∧
        (piece.isArrow = true → t.isArrow = true))
    ⟨fun ⟨h₁, h₂, h₃, h₄, h₅⟩ => ⟨h₁, h₂, h₃, h₄, h₅⟩,
      fun h => ⟨h.ne_nil, h.known, h.ordered, h.head, h.last⟩⟩

theorem Word.fits (w : Word) : (Piece.word w).Fits (scan w.text.toList) := by
  cases w with
  | compare operator => cases operator <;> decide +kernel
  | function f => cases f <;> decide +kernel
  | arrow a => cases a <;> decide +kernel
  | _ => decide +kernel

theorem Piece.fits_single {piece : Piece} {t : Token}
    (hKnown : t.isKnown = true) (hStart : piece.start = .bare)
    (hFinish : piece.finish = .bare) (hArrow : piece.isArrow = false)
    (hKey : t.isKey = true → piece.isKey = true) : piece.Fits [t] := by
  refine ⟨List.cons_ne_nil _ _, fun u hu => ?_, List.isChain_singleton t,
    fun u hu => ?_, fun u hu => ?_⟩
  · rwa [List.mem_singleton.1 hu]
  · obtain rfl : t = u := Option.some.inj hu
    exact ⟨fun _ => hStart, hKey⟩
  · obtain rfl : t = u := Option.some.inj hu
    refine ⟨fun _ => hFinish, fun h => ?_⟩
    rw [hArrow] at h
    exact absurd h Bool.false_ne_true

theorem Piece.fits (piece : Piece) (number : Nat) :
    piece.Fits (piece.tokens number) := by
  cases piece with
  | word w => exact w.fits
  | table schema name =>
      have hSchema : (Token.quoted '\x22' schema.text.toList).isKnown = true :=
        schema.isName
      have hName : (Token.quoted '\x22' name.text.toList).isKnown = true :=
        name.isName
      refine ⟨List.cons_ne_nil _ _, fun t ht => ?_, ?_, fun t ht => ?_,
        fun t ht => ?_⟩
      · rcases List.mem_cons.1 ht with rfl | ht
        · exact hSchema
        · rcases List.mem_cons.1 ht with rfl | ht
          · decide
          · rwa [List.mem_singleton.1 ht]
      · exact .cons_cons rfl (.cons_cons rfl (List.isChain_singleton _))
      · obtain rfl := Option.some.inj ht
        exact ⟨fun _ => rfl, fun h => absurd h Bool.false_ne_true⟩
      · obtain rfl := Option.some.inj ht
        exact ⟨fun _ => rfl, fun h => absurd h Bool.false_ne_true⟩
  | column name =>
      exact fits_single name.isName rfl rfl rfl
        fun h => absurd h Bool.false_ne_true
  | label name =>
      exact fits_single name.isName rfl rfl rfl
        fun h => absurd h Bool.false_ne_true
  | field name => exact fits_single name.isName rfl rfl rfl fun _ => rfl
  | index digits =>
      refine fits_single ?_ rfl rfl rfl fun _ => rfl
      rw [Token.isKnown, digits.isDigits, Bool.or_true]
  | bind value =>
      exact fits_single (isDigits_natDigits number) rfl rfl rfl
        fun h => absurd h Bool.false_ne_true

theorem known_tokensFrom (count : Nat) (fragment : Fragment) :
    ∀ t ∈ tokensFrom count fragment, t.isKnown = true := by
  induction fragment generalizing count with
  | nil => simp [tokensFrom]
  | cons piece rest ih =>
      intro t ht
      rcases List.mem_append.1 ht with hPiece | hRest
      · exact (piece.fits (count + 1)).known t hPiece
      · exact ih _ t hRest

theorem head?_tokensFrom (piece : Piece) (count : Nat) (rest : Fragment) :
    ∀ t ∈ (tokensFrom count (piece :: rest)).head?,
      (t.isBare = true → piece.start = .bare) ∧
        (t.isKey = true → piece.isKey = true) := by
  intro t ht
  have hFits := piece.fits (count + 1)
  refine hFits.head t ?_
  rw [tokensFrom, List.head?_append_of_ne_nil _ hFits.ne_nil] at ht
  exact ht

/-- Pieces that stand apart give tokens in order. -/
theorem ordered_tokensFrom {fragment : Fragment} (h : Tidy fragment)
    (count : Nat) : Ordered (tokensFrom count fragment) := by
  induction fragment generalizing count with
  | nil => exact List.isChain_nil
  | cons piece rest ih =>
      have hFits := piece.fits (count + 1)
      refine hFits.ordered.append (ih h.tail _) fun s hs t ht => ?_
      cases rest with
      | nil => cases ht
      | cons other others =>
          obtain ⟨hTouch, hKey⟩ := (List.isChain_cons_cons.1 h).1
          obtain ⟨hFinish, hArrow⟩ := hFits.last s hs
          obtain ⟨hStart, hOther⟩ := head?_tokensFrom other _ others t ht
          rw [Token.mayFollow, Bool.and_eq_true, Bool.not_eq_true',
            Bool.eq_false_iff, Bool.or_eq_true, Bool.or_eq_true,
            Bool.not_eq_true']
          constructor
          · intro hBare
            rw [Bool.and_eq_true] at hBare
            rw [hFinish hBare.1, hStart hBare.2] at hTouch
            exact absurd hTouch (by decide)
          · cases hIsKey : t.isKey with
            | false => exact Or.inl (Or.inl rfl)
            | true => exact Or.inl (Or.inr (hArrow (hKey (hOther hIsKey))))

section

variable {mark : Char} (hMark : mark = '\x22' ∨ mark = '\x27')
include hMark

theorem count_nameParts {cs : List Char} (h : ∀ c ∈ cs, isNamePart c = true) :
    cs.count mark = 0 := by
  refine List.count_eq_zero.2 fun hMem => ?_
  have hPart := h mark hMem
  rcases hMark with rfl | rfl
  · exact absurd hPart (by decide)
  · exact absurd hPart (by decide)

theorem even_count_token {t : Token} (h : t.isKnown = true) :
    t.text.count mark % 2 = 0 := by
  cases t with
  | quoted quote text =>
      rw [Token.isKnown, Bool.and_eq_true] at h
      have hText := count_nameParts hMark (isNamePart_of_mem_isName h.2)
      rw [Token.text, List.count_append, List.count_cons, List.count_singleton,
        hText]
      split
      · rfl
      · rfl
  | placeholder digits =>
      have hDigits := count_nameParts hMark fun c hc =>
        isNamePart_of_isDigit (isDigit_of_mem_isDigits h c hc)
      have hDollar : ('$' == mark) = false := by
        rcases hMark with rfl | rfl <;> decide
      rw [Token.text, List.count_cons, hDigits, hDollar]
      rfl
  | word text =>
      rw [Token.isKnown, Bool.or_eq_true] at h
      have hText : text.count mark = 0 := by
        rcases h with hWord | hDigits
        · have hAll : ∀ w ∈ vocabulary, w.all isNamePart = true := by decide
          exact count_nameParts hMark (List.all_eq_true.1
            (hAll text (List.contains_iff_mem.1 hWord)))
        · exact count_nameParts hMark fun c hc =>
            isNamePart_of_isDigit (isDigit_of_mem_isDigits hDigits c hc)
      rw [Token.text, hText]
  | symbol text =>
      have hNone : ∀ w ∈ symbols, w.count mark = 0 := by
        rcases hMark with rfl | rfl <;> decide
      rw [Token.text, hNone text (List.contains_iff_mem.1 h)]

/-- Quotes come in pairs. -/
theorem even_count_text {tokens : List Token}
    (h : ∀ t ∈ tokens, t.isKnown = true) :
    (tokens.flatMap Token.text).count mark % 2 = 0 := by
  induction tokens with
  | nil => rfl
  | cons t rest ih =>
      have hFirst := even_count_token hMark (h t List.mem_cons_self)
      have hRest := ih fun u hu => h u (List.mem_cons_of_mem _ hu)
      rw [List.flatMap_cons, List.count_append]
      omega

end

/-! ## Statements -/

/-- A text that consists of quoted names, keys after arrows, placeholders, and
words and symbols of the fixed vocabulary. -/
structure Inert (cs : List Char) : Prop where
  /-- The tokens are the whole text. -/
  text_eq : (scan cs).flatMap Token.text = cs
  known : ∀ t ∈ scan cs, t.isKnown = true
  ordered : Ordered (scan cs)
  /-- The text does not start with a key. -/
  head : ∀ t ∈ (scan cs).head?, t.isKey = false
  /-- Quotes are balanced. -/
  even_quotes : cs.count '\x22' % 2 = 0 ∧ cs.count '\x27' % 2 = 0

/-- Whatever a statement is made from, its text is inert. -/
theorem statement_inert {table : Table} {command : Command} {s : Statement}
    (h : command.statement table = .ok s) : Inert s.sql.toList := by
  have hLoose := command.loose h
  have hTokens : scan s.sql.toList = tokensFrom 0 s.pieces := by
    rw [Statement.sql, toList_textFrom, scan_charsWith hLoose.tidy]
  have hText := text_scan s.sql.toList
  have hKnown : ∀ t ∈ scan s.sql.toList, t.isKnown = true := by
    rw [hTokens]
    exact known_tokensFrom 0 s.pieces
  refine ⟨hText, hKnown, ?_, fun t ht => ?_, ?_, ?_⟩
  · rw [hTokens]
    exact ordered_tokensFrom hLoose.tidy 0
  · rw [hTokens] at ht
    cases hPieces : s.pieces with
    | nil =>
        rw [hPieces] at ht
        cases ht
    | cons piece rest =>
        rw [hPieces] at ht
        have hNoKey := (hLoose.head piece (by rw [hPieces]; rfl)).2
        rw [Bool.eq_false_iff]
        intro hKey
        rw [(head?_tokensFrom piece 0 rest t ht).2 hKey] at hNoKey
        exact absurd hNoKey (by decide)
  · have hEven := even_count_text (Or.inl rfl : '\x22' = '\x22' ∨ _) hKnown
    rwa [hText] at hEven
  · have hEven := even_count_text (Or.inr rfl : '\x27' = '\x22' ∨ _) hKnown
    rwa [hText] at hEven

theorem pageOfItems_inert :
    ∃ s, pageOfItems.statement items = .ok s ∧ Inert s.sql.toList := by
  obtain ⟨s, h⟩ : ∃ s, pageOfItems.statement items = .ok s := ⟨_, rfl⟩
  exact ⟨s, h, statement_inert h⟩

end TableGate.Sql
