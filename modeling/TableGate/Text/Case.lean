import TableGate.Text.Blank
import TableGate.Text.CaseTable

/-!
# Small and capital letters

Operators, count types, preferences and ordering words are compared without
regard to case, and a tag is the capital form of a schema name. Both maps are
those of the character database, so a text may change its length: the dotted
capital I becomes two code points when it is made small, and `ß` two when it
is made capital. The small form of the Greek sigma depends on its place: it is
the final sigma where a cased letter stands before it and none after it.

ASCII needs no table: there the maps are those of `Char`.
-/

namespace TableGate.Text

/-- The distance by which the runs move a code point; zero outside them. -/
def shiftBy (runs : List CaseRun) (n : Nat) : Int :=
  match runs.find? fun run =>
      run.first ≤ n && n ≤ run.last && (n - run.first) % run.step == 0 with
  | some run => run.shift
  | none => 0

/-- The character a run of the table moves a character to. -/
def shiftChar (runs : List CaseRun) (c : Char) : Char :=
  .ofNat ((c.toNat : Int) + shiftBy runs c.toNat).toNat

/-- Letters that have case and count as neighbours of a sigma. -/
def isCased (c : Char) : Bool := inRanges casedRanges c

/-- Characters passed over when a sigma looks for its neighbours. -/
def isCaseIgnorable (c : Char) : Bool := inRanges caseIgnorableRanges c

/-- The small form of a letter, wherever it stands. -/
def lowerChar (c : Char) : List Char :=
  if c.toNat < 128 then [c.toLower]
  else if c = 'İ' then ['i', '\u0307']
  else [shiftChar lowerRuns c]

/-- Whether the next letter, past what is passed over, has case. -/
def startsCased (cs : List Char) : Bool :=
  match cs.dropWhile isCaseIgnorable with
  | c :: _ => isCased c
  | [] => false

/-- The small form of a text that follows a cased letter or does not. -/
def lowerAfter : Bool → List Char → List Char
  | _, [] => []
  | afterCased, c :: rest =>
      let small :=
        if c = 'Σ' then
          [if afterCased && !startsCased rest then 'ς' else 'σ']
        else lowerChar c
      small ++ lowerAfter (if isCaseIgnorable c then afterCased else isCased c)
        rest

/-- The small form of a text. -/
def lowerChars (cs : List Char) : List Char :=
  if cs.all fun c => c.toNat < 128 then cs.map Char.toLower
  else lowerAfter false cs

/-- The small form of a text. -/
def lower (s : String) : String := .ofList (lowerChars s.toList)

/-- The capital form of a letter. -/
def upperChar (c : Char) : List Char :=
  if c.toNat < 128 then [c.toUpper]
  else
    match upperExpansions.lookup c.toNat with
    | some codes => codes.map Char.ofNat
    | none => [shiftChar upperRuns c]

/-- The capital form of a text. -/
def upper (s : String) : String := .ofList (s.toList.flatMap upperChar)

/-! ## ASCII -/

theorem lowerChars_ascii {cs : List Char} (h : ∀ c ∈ cs, c.toNat < 128) :
    lowerChars cs = cs.map Char.toLower := by
  have hAll : cs.all (fun c => c.toNat < 128) = true := by simpa using h
  simp [lowerChars, hAll]

end TableGate.Text
