import TableGate.Text.Integer

/-!
# Dates and timestamps

Cells may hold dates and timestamps. They are written in the ISO form, with a
fraction of six digits only when there is one and an offset only when the
timestamp has one.
-/

namespace TableGate

/-- A day of the calendar. -/
structure Date where
  year : Nat
  month : Nat
  day : Nat
deriving DecidableEq, Repr

/-- A day and a time of day, with the offset from universal time in seconds
if one is known. -/
structure Timestamp where
  date : Date
  hour : Nat
  minute : Nat
  second : Nat
  microsecond : Nat
  offset : Option Int
deriving DecidableEq, Repr

open Text (padded natText intText)

/-- The ISO text of a day. -/
def Date.text (d : Date) : String :=
  padded 4 d.year ++ "-" ++ padded 2 d.month ++ "-" ++ padded 2 d.day

/-- The text of an offset: sign, hours, minutes, and seconds if there are
any. -/
def offsetText (offset : Int) : String :=
  let n := offset.natAbs
  let sign := if offset < 0 then "-" else "+"
  let base := sign ++ padded 2 (n / 3600) ++ ":" ++ padded 2 (n / 60 % 60)
  if n % 60 = 0 then base else base ++ ":" ++ padded 2 (n % 60)

/-- The ISO text of a timestamp, with the given text between day and time. -/
def Timestamp.textWith (between : String) (t : Timestamp) : String :=
  let clock := padded 2 t.hour ++ ":" ++ padded 2 t.minute ++ ":" ++
    padded 2 t.second
  let fraction :=
    if t.microsecond = 0 then "" else "." ++ padded 6 t.microsecond
  let offset := (t.offset.map offsetText).getD ""
  t.date.text ++ between ++ clock ++ fraction ++ offset

/-! ## Source form -/

/-- Numbers between commas. -/
private def commaList (ns : List Nat) : String :=
  ", ".intercalate (ns.map natText)

/-- A day as a message shows it. -/
def Date.quoted (d : Date) : String :=
  "datetime.date(" ++ commaList [d.year, d.month, d.day] ++ ")"

/-- An offset as a message shows it: a negative one is a whole number of days
back and seconds forward. -/
def quotedOffset (offset : Int) : String :=
  if offset = 0 then "datetime.timezone.utc"
  else
    let days := offset / 86400
    let seconds := offset % 86400
    let parts :=
      (if days = 0 then [] else ["days=" ++ intText days]) ++
      (if seconds = 0 then [] else ["seconds=" ++ intText seconds])
    "datetime.timezone(datetime.timedelta(" ++ ", ".intercalate parts ++ "))"

/-- A timestamp as a message shows it, without the zeros that end it. -/
def Timestamp.quoted (t : Timestamp) : String :=
  let lead := [t.date.year, t.date.month, t.date.day, t.hour, t.minute]
  let tail :=
    if t.microsecond ≠ 0 then [t.second, t.microsecond]
    else if t.second ≠ 0 then [t.second]
    else []
  let zone :=
    match t.offset with
    | none => ""
    | some offset => ", tzinfo=" ++ quotedOffset offset
  "datetime.datetime(" ++ commaList (lead ++ tail) ++ zone ++ ")"

/-! ## Reading -/

/-- The number that `width` ASCII digits at the front stand for, and the
rest. -/
private def readFixed (width : Nat) (cs : List Char) :
    Option (Nat × List Char) :=
  let ds := cs.take width
  if ds.length = width ∧ ds.all Char.isDigit then
    some (Text.digitsValue ds, cs.drop width)
  else none

private def skipChar (c : Char) : List Char → Option (List Char)
  | d :: rest => if d = c then some rest else none
  | [] => none

private def readDate (cs : List Char) : Option (Date × List Char) := do
  let (year, cs) ← readFixed 4 cs
  let cs ← skipChar '-' cs
  let (month, cs) ← readFixed 2 cs
  let cs ← skipChar '-' cs
  let (day, cs) ← readFixed 2 cs
  return (⟨year, month, day⟩, cs)

/-- Two digits after a colon, zero when there is no colon. -/
private def readPart (cs : List Char) : Option (Nat × List Char) :=
  match cs with
  | ':' :: rest => readFixed 2 rest
  | _ => some (0, cs)

/-- Read the ISO text of a day. -/
def Date.ofText? (s : String) : Option Date := do
  match ← readDate s.toList with
  | (d, []) => return d
  | _ => none

private def readOffset : List Char → Option (Option Int)
  | [] => some none
  | ['Z'] => some (some 0)
  | sign :: cs => do
      if sign ≠ '+' ∧ sign ≠ '-' then none
      let (hours, cs) ← readFixed 2 cs
      let (minutes, cs) ← readPart cs
      let (seconds, cs) ← readPart cs
      if !cs.isEmpty then none
      let n : Int := (hours * 60 + minutes) * 60 + seconds
      return some (if sign = '-' then -n else n)

/-- Read the ISO text of a timestamp, with any one character between day and
time. -/
def Timestamp.ofText? (s : String) : Option Timestamp := do
  let (date, cs) ← readDate s.toList
  match cs with
  | [] => return ⟨date, 0, 0, 0, 0, none⟩
  | _ :: cs =>
      let (hour, cs) ← readFixed 2 cs
      let (minute, cs) ← readPart cs
      let (second, cs) ← readPart cs
      let (microsecond, cs) :=
        match cs with
        | '.' :: rest =>
            let ds := (rest.takeWhile Char.isDigit).take 6
            let ds := ds ++ List.replicate (6 - ds.length) '0'
            (Text.digitsValue ds, rest.dropWhile Char.isDigit)
        | _ => (0, cs)
      let offset ← readOffset cs
      return ⟨date, hour, minute, second, microsecond, offset⟩

end TableGate
