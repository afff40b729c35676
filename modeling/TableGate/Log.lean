import TableGate.Number.Binary64
import TableGate.Text.Case

/-!
# The log

Log lines are recorded as calls to a console that understands markup between
brackets. The logger filters them by level, indents what is written inside an
indented part, and times a part with a clock that reads seconds.

Text that comes from outside is escaped before it is logged: a bracket that
would start a markup tag gets a backslash, and the backslashes before it are
doubled.
-/

namespace TableGate

open Number (Binary64)

/-- How important a log line is. -/
inductive Level
  | debug
  | info
  | warn
  | error
deriving DecidableEq, Repr

/-- The weight of a level; a logger shows lines of its own weight and up. -/
def Level.weight : Level → Nat
  | debug => 10
  | info => 20
  | warn => 30
  | error => 40

/-- One call to the console. -/
inductive LogLine
  | print (text : String)
  | blank
  | rule (text : String)
  | table (headers : List String) (rows : List (List String))
deriving DecidableEq, Repr

/-- The state of a logger: its level and indentation, what it has written,
and the readings its clock still has. -/
structure Logger where
  level : Level := .info
  indent : Nat := 0
  lines : List LogLine := []
  ticks : List Binary64 := []

namespace Logger

/-- Whether lines of a level are shown. -/
def shows (logger : Logger) (level : Level) : Bool :=
  logger.level.weight ≤ level.weight

/-- Append a line. -/
def write (logger : Logger) (line : LogLine) : Logger :=
  { logger with lines := logger.lines ++ [line] }

/-- Write a message of a level, indented and after a mark. -/
def emit (logger : Logger) (level : Level) (mark message : String) : Logger :=
  if logger.shows level then
    let blanks := String.ofList (List.replicate (2 * logger.indent) ' ')
    logger.write (.print (blanks ++ mark ++ message))
  else logger

def debug (logger : Logger) (message : String) : Logger :=
  logger.emit .debug "[dim]DEBUG[/dim] " message

def info (logger : Logger) (message : String) : Logger :=
  logger.emit .info "" message

def success (logger : Logger) (message : String) : Logger :=
  logger.emit .info "[green]✓[/green] " message

def warn (logger : Logger) (message : String) : Logger :=
  logger.emit .warn "[yellow]![/yellow] " message

def error (logger : Logger) (message : String) : Logger :=
  logger.emit .error "[bold red]✗[/bold red] " message

/-- Start a section: a blank line and a rule with its title. -/
def startSection (logger : Logger) (title : String) : Logger :=
  if logger.shows .info then
    (logger.write .blank).write (.rule ("[bold]" ++ title ++ "[/bold]"))
  else logger

/-- Write a table. Every row has as many cells as the widest of all rows and
the headers; a table without columns has no rows either. -/
def table (logger : Logger) (headers : List String)
    (rows : List (List String)) : Logger :=
  if logger.shows .info then
    let width := rows.foldl (fun w row => max w row.length) headers.length
    let fill (cells : List String) : List String :=
      cells ++ List.replicate (width - cells.length) ""
    let shown := if width = 0 then [] else rows.map fill
    logger.write (.table (fill headers) shown)
  else logger

/-- Indent what follows by one more step. -/
def deeper (logger : Logger) : Logger :=
  { logger with indent := logger.indent + 1 }

/-- Take back one step of indentation. -/
def shallower (logger : Logger) : Logger :=
  { logger with indent := logger.indent - 1 }

/-- Read the clock; one that has run down reads zero. -/
def tick (logger : Logger) : Binary64 × Logger :=
  match logger.ticks with
  | [] => (.zero, logger)
  | now :: rest => (now, { logger with ticks := rest })

/-- Milliseconds between two readings, with one place. -/
def elapsed (start stop : Binary64) : String :=
  ((stop.sub start).mul (.ofRatio false ⟨1000, 1⟩)).fixed 1

/-- Write how long a part took. -/
def report (logger : Logger) (label : String) (start stop : Binary64) :
    Logger :=
  logger.emit .info ""
    (label ++ " [dim](" ++ elapsed start stop ++ " ms)[/dim]")

end Logger

/-! ## Styles -/

/-- What is named in a log line. -/
inductive Palette
  | schema
  | table
  | view
  | column
  | sql
  | method
deriving DecidableEq, Repr

/-- The style of what is named. -/
def Palette.style : Palette → String
  | schema => "bold blue"
  | table => "cyan"
  | view => "magenta"
  | column => "green"
  | sql => "dim"
  | method => "bold yellow"

/-- A text between the tags of a style. -/
def Palette.paint (palette : Palette) (text : String) : String :=
  "[" ++ palette.style ++ "]" ++ text ++ "[/" ++ palette.style ++ "]"

/-! ## Escaping -/

/-- A character a markup tag may start with. -/
def startsTag (c : Char) : Bool :=
  ('a' ≤ c && c ≤ 'z') || c == '#' || c == '/' || c == '@'

/-- The length of what remains of a tag after its opening bracket. -/
def tagLength? : List Char → Option Nat
  | [] => none
  | c :: rest =>
      if startsTag c then
        let inside (d : Char) : Bool := d != '[' && d != ']'
        match rest.dropWhile inside with
        | ']' :: _ => some ((rest.takeWhile inside).length + 2)
        | _ => none
      else none

/-- Escape the tags of a text. `slashes` backslashes stand before it, and its
first `settled` characters belong to a tag that has been escaped. -/
def escapeTags : Nat → Nat → List Char → List Char
  | slashes, _, [] => List.replicate slashes '\\'
  | slashes, settled, c :: rest =>
      if 0 < settled then c :: escapeTags 0 (settled - 1) rest
      else if c = '\\' then escapeTags (slashes + 1) 0 rest
      else if c = '[' then
        match tagLength? rest with
        | some length =>
            List.replicate (2 * slashes + 1) '\\' ++
              c :: escapeTags 0 length rest
        | none => List.replicate slashes '\\' ++ c :: escapeTags 0 0 rest
      else List.replicate slashes '\\' ++ c :: escapeTags 0 0 rest

/-- Escape a text for the log. A single backslash at the end is doubled. -/
def escapeMarkup (s : String) : String :=
  let cs := escapeTags 0 0 s.toList
  let last := cs.reverse.takeWhile (· == '\\')
  .ofList (if last.length = 1 then cs ++ ['\\'] else cs)

end TableGate
