import DiagramEditor.Log.Entry
import DiagramEditor.Text.Basic
import DiagramEditor.Text.Quoted
import DiagramEditor.Text.Utf8
/-!
The console: entries become lines of text, and each line goes to the console method of its level. A
line is the level, right-aligned in five columns, the message, and the values by name. The bytes of
an entry may come in any pieces; what they hold is decided once the entry is complete.
-/
namespace DiagramEditor.Log

structure Writer where
  level : Level
  buffer : List UInt8

namespace Writer

def new (level : Level) : Writer := ⟨level, []⟩

def write (w : Writer) (chunk : List UInt8) : Nat × Writer :=
  (chunk.length, { w with buffer := w.buffer ++ chunk })

def isLineEnd (c : Char) : Bool := c == '\n' || c == '\r'

/-- The text of the bytes without its final line ends, unless it is blank. -/
def lineOf (bytes : List UInt8) : Option String :=
  let line := Text.dropEndWhile isLineEnd (Text.Utf8.decode bytes)
  if line.all Text.isBlank then none else some (String.ofList line)

def takeLine (w : Writer) : Option String × Writer :=
  (lineOf w.buffer, { w with buffer := [] })

end Writer

def Level.method : Level → String
  | .error => "error"
  | .warn => "warn"
  | .info => "info"
  | .debug | .trace => "debug"

def Writer.finish (w : Writer) : Option (String × String) :=
  w.takeLine.1.map fun line => (w.level.method, line)

def Value.text : Value → String
  | .count n => toString n
  | .real x => Decimal.Layout.marked.text x
  | .shown s => s
  | .quoted s => Text.quoted s

/-- Characters that could steer a terminal. -/
def steersTerminal (c : Char) : Bool :=
  c.toNat == 0x1B || c.toNat == 0x07 || c.toNat == 0x08 || c.toNat == 0x0C || c.toNat == 0x7F
    || (0x80 ≤ c.toNat && c.toNat ≤ 0x9F)

def messageChar (c : Char) : List Char :=
  if steersTerminal c then
    if c.toNat < 0x80 then
      ['\\', 'x', Nat.digitChar (c.toNat / 16), Nat.digitChar (c.toNat % 16)]
    else Text.codeEscape c
  else [c]

def messageText (s : String) : String :=
  String.ofList (s.toList.flatMap messageChar)

def Level.column (l : Level) : String :=
  String.ofList (List.replicate (5 - l.text.length) ' ') ++ l.text

def Entry.text (e : Entry) : String :=
  e.fields.foldl (fun line (name, value) => line ++ " " ++ name ++ "=" ++ value.text)
    (e.level.column ++ " " ++ messageText e.message)

structure Console where
  threshold : Option Level
  lines : List (String × String)

/-- A level by its name in either case, or by its rank in digits. -/
def Level.parse? (s : String) : Option Level :=
  let all := [Level.error, .warn, .info, .debug, .trace]
  let digits := if s.toList.head? = some '+' then s.toList.drop 1 else s.toList
  if !digits.isEmpty && digits.all Char.isDigit then
    let n := digits.foldl (fun n c => n * 10 + (c.toNat - '0'.toNat)) 0
    all.find? fun l => l.rank == n
  else all.find? fun l => Text.asciiLower l.text == Text.asciiLower s

namespace Console

def empty : Console := ⟨none, []⟩

def shows (c : Console) (l : Level) : Bool :=
  c.threshold.any fun t => l.rank ≤ t.rank

def log (c : Console) (e : Entry) : Console :=
  if c.shows e.level then
    let w := ((Writer.new e.level).write (e.text ++ "\n").toUTF8.toList).2
    { c with lines := c.lines ++ w.finish.toList }
  else c

def alreadyInstalled : Entry :=
  ⟨.debug, "console subscriber already installed",
    [("err", .shown "a global default trace dispatcher has already been set")]⟩

/-- Sets the threshold; only the first call counts. What is no level means information. -/
def install (c : Console) (level : String) : Console :=
  match c.threshold with
  | some _ => c.log alreadyInstalled
  | none => { c with threshold := some ((Level.parse? level).getD .info) }

end Console

end DiagramEditor.Log
