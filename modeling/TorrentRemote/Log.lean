import TorrentRemote.Number.Fixed
import TorrentRemote.Text.Lines
import TorrentRemote.Text.LowerCase

/-!
# Log records

What the library reports while it works, the lines of a log file, and the report on a function that
took more than a millisecond.
-/

namespace TorrentRemote

namespace Log

inductive Level where
  | debug | info | warning | error | critical
  deriving DecidableEq

namespace Level

def word : Level → String
  | .debug => "DEBUG"
  | .info => "INFO"
  | .warning => "WARNING"
  | .error => "ERROR"
  | .critical => "CRITICAL"

def weight : Level → Nat
  | .debug => 10
  | .info => 20
  | .warning => 30
  | .error => 40
  | .critical => 50

def all : List Level := [.debug, .info, .warning, .error, .critical]

/-- The level of a name in any case; a name that is none stands for warnings. -/
def ofName (name : String) : Level :=
  let lower := String.ofList (Text.lower name.toList)
  (all.find? fun l => l.word.map Char.toLower = lower).getD .warning

end Level

structure Record where
  level : Level
  message : String
  deriving DecidableEq

def debug (message : String) : Record := ⟨.debug, message⟩

def warning (message : String) : Record := ⟨.warning, message⟩

def Record.text (r : Record) : String :=
  r.level.word ++ " " ++ r.message

/-! ## Log files -/

def padded (width : Nat) (s : String) : String :=
  s ++ String.ofList (List.replicate (width - s.length) ' ')

def Record.line (source : String) (r : Record) : String :=
  padded 15 source ++ " " ++ padded 8 r.level.word ++ " " ++ r.message

/-- A log file that keeps the records from a level on, with what has been written behind the times
so far. -/
structure File where
  path : String
  threshold : Level
  written : List String

def File.add (f : File) (source : String) (r : Record) : File :=
  if r.level.weight < f.threshold.weight then f
  else { f with written := f.written ++ [r.line source] }

def timeLength : Nat := 24

/-- The lines of the file without the place of the time. A record has its time in front of its first
line only, so its other lines lose a part of their text. -/
def File.lines (f : File) : List String :=
  f.written.flatMap fun text =>
    match Text.bareLines (text.toList ++ ['\n']) with
    | [] => []
    | first :: rest => (first :: rest.map (·.drop timeLength)).map String.ofList

/-- Starts a log file with a record of its own. Only below the level of warnings is the record kept,
and the names of those levels are ASCII. -/
def start (path levelName : String) : File :=
  let message :=
    "Logging initialized: level=" ++ levelName.map Char.toUpper ++ ", file=" ++ path
  (File.mk path (Level.ofName levelName) []).add "log" ⟨.info, message⟩

/-! ## Long calls -/

def longCall? (name : String) (began ended : Binary64) : Option Record :=
  let elapsed := (ended.sub began).scale 1000
  if (Binary64.ofRatio false 1 1).less elapsed then
    some (debug ("Function \"" ++ name ++ "\": " ++ elapsed.fixed 4 ++ " ms"))
  else none

end Log

end TorrentRemote
