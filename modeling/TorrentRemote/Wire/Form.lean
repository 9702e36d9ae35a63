import TorrentRemote.Text.Base64
import TorrentRemote.Value.Basic

/-!
# Wire forms

On the wire, members of enumerated domains are integers or words, times and durations are counts of
seconds, and bytes are base64. Only plain data is left in a wire form.
-/

namespace TorrentRemote.Wire

/-- A moment before the second day of the calendar has no count of seconds on a clock whose offset
is not known. -/
inductive WriteError where
  | beforeCalendar
  deriving DecidableEq

def WriteError.message : WriteError → String
  | .beforeCalendar => "year 0 is out of range"

mutual

def write : Value → Except WriteError Value
  | .member m =>
    match m.code with
    | .number n => .ok (.int n)
    | .word s => .ok (.text s)
  | .time m =>
    match m.toSeconds? with
    | some n => .ok (.int n)
    | none => .error .beforeCalendar
  | .duration d => .ok (.int d.toSeconds)
  | .bytes bs => .ok (.text (Text.Base64.encode bs))
  | .buffer bs => .ok (.text (Text.Base64.encode bs))
  | .list vs => (writeAll vs).map .list
  | .tuple vs => (writeAll vs).map .list
  | .mapping entries => (writeEntries entries).map .mapping
  | .record _ fields => (writeFields fields).map .mapping
  | v => .ok v

def writeAll : List Value → Except WriteError (List Value)
  | [] => .ok []
  | v :: vs => do
    let w ← write v
    let ws ← writeAll vs
    return w :: ws

def writeEntries : List (Value × Value) → Except WriteError (List (Value × Value))
  | [] => .ok []
  | (k, v) :: rest => do
    let w ← write v
    let ws ← writeEntries rest
    return (k, w) :: ws

def writeFields : List (Label × Value) → Except WriteError (List (Value × Value))
  | [] => .ok []
  | (_, .null) :: rest => writeFields rest
  | (label, v) :: rest => do
    let w ← write v
    let ws ← writeFields rest
    return (.text label.wire, w) :: ws

end

end TorrentRemote.Wire
