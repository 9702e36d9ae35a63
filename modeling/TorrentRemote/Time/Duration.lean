import TorrentRemote.Number.Binary64

/-!
# Durations

A span of time in microseconds. Spans of a billion days or more do not exist.
-/

namespace TorrentRemote

def paddedText (width n : Nat) : String :=
  let digits := Nat.toDigits 10 n
  String.ofList (List.replicate (width - digits.length) '0' ++ digits)

def microsPerSecond : Int := 1000000

def secondsPerDay : Int := 86400

/-- A count of microseconds as whole seconds: the seconds as a binary number, the fraction
dropped. -/
def wholeSeconds (micros : Int) : Int :=
  ((Binary64.ofRatio (micros < 0) micros.natAbs microsPerSecond.natAbs).truncate?).getD 0

structure Duration where
  micros : Int
  deriving DecidableEq

namespace Duration

def mostDays : Int := 999999999

def ofSeconds? (n : Int) : Option Duration :=
  let days := n.fdiv secondsPerDay
  if -mostDays ≤ days ∧ days ≤ mostDays then some ⟨n * microsPerSecond⟩ else none

def toSeconds (d : Duration) : Int :=
  wholeSeconds d.micros

/-! ## Parts -/

def days (d : Duration) : Int :=
  d.micros.fdiv (secondsPerDay * microsPerSecond)

def seconds (d : Duration) : Nat :=
  ((d.micros.fdiv microsPerSecond).fmod secondsPerDay).toNat

def microseconds (d : Duration) : Nat :=
  (d.micros.fmod microsPerSecond).toNat

def partsText (d : Duration) : String :=
  let parts := [("days", d.days), ("seconds", (d.seconds : Int)), ("microseconds", d.microseconds)]
  match parts.filter fun part => part.2 ≠ 0 with
  | [] => "0"
  | kept => ", ".intercalate (kept.map fun part => part.1 ++ "=" ++ toString part.2)

def quoted (d : Duration) : String :=
  "datetime.timedelta(" ++ d.partsText ++ ")"

def clockText (d : Duration) : String :=
  let days :=
    if d.days = 0 then ""
    else toString d.days ++ (if d.days.natAbs = 1 then " day, " else " days, ")
  let minutes := d.seconds / 60
  let fraction := if d.microseconds = 0 then "" else "." ++ paddedText 6 d.microseconds
  days ++ toString (minutes / 60) ++ ":" ++ paddedText 2 (minutes % 60) ++ ":" ++
    paddedText 2 (d.seconds % 60) ++ fraction

end Duration

end TorrentRemote
