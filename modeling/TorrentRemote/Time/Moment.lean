import TorrentRemote.Time.Calendar
import TorrentRemote.Time.Duration

/-!
# Moments

A moment is what a clock on the wall shows, and the offset of that clock from universal time if it
is known. A clock with no known offset is taken to show universal time.
-/

namespace TorrentRemote

/-- `wall` counts the microseconds since the start of 1970 on the clock itself. -/
structure Moment where
  wall : Int
  offset : Option Duration
  deriving DecidableEq

namespace Moment

def firstSecond : Int := -62135596800

def lastSecond : Int := 253402300799

/-- The moment a number of seconds after the start of 1970, on a clock of no known offset. The first
day of the calendar is left out, because the day before it is no date. -/
def ofSeconds? (n : Int) : Option Moment :=
  if firstSecond + secondsPerDay ≤ n ∧ n ≤ lastSecond then some ⟨n * microsPerSecond, none⟩
  else none

def instant (m : Moment) : Int :=
  match m.offset with
  | none => m.wall
  | some offset => m.wall - offset.micros

/-- The seconds since the start of 1970. A clock of no known offset gives none in the first day of
the calendar, where the day before cannot be looked at. -/
def toSeconds? (m : Moment) : Option Int :=
  if m.offset = none ∧ m.wall < (firstSecond + secondsPerDay) * microsPerSecond then none
  else some (wholeSeconds m.instant)

/-- Moments of known offset are compared in universal time; the others equal none of them. -/
def same (m n : Moment) : Bool :=
  m.offset.isSome = n.offset.isSome && m.instant = n.instant

/-! ## Parts -/

def date (m : Moment) : Date :=
  Date.ofDays (m.wall.fdiv (secondsPerDay * microsPerSecond))

def secondOfDay (m : Moment) : Nat :=
  ((m.wall.fdiv microsPerSecond).fmod secondsPerDay).toNat

def hour (m : Moment) : Nat := m.secondOfDay / 3600

def minute (m : Moment) : Nat := m.secondOfDay / 60 % 60

def second (m : Moment) : Nat := m.secondOfDay % 60

def microsecond (m : Moment) : Nat :=
  (m.wall.fmod microsPerSecond).toNat

/-! ## Text -/

def clockText (m : Moment) : String :=
  paddedText 2 m.hour ++ ":" ++ paddedText 2 m.minute ++ ":" ++ paddedText 2 m.second

def dayText (m : Moment) : String :=
  "-" ++ paddedText 2 m.date.month ++ "-" ++ paddedText 2 m.date.day

def offsetText (offset : Duration) : String :=
  let size := offset.micros.natAbs
  let seconds := size / 1000000
  let fraction := size % 1000000
  let fractionText := if fraction = 0 then "" else "." ++ paddedText 6 fraction
  let tail :=
    if seconds % 60 = 0 ∧ fraction = 0 then ""
    else ":" ++ paddedText 2 (seconds % 60) ++ fractionText
  (if offset.micros < 0 then "-" else "+") ++ paddedText 2 (seconds / 3600) ++ ":" ++
    paddedText 2 (seconds / 60 % 60) ++ tail

def isoText (separator : String) (m : Moment) : String :=
  let fraction := if m.microsecond = 0 then "" else "." ++ paddedText 6 m.microsecond
  let offset := (m.offset.map offsetText).getD ""
  paddedText 4 m.date.year.toNat ++ m.dayText ++ separator ++ m.clockText ++ fraction ++ offset

def quotedOffset (offset : Duration) : String :=
  if offset.micros = 0 then "tzinfo=datetime.timezone.utc"
  else "tzinfo=datetime.timezone(" ++ offset.quoted ++ ")"

def quoted (m : Moment) : String :=
  let fine :=
    if m.microsecond ≠ 0 then [m.second, m.microsecond]
    else if m.second ≠ 0 then [m.second]
    else []
  let parts := [m.date.year.toNat, m.date.month, m.date.day, m.hour, m.minute] ++ fine
  let offset := (m.offset.map quotedOffset).toList
  "datetime.datetime(" ++ ", ".intercalate (parts.map toString ++ offset) ++ ")"

end Moment

end TorrentRemote
