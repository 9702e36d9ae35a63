/-!
# Calendar dates

Dates of the Gregorian calendar, extended to all years, and their numbers counted from the first day
of 1970. Years are counted from March here, so that a leap day is the last day of its year.
-/

namespace TorrentRemote

structure Date where
  year : Int
  month : Nat
  day : Nat
  deriving DecidableEq

namespace Date

def eraDays : Nat := 146097

/-- The first day of the year counted from March that starts in `year`, day 0 being the first day
of March in year 0. -/
def marchDay (year : Int) : Int :=
  365 * year + year.fdiv 4 - year.fdiv 100 + year.fdiv 400

/-- The number of a date, 0 for the first day of 1970. -/
def toDays (date : Date) : Int :=
  let fromMarch := (date.month + 9) % 12
  let year := if date.month ≤ 2 then date.year - 1 else date.year
  marchDay year + (153 * fromMarch + 2) / 5 + (date.day - 1) - 719468

def ofDays (days : Int) : Date :=
  let shifted := days + 719468
  let era := shifted.fdiv eraDays
  let dayOfEra := (shifted.fmod eraDays).toNat
  let yearOfEra := (dayOfEra - dayOfEra / 1460 + dayOfEra / 36524 - dayOfEra / 146096) / 365
  let dayOfYear := dayOfEra - (365 * yearOfEra + yearOfEra / 4 - yearOfEra / 100)
  let fromMarch := (5 * dayOfYear + 2) / 153
  let month := if fromMarch < 10 then fromMarch + 3 else fromMarch - 9
  let year : Int := era * 400 + yearOfEra
  { year := if month ≤ 2 then year + 1 else year
    month
    day := dayOfYear - (153 * fromMarch + 2) / 5 + 1 }

end Date

end TorrentRemote
