import TorrentRemote.Arguments
import TorrentRemote.Value.Convert
import TorrentRemote.Value.Same

/-!
# Texts for people

Sizes and speeds in the largest unit that gives at least one of it, fractions as percentages, and
durations by days, hours, minutes and seconds. What was shown before is looked up by its value, so
values that can change in place are refused.
-/

namespace TorrentRemote.Display

/-- Values that are looked up by cannot change in place. -/
def checkKey (vs : List Value) : Except Failure Unit :=
  match Value.changeableIn? vs with
  | some kind => .error (.unhashable kind)
  | none => .ok ()

/-! ## Sizes -/

structure Units where
  base : Nat
  letters : List Char
  ending : String

def binaryUnits : Units := ⟨1024, "KMGTPEZY".toList, "iB"⟩

def decimalUnits : Units := ⟨1000, "kMGTPEZY".toList, "B"⟩

/-- How often a number can be divided by the base and still be at least the base, up to a limit. -/
def climb (base : Nat) : (limit n : Nat) → Nat
  | 0, _ => 0
  | limit + 1, n => if n < base then 0 else climb base limit (n / base) + 1

def climbBinary (base : Nat) : (limit : Nat) → Binary64 → Nat
  | 0, _ => 0
  | limit + 1, x =>
    if x.atLeast base then climbBinary base limit (x.divideWhole base) + 1 else 0

def Units.indexFor (u : Units) (count : Nat) : Nat :=
  climb u.base (u.letters.length - 1) (count / u.base)

def Units.indexForBinary (u : Units) (count : Binary64) : Nat :=
  climbBinary u.base (u.letters.length - 1) (count.divideWhole u.base)

def Units.label (u : Units) (layout : Except Failure FixedLayout) (suffix : Except Failure String)
    (index : Nat) (quotient : Binary64) : Except Failure String := do
  let l ← layout
  let letter := String.ofList [u.letters.getD index ' ']
  return l.set quotient ++ " " ++ letter ++ u.ending ++ (← suffix)

def sizeText (u : Units) (layout : Except Failure FixedLayout) (suffix : Except Failure String)
    (count : Int) : Except Failure String :=
  if count.natAbs < u.base then suffix.map (toString count ++ " B" ++ ·)
  else
    let index := u.indexFor count.natAbs
    let quotient := Binary64.ofRatio (count < 0) count.natAbs (Nat.pow u.base (index + 1))
    if quotient.isInfinite then .error .quotientTooLarge
    else u.label layout suffix index quotient

def sizeTextBinary (u : Units) (layout : Except Failure FixedLayout)
    (suffix : Except Failure String) (count : Binary64) : Except Failure String :=
  if count.abs.less (Binary64.ofRatio false u.base 1) then suffix.map (count.text ++ " B" ++ ·)
  else
    let index := u.indexForBinary count.abs
    u.label layout suffix index (count.divide (Nat.pow u.base (index + 1)))

structure SizeStyle where
  binary : Value := .bool true
  places : Value := .int 2
  suffix : Value := .text ""

def layoutOf (places : Value) : Except Failure FixedLayout := do
  (FixedLayout.ofPlaces (← places.toText)).mapError .layout

/-- The text of a size. A flag is a count too, and stands for itself. -/
def size (style : SizeStyle) (v : Value) : Except Failure String := do
  checkKey [v, style.binary, style.places, style.suffix]
  let units := if style.binary.isTrue then binaryUnits else decimalUnits
  let layout := layoutOf style.places
  let suffix := style.suffix.toText
  match v with
  | .bool _ => suffix.map (v.plain ++ " B" ++ ·)
  | .duration _ => throw (.notOrdered v.kindPath)
  | _ =>
    match v.quantity? with
    | some (.whole n) => sizeText units layout suffix n
    | some (.binary x) => sizeTextBinary units layout suffix x
    | none => throw (.noMagnitude v.kindPath)

def speed (binary v : Value) : Except Failure String :=
  size { binary, suffix := .text "/s" } v

/-! ## Fractions -/

def percentText (q : Value.Quantity) : Except Failure String :=
  match q with
  | .binary x => .ok ((x.scale 100).fixed 0 ++ "%")
  | .whole n =>
    match Binary64.ofInt? (n * 100) with
    | some x => .ok (x.fixed 0 ++ "%")
    | none => .error .integerTooLarge

/-- The failure of what can be taken a hundred times but is no number. -/
def percentFailure (v : Value) : Failure :=
  match v with
  | .duration d =>
    let days := (d.micros * 100) / 86400000000
    if days.natAbs ≤ 999999999 then .noLayout v.kindPath else .durationTooLong days
  | .bytes _ | .tuple _ => .noLayout v.kindPath
  | _ => if v.text?.isSome then .textAsNumber else .notScalable v.kindPath

def percent (v : Value) : Except Failure String := do
  checkKey [v]
  match v.quantity? with
  | some q => percentText q
  | none => throw (percentFailure v)

/-! ## Times -/

def spans : List (String × Nat) :=
  [("d", 86400), ("h", 3600), ("m", 60), ("s", 1)]

def spanTexts : List (String × Nat) → Nat → List String
  | [], _ => []
  | (letter, length) :: rest, seconds =>
    let count := seconds / length
    let tail := spanTexts rest (seconds % length)
    if count = 0 then tail else (toString count ++ letter) :: tail

/-- A duration in whole seconds. The daemon says -1 for a torrent that is done and -2 for a duration
that it does not know. -/
def durationText (d : Duration) : String :=
  let seconds := d.toSeconds
  if seconds = -1 then "Done"
  else if seconds = -2 then "Unknown"
  else if seconds = 0 then "0s"
  else (if seconds < 0 then "-" else "") ++ String.join (spanTexts spans seconds.natAbs)

def nothing : String := "-"

def duration (v : Value) : Except Failure String := do
  checkKey [v]
  match v with
  | .null => return nothing
  | .duration d => return durationText d
  | _ => throw (.noOperation v.kindPath "total_seconds")

/-- Date and clock time; years have no zeros in front. -/
def timeText (m : Moment) : String :=
  toString m.date.year ++ m.dayText ++ " " ++ m.clockText

def time (v : Value) : Except Failure String :=
  match v with
  | .null => .ok nothing
  | .time m => .ok (timeText m)
  | _ => .error (.noOperation v.kindPath "strftime")

/-! ## All kinds -/

inductive Kind where
  | size | speed | percent | duration | time
  deriving DecidableEq

def Kind.operation : Kind → String
  | .size => "print_size"
  | .speed => "print_speed"
  | .percent => "print_percent"
  | .duration => "print_duration"
  | .time => "print_time"

def Kind.argumentNames : Kind → List String
  | .size => ["iec", "prec", "suffix"]
  | .speed => ["iec"]
  | _ => []

def styleOf (a : Arguments) : SizeStyle :=
  let usual : SizeStyle := {}
  { binary := a.pick 0 "iec" usual.binary
    places := a.pick 1 "prec" usual.places
    suffix := a.pick 2 "suffix" usual.suffix }

def text (kind : Kind) (v : Value) (a : Arguments) : Except Failure String := do
  a.checkNames kind.operation kind.argumentNames
  match kind with
  | .size => size (styleOf a) v
  | .speed => speed (styleOf a).binary v
  | .percent => percent v
  | .duration => duration v
  | .time => time v

/-! ## Texts that are kept -/

/-- What a call is looked up by. An integer or a text that is the only argument stands for itself. -/
inductive Key where
  | alone (v : Value)
  | all (ordered : List Value) (named : List (String × Value))

def keyOf (v : Value) (a : Arguments) : Key :=
  match v, a.ordered, a.named with
  | .int n, [], [] => .alone (.int n)
  | .text s, [], [] => .alone (.text s)
  | _, _, _ => .all (v :: a.ordered) a.named

def sameNamed : List (String × Value) → List (String × Value) → Bool
  | [], [] => true
  | (name, v) :: rest, (other, w) :: others => name = other && v.same w && sameNamed rest others
  | _, _ => false

/-- Values are looked up by sameness, so one that is given by name is not found in its place. -/
def Key.same : Key → Key → Bool
  | .alone v, .alone w => v.same w
  | .all vs es, .all ws fs => Value.sameAll vs ws && sameNamed es fs
  | _, _ => false

abbrev Memory := Kind → List (Key × String)

def Memory.recall (m : Memory) (kind : Kind) (key : Key) : Option String :=
  ((m kind).find? fun kept => kept.1.same key).map Prod.snd

def Memory.keep (m : Memory) (kind : Kind) (key : Key) (text : String) : Memory :=
  fun other => if other = kind then (key, text) :: m other else m other

/-- Gives the text that is kept for a call, or else makes the call and keeps its text. -/
def Memory.remember (m : Memory) (kind : Kind) (v : Value) (a : Arguments)
    (make : Except Failure String × Memory) : Except Failure String × Memory :=
  match checkKey (v :: a.ordered ++ a.named.map Prod.snd) with
  | .error e => (.error e, m)
  | .ok () =>
    match m.recall kind (keyOf v a) with
    | some s => (.ok s, m)
    | none =>
      match make with
      | (.ok s, m) => (.ok s, m.keep kind (keyOf v a) s)
      | (.error e, m) => (.error e, m)

def speedArguments (a : Arguments) : Arguments :=
  { named := [("iec", (styleOf a).binary), ("suffix", .text "/s")] }

/-- A call of an operation. A speed is shown by a call for a size, and the texts of times are not
kept. -/
def Memory.tell (m : Memory) (kind : Kind) (v : Value) (a : Arguments) :
    Except Failure String × Memory :=
  match kind with
  | .time => (text .time v a, m)
  | .speed =>
    m.remember .speed v a <|
      match a.checkNames Kind.speed.operation Kind.speed.argumentNames with
      | .error e => (.error e, m)
      | .ok () =>
        let b := speedArguments a
        m.remember .size v b (text .size v b, m)
  | _ => m.remember kind v a (text kind v a, m)

end TorrentRemote.Display
