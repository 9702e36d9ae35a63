import TorrentRemote.Json.Error
import TorrentRemote.Text.Hex
import TorrentRemote.Text.WideUnits
import TorrentRemote.Value.Basic

/-!
# Reading JSON

A reader takes a value off the front of a text and gives the rest back with its position, so that an
error names the place where it was found. Of two equal keys in an object the later value counts, at
the place of the first.
-/

namespace TorrentRemote.Json

structure Input where
  position : Nat
  rest : List Char

namespace Input

def fail {α} (i : Input) (problem : Problem) : Except Fault α :=
  .error (.at i.position problem)

def drop (i : Input) (n : Nat) : Input :=
  ⟨i.position + n, i.rest.drop n⟩

end Input

def isSpace (c : Char) : Bool :=
  c = ' ' || c = '\t' || c = '\n' || c = '\r'

def skipSpaceFrom (position : Nat) : List Char → Input
  | c :: rest => if isSpace c then skipSpaceFrom (position + 1) rest else ⟨position, c :: rest⟩
  | [] => ⟨position, []⟩

def Input.skipSpace (i : Input) : Input :=
  skipSpaceFrom i.position i.rest

/-! ## Numbers -/

def digits (cs : List Char) : List Char :=
  cs.takeWhile Char.isDigit

/-- The digits of a whole part: a lone zero or digits that start with none. -/
def wholeDigits : List Char → List Char
  | '0' :: _ => ['0']
  | cs => digits cs

def fractionDigits : List Char → List Char
  | '.' :: rest => digits rest
  | _ => []

def signWidth : List Char → Nat
  | '-' :: _ => 1
  | '+' :: _ => 1
  | _ => 0

/-- The sign and digits of an exponent with the count of characters it takes. Without digits there
is no exponent. -/
def exponentPart? : List Char → Option (Bool × List Char × Nat)
  | c :: rest =>
    if c = 'e' ∨ c = 'E' then
      let (negative, body) := Numeral.takeSign rest
      match digits body with
      | [] => none
      | ds => some (negative, ds, 1 + signWidth rest + ds.length)
    else none
  | [] => none

def readNumber (i : Input) : Except Fault (Value × Input) :=
  let negative := i.rest.head? = some '-'
  let body := if negative then i.drop 1 else i
  match wholeDigits body.rest with
  | [] => i.fail .expectingValue
  | whole =>
    let afterWhole := body.drop whole.length
    let fraction := fractionDigits afterWhole.rest
    let afterFraction :=
      if fraction.isEmpty then afterWhole else afterWhole.drop (fraction.length + 1)
    match fraction, exponentPart? afterFraction.rest with
    | [], none =>
      if whole.length > Numeral.digitLimit then .error (.tooManyDigits whole.length)
      else
        let n : Int := Numeral.digitsValue whole
        .ok (.int (if negative then -n else n), afterWhole)
    | _, none =>
      let d := ⟨Numeral.digitsValue (whole ++ fraction), -(fraction.length : Int)⟩
      .ok (.float (Binary64.ofDecimal negative d), afterFraction)
    | _, some (minus, ds, width) =>
      let e : Int := Numeral.digitsValue ds
      let d := ⟨Numeral.digitsValue (whole ++ fraction),
        (if minus then -e else e) - fraction.length⟩
      .ok (.float (Binary64.ofDecimal negative d), afterFraction.drop width)

/-! ## Strings -/

def escaped? (c : Char) : Option Char :=
  if c = '"' ∨ c = '\\' ∨ c = '/' then some c
  else if c = 'b' then some '\x08'
  else if c = 'f' then some '\x0c'
  else if c = 'n' then some '\n'
  else if c = 'r' then some '\r'
  else if c = 't' then some '\t'
  else none

/-- The number of four hexadecimal digits at the front, which something has to follow. -/
def fourDigits? (cs : List Char) : Option Nat :=
  if (cs.drop 4).isEmpty then none else Text.hexNumber? (cs.take 4)

/-- The second half of a pair after a high half: an escape that something follows. The inner option
is none where the escape has no digits. -/
def secondHalf? : List Char → Option (Option Nat)
  | '\\' :: 'u' :: rest =>
    if (rest.drop 4).isEmpty then none else some (Text.hexNumber? (rest.take 4))
  | _ => none

/-- Reads characters up to the closing quote. `start` is the position of the opening one. -/
def readChars (start : Nat) : (fuel : Nat) → Input → Except Fault (List Char × Input)
  | 0, _ => .error (.at start .unterminatedString)
  | fuel + 1, i =>
    match i.rest with
    | [] => .error (.at start .unterminatedString)
    | '"' :: _ => .ok ([], i.drop 1)
    | '\\' :: [] => .error (.at start .unterminatedString)
    | '\\' :: 'u' :: rest =>
      match fourDigits? rest with
      | none => (i.drop 1).fail .badUnicodeEscape
      | some unit =>
        let single := fun (_ : Unit) =>
          (readChars start fuel (i.drop 6)).map fun (cs, tail) =>
            (Text.charOfNumber unit :: cs, tail)
        if Text.isHighHalf unit then
          match secondHalf? (rest.drop 4) with
          | none => single ()
          | some none => (i.drop 7).fail .badUnicodeEscape
          | some (some next) =>
            if Text.isLowHalf next then
              (readChars start fuel (i.drop 12)).map fun (cs, tail) =>
                (Text.charOfNumber (Text.joinHalves unit next) :: cs, tail)
            else single ()
        else single ()
    | '\\' :: c :: _ =>
      match escaped? c with
      | none => i.fail .badEscape
      | some d => (readChars start fuel (i.drop 2)).map fun (cs, tail) => (d :: cs, tail)
    | c :: _ =>
      if c.toNat < 0x20 then i.fail .controlCharacter
      else (readChars start fuel (i.drop 1)).map fun (cs, tail) => (c :: cs, tail)

def readString (i : Input) : Except Fault (String × Input) :=
  (readChars i.position i.rest.length (i.drop 1)).map fun (cs, tail) => (String.ofList cs, tail)

/-! ## Values -/

def words : List (List Char × Value) := [
  ("null".toList, .null),
  ("true".toList, .bool true),
  ("false".toList, .bool false),
  ("NaN".toList, .float (.nan 0)),
  ("Infinity".toList, .float (Binary64.infinity false)),
  ("-Infinity".toList, .float (Binary64.infinity true))]

def readAtom (i : Input) : Except Fault (Value × Input) :=
  match words.find? fun word => word.1.isPrefixOf i.rest with
  | some (word, v) => .ok (v, i.drop word.length)
  | none => readNumber i

/-- Puts an entry in: a key that is there already keeps its place. -/
def putEntry (key : String) (v : Value) : List (Value × Value) → List (Value × Value)
  | [] => [(.text key, v)]
  | (k, w) :: rest =>
    if k.text? = some key then (k, v) :: rest else (k, w) :: putEntry key v rest

def collect (entries : List (String × Value)) : List (Value × Value) :=
  entries.foldl (fun out (key, v) => putEntry key v out) []

mutual

/-- Reads the value that starts at `i`. The fuel bounds the count of values, which is at most that
of characters. -/
def readValue : (fuel : Nat) → Input → Except Fault (Value × Input)
  | 0, i => i.fail .expectingValue
  | fuel + 1, i =>
    match i.rest with
    | '"' :: _ => (readString i).map fun (s, tail) => (.text s, tail)
    | '[' :: _ =>
      let inner := (i.drop 1).skipSpace
      if inner.rest.head? = some ']' then .ok (.list [], inner.drop 1)
      else (readItems fuel inner).map fun (vs, tail) => (.list vs, tail)
    | '\x7b' :: _ =>
      let inner := (i.drop 1).skipSpace
      if inner.rest.head? = some '\x7d' then .ok (.mapping [], inner.drop 1)
      else (readEntries fuel inner).map fun (entries, tail) => (.mapping (collect entries), tail)
    | _ => readAtom i

def readItems : (fuel : Nat) → Input → Except Fault (List Value × Input)
  | 0, i => i.fail .expectingValue
  | fuel + 1, i => do
    let (v, afterValue) ← readValue fuel i
    let next := afterValue.skipSpace
    match next.rest with
    | ']' :: _ => return ([v], next.drop 1)
    | ',' :: _ =>
      let (vs, tail) ← readItems fuel (next.drop 1).skipSpace
      return (v :: vs, tail)
    | _ => next.fail .expectingComma

def readEntries : (fuel : Nat) → Input → Except Fault (List (String × Value) × Input)
  | 0, i => i.fail .expectingName
  | fuel + 1, i => do
    if i.rest.head? ≠ some '"' then i.fail .expectingName
    else
      let (key, afterKey) ← readString i
      let colon := afterKey.skipSpace
      if colon.rest.head? ≠ some ':' then colon.fail .expectingColon
      else
        let (v, afterValue) ← readValue fuel (colon.drop 1).skipSpace
        let next := afterValue.skipSpace
        match next.rest with
        | '\x7d' :: _ => return ([(key, v)], next.drop 1)
        | ',' :: _ =>
          let (entries, tail) ← readEntries fuel (next.drop 1).skipSpace
          return ((key, v) :: entries, tail)
        | _ => next.fail .expectingComma

end

def readText (cs : List Char) : Except Fault Value := do
  let (v, tail) ← readValue (2 * cs.length + 2) (skipSpaceFrom 0 cs)
  let rest := tail.skipSpace
  if rest.rest.isEmpty then return v else rest.fail .extraData

def parseChars (cs : List Char) : Except ParseError Value :=
  (readText cs).mapError (Fault.place cs)

/-- Reads a text, which may not start with a byte order mark. -/
def parse (s : String) : Except ParseError Value :=
  let cs := s.toList
  if cs.head? = some '\uFEFF' then .error ((Fault.at 0 .byteOrderMark).place cs) else parseChars cs

end TorrentRemote.Json
