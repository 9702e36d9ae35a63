import TorrentRemote.Number.Shortest
import TorrentRemote.Text.Blank
import TorrentRemote.Text.DecimalDigit
import TorrentRemote.Text.Quoted

/-!
# Numerals that people write

A numeral may have blanks around it, a sign, decimal digits of any script and single underscores
between digits. Whole numbers have a limit on the count of digits; fractional ones may also be
infinite or not a number.
-/

namespace TorrentRemote

inductive NumeralError where
  | notWhole (shown : String)
  | notNumber (shown : String)
  | tooManyDigits (count : Nat)
  deriving DecidableEq

namespace Numeral

def digitLimit : Nat := 4300

def limitText : String :=
  "Exceeds the limit (4300 digits) for integer string conversion"

def limitAdvice : String :=
  "; use sys.set_int_max_str_digits() to increase the limit"

end Numeral

def NumeralError.message : NumeralError → String
  | .notWhole shown => "invalid literal for int() with base 10: " ++ shown
  | .notNumber shown => "could not convert string to float: " ++ shown
  | .tooManyDigits count =>
    Numeral.limitText ++ ": value has " ++ toString count ++ " digits" ++ Numeral.limitAdvice

namespace Numeral

/-! ## Characters -/

/-- A character as the readers see it: digits of any script are ASCII digits and wide blanks are
spaces. -/
def plainChar (c : Char) : Char :=
  if c.toNat < 128 then c
  else if Text.isNumberBlank c then ' '
  else
    match Text.decimalValue? c with
    | some d => Char.ofNat (48 + d)
    | none => '?'

/-- Takes digits off the front, with single underscores between them. The result is the digits
taken and the rest; it is none if an underscore is not between two digits. -/
def takeDigits? : (afterDigit : Bool) → List Char → Option (List Char × List Char)
  | afterDigit, '_' :: rest =>
    if afterDigit then
      match rest with
      | c :: _ => if c.isDigit then takeDigits? false rest else none
      | [] => none
    else none
  | _, c :: rest =>
    if c.isDigit then (takeDigits? true rest).map fun (ds, tail) => (c :: ds, tail)
    else some ([], c :: rest)
  | _, [] => some ([], [])

def digitsValue (ds : List Char) : Nat :=
  Nat.ofDigitChars 10 ds 0

def takeSign : List Char → Bool × List Char
  | '-' :: rest => (true, rest)
  | '+' :: rest => (false, rest)
  | cs => (false, cs)

/-! ## Whole numbers -/

/-- Reads a whole number; `shown` is the text to quote in an error. The digits are counted before
what follows them is looked at. -/
def readWhole (shown : String) (cs : List Char) : Except NumeralError Int :=
  let (negative, body) := takeSign (cs.dropWhile Text.isNumberBlank)
  match takeDigits? false body with
  | none => .error (.notWhole shown)
  | some (digits, tail) =>
    if digits.length > digitLimit then .error (.tooManyDigits digits.length)
    else if digits.isEmpty || !tail.all Text.isNumberBlank then .error (.notWhole shown)
    else
      let n : Int := digitsValue digits
      .ok (if negative then -n else n)

def shownLimit : Nat := 200

def cutShown (shown : String) : String :=
  String.ofList (shown.toList.take shownLimit)

/-- Reads a text as a whole number. The text may stand for a thing that is shown otherwise. -/
def whole (s : String) (shown : String := Text.quoted s) : Except NumeralError Int :=
  readWhole (cutShown shown) (s.toList.map plainChar)

def wholeOfBytes (bs : List UInt8) : Except NumeralError Int :=
  readWhole (cutShown (Text.quotedBytes (bs.take shownLimit)))
    (bs.map fun b => if b < 128 then Char.ofNat b.toNat else '?')

/-! ## Fractional numbers -/

def lowerAscii (cs : List Char) : List Char :=
  cs.map Char.toLower

def takeExponent? (cs : List Char) : Option (Int × List Char) :=
  match cs with
  | c :: rest =>
    if c = 'e' ∨ c = 'E' then
      let (negative, body) := takeSign rest
      match takeDigits? false body with
      | none => none
      | some ([], _) => none
      | some (ds, tail) =>
        let e : Int := digitsValue ds
        some (if negative then -e else e, tail)
    else some (0, cs)
  | [] => some (0, [])

def unsigned? (negative : Bool) (cs : List Char) : Option Binary64 := do
  let (whole, afterWhole) ← takeDigits? false cs
  let (fraction, afterFraction) ←
    match afterWhole with
    | '.' :: rest => takeDigits? false rest
    | _ => some ([], afterWhole)
  let (exponent, tail) ← takeExponent? afterFraction
  if (whole ++ fraction).isEmpty || !tail.isEmpty then none
  else
    let d := ⟨digitsValue (whole ++ fraction), exponent - fraction.length⟩
    return Binary64.ofDecimal negative d

def number? (cs : List Char) : Option Binary64 :=
  let (negative, body) := takeSign (Text.trimBy Text.isNumberBlank cs)
  let word := String.ofList (lowerAscii body)
  if word = "inf" ∨ word = "infinity" then some (Binary64.infinity negative)
  else if word = "nan" then some (.nan 0)
  else unsigned? negative body

/-- Reads a text as a binary number; magnitudes out of range become infinite. -/
def number (s : String) : Except NumeralError Binary64 :=
  match number? (s.toList.map plainChar) with
  | some x => .ok x
  | none => .error (.notNumber (Text.quoted s))

end Numeral

end TorrentRemote
