import TorrentRemote.Number.Fixed
import TorrentRemote.Text.DecimalDigit

/-!
# Layouts of numbers with fixed places

How a number is set in a text: the count of its places, its sign, groups of digits, and what fills
it up to a width. A layout is written down as a point, the count of places and the letter `f`; an
alignment mark behind the point makes the point the character that fills.
-/

namespace TorrentRemote

/-- Where a number stands in a field that is wider; it may also be filled behind its sign. -/
inductive Alignment where
  | left | right | center | behindSign
  deriving DecidableEq

inductive PlusSign where
  | nothing | space | plus
  deriving DecidableEq

/-- A number without an alignment is not filled. With `plainZero` a zero has no minus, and with
`keepsPoint` a number without places has a point. -/
structure FixedLayout where
  align : Option Alignment := none
  sign : PlusSign := .nothing
  plainZero : Bool := false
  keepsPoint : Bool := false
  width : Nat := 0
  separator : Option Char := none
  places : Nat := 6
  deriving DecidableEq

inductive LayoutError where
  | tooManyDigits
  | missingPlaces
  | tooManyPlaces
  | twoSeparators
  | malformed (text : String)
  deriving DecidableEq

def LayoutError.message : LayoutError → String
  | .tooManyDigits => "Too many decimal digits in format string"
  | .missingPlaces => "Format specifier missing precision"
  | .tooManyPlaces => "precision too big"
  | .twoSeparators => "Cannot specify both ',' and '_'."
  | .malformed text => "Invalid format specifier '" ++ text ++ "' for object of type 'float'"

namespace FixedLayout

/-! ## Reading -/

def alignment? : Char → Option Alignment
  | '<' => some .left
  | '>' => some .right
  | '^' => some .center
  | '=' => some .behindSign
  | _ => none

def takeSign : List Char → PlusSign × List Char
  | '+' :: rest => (.plus, rest)
  | ' ' :: rest => (.space, rest)
  | '-' :: rest => (.nothing, rest)
  | cs => (.nothing, cs)

def takeMark (mark : Char) : List Char → Bool × List Char
  | [] => (false, [])
  | c :: rest => if c = mark then (true, rest) else (false, c :: rest)

/-- The greatest number that can be written in a layout. -/
def numberLimit : Nat := 9223372036854775807

/-- Takes decimal digits of any script off the front; without any there is no number. -/
def takeNumber (cs : List Char) : Except LayoutError (Option Nat × List Char) :=
  let digits := (cs.takeWhile fun c => (Text.decimalValue? c).isSome).filterMap Text.decimalValue?
  let n := digits.foldl (fun n d => 10 * n + d) 0
  if digits.isEmpty then .ok (none, cs)
  else if n > numberLimit then .error .tooManyDigits
  else .ok (some n, cs.drop digits.length)

def takeSeparator (cs : List Char) : Except LayoutError (Option Char × List Char) :=
  match cs with
  | ',' :: '_' :: _ | '_' :: ',' :: _ => .error .twoSeparators
  | ',' :: rest => .ok (some ',', rest)
  | '_' :: rest => .ok (some '_', rest)
  | _ => .ok (none, cs)

def takePlaces (cs : List Char) : Except LayoutError (Option Nat × List Char) :=
  match takeMark '.' cs with
  | (false, _) => .ok (none, cs)
  | (true, rest) => do
    match ← takeNumber rest with
    | (none, _) => throw .missingPlaces
    | (some n, rest) => return (some n, rest)

def placesLimit : Nat := 2147483647

/-- Reads a layout behind its alignment; only the letter may be left over. -/
def readAligned (text : String) (align : Option Alignment) (cs : List Char) :
    Except LayoutError FixedLayout := do
  let (sign, cs) := takeSign cs
  let (plainZero, cs) := takeMark 'z' cs
  let (keepsPoint, cs) := takeMark '#' cs
  let (width, cs) ← takeNumber cs
  let (separator, cs) ← takeSeparator cs
  let (places, cs) ← takePlaces cs
  if cs.length > 1 then throw (.malformed text)
  if places.any (· > placesLimit) then throw .tooManyPlaces
  return {
    align, sign, plainZero, keepsPoint, separator
    width := width.getD 0
    places := places.getD 6 }

def ofPlaces (places : String) : Except LayoutError FixedLayout :=
  let text := "." ++ places ++ "f"
  match places.toList with
  | [] => readAligned text none text.toList
  | mark :: rest =>
    match alignment? mark with
    | some align => readAligned text (some align) (rest ++ ['f'])
    | none => readAligned text none text.toList

/-! ## Setting -/

def grouped (separator : Char) : List Char → List Char
  | [] => []
  | c :: rest =>
    if rest.length % 3 = 0 ∧ !rest.isEmpty then c :: separator :: grouped separator rest
    else c :: grouped separator rest

def body (l : FixedLayout) (x : Binary64) : List Char :=
  let text := (x.fixed l.places).toList
  let whole := text.takeWhile Char.isDigit
  let whole := match l.separator with
    | some separator => grouped separator whole
    | none => whole
  let point := if l.keepsPoint && l.places = 0 && x.isFinite then ['.'] else []
  whole ++ text.dropWhile Char.isDigit ++ point

def front (l : FixedLayout) (x : Binary64) : List Char :=
  if x.isNegative && !(l.plainZero && x.isFinite && x.lastPlaces l.places = 0) then ['-']
  else
    match l.sign with
    | .nothing => []
    | .space => [' ']
    | .plus => ['+']

def fill (l : FixedLayout) (front body : List Char) : List Char :=
  let missing := l.width - (front.length + body.length)
  let points := fun n => List.replicate n '.'
  match l.align with
  | none => front ++ body
  | some .left => front ++ body ++ points missing
  | some .right => points missing ++ front ++ body
  | some .center => points (missing / 2) ++ front ++ body ++ points (missing - missing / 2)
  | some .behindSign => front ++ points missing ++ body

def set (l : FixedLayout) (x : Binary64) : String :=
  String.ofList (l.fill (l.front x) (l.body x.abs))

end FixedLayout

end TorrentRemote
