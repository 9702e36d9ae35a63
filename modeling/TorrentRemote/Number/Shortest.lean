import TorrentRemote.Number.Binary64

/-!
# Shortest decimal text

The text of a number has the fewest digits that read back as the number, and of those the nearest
ones. Small exponents are written positionally and the others with a power of ten.
-/

namespace TorrentRemote

structure Decimal where
  digits : Nat
  exponent : Int

def decimalLength (n : Nat) : Nat :=
  (Nat.toDigits 10 n).length

namespace Binary64

/-- The number nearest to a decimal. Exponents far out of range are settled without the powers of
ten that they stand for. -/
def ofDecimal (negative : Bool) (d : Decimal) : Binary64 :=
  if d.digits = 0 then ofRank negative 0
  else
    let lead := d.exponent + decimalLength d.digits
    if lead > 310 then infinity negative
    else if lead < -330 then ofRank negative 0
    else
      let power := Nat.pow 10 d.exponent.natAbs
      if d.exponent < 0 then ofRatio negative d.digits power
      else ofRatio negative (d.digits * power) 1

/-! ## Digits -/

def leadingExponent (magnitude : Nat) : Int :=
  if unitsPerOne ≤ magnitude then decimalLength (magnitude / unitsPerOne) - 1
  else
    -- the fraction `magnitude / unitsPerOne`, written with as many places as a unit has
    (decimalLength (magnitude * Nat.pow 10 1074 / unitsPerOne) : Int) - 1075

/-- The two decimals with the given exponent next to a magnitude, the nearer one first and of two
equally near ones the even one. -/
def neighbours (magnitude : Nat) (exponent : Int) : List Decimal :=
  let power := Nat.pow 10 exponent.natAbs
  let num := if exponent < 0 then magnitude * power else magnitude
  let den := if exponent < 0 then unitsPerOne else unitsPerOne * power
  let floor := num / den
  let nearest := roundQuotient num den
  [⟨nearest, exponent⟩, ⟨if nearest = floor then floor + 1 else floor, exponent⟩]

/-- The shortest decimal that reads back as the magnitude of a finite number; seventeen digits are
always enough. -/
def shortest : Binary64 → Decimal
  | .nan _ => ⟨0, 0⟩
  | .ranked _ rank =>
    if rank.val = 0 then ⟨0, 0⟩
    else
      let magnitude := units rank.val
      let lead := leadingExponent magnitude
      let found := (List.range 17).findSome? fun (places : Nat) =>
        (neighbours magnitude (lead - (places : Int))).find? fun d =>
          ofDecimal false d = ofRank false rank.val
      found.getD ⟨0, 0⟩

/-! ## Text -/

structure Layout where
  lowest : Int
  highest : Int
  exponentDigits : Nat

/-- Positional from 0.0001 up to below 10^16, else with an exponent of two digits or more. -/
def plainLayout : Layout := ⟨-4, 15, 2⟩

def Layout.exponentText (layout : Layout) (e : Int) : String :=
  let digits := Nat.toDigits 10 e.natAbs
  let pad := List.replicate (layout.exponentDigits - digits.length) '0'
  (if e < 0 then "-" else "+") ++ String.ofList (pad ++ digits)

def Layout.place (layout : Layout) (digits : List Char) (lead : Int) : String :=
  if lead < layout.lowest ∨ layout.highest < lead then
    let fraction := if digits.length = 1 then [] else '.' :: digits.drop 1
    String.ofList (digits.take 1 ++ fraction) ++ "e" ++ layout.exponentText lead
  else if lead < 0 then
    String.ofList ('0' :: '.' :: List.replicate (lead.natAbs - 1) '0' ++ digits)
  else
    let whole := lead.toNat + 1
    let padded := digits ++ List.replicate (whole - digits.length) '0'
    let fraction := if padded.length = whole then ['0'] else padded.drop whole
    String.ofList (padded.take whole ++ '.' :: fraction)

def significant (digits : List Char) : List Char :=
  match (digits.reverse.dropWhile (· = '0')).reverse with
  | [] => ['0']
  | kept => kept

def render (layout : Layout) (x : Binary64) : String :=
  match x with
  | .nan _ => "nan"
  | .ranked negative rank =>
    let sign := if negative then "-" else ""
    if rank.val = topRank then sign ++ "inf"
    else
      let d := x.shortest
      let digits := Nat.toDigits 10 d.digits
      sign ++ layout.place (significant digits) (d.exponent + digits.length - 1)

def text (x : Binary64) : String :=
  x.render plainLayout

end Binary64

end TorrentRemote
