/-!
# Binary floating point of 64 bits

A number is given by its sign and its rank among the magnitudes: rank 0 is zero, the top rank is
infinity, and the ranks between are the finite magnitudes in increasing order. Every finite
magnitude is a whole multiple of the smallest positive one, so `units` states its exact value in
natural numbers, and rounding is one division.
-/

namespace TorrentRemote

/-- The count of ranks from one power of two to the next. -/
def Binary64.binade : Nat := Nat.pow 2 52

def Binary64.topRank : Nat := 2047 * Binary64.binade

/-- What is not a number carries a mark: copies of one NaN have its mark, and the NaNs that come
apart from each other have different ones. -/
inductive Binary64 where
  | nan (mark : Nat)
  | ranked (negative : Bool) (rank : Fin (Binary64.topRank + 1))
  deriving DecidableEq

namespace Binary64

/-- The finite magnitudes are multiples of one over this number. -/
def unitsPerOne : Nat := Nat.pow 2 1074

/-- The magnitude of a rank, in units. At the top rank it is the first power of two that is out of
range, so `units` grows strictly over all ranks. -/
def units (rank : Nat) : Nat :=
  if rank < binade then rank
  else (binade + rank % binade) * Nat.pow 2 (rank / binade - 1)

def ofRank (negative : Bool) (rank : Nat) : Binary64 :=
  .ranked negative (Fin.ofNat _ (min rank topRank))

def infinity (negative : Bool) : Binary64 := ofRank negative topRank

/-- The quotient to the nearest whole number, a tie to the even one. -/
def roundQuotient (num den : Nat) : Nat :=
  let q := num / den
  let r := num % den
  if 2 * r < den ∨ (2 * r = den ∧ q % 2 = 0) then q else q + 1

/-- The rank of the magnitude nearest to `num / den`, a tie to the even rank. The quotient is taken
at the scale where it has 53 binary digits, or in units where it has fewer. -/
def nearestRank (num den : Nat) : Nat :=
  let scaled := num * unitsPerOne
  let shift := (scaled / den).log2 - 52
  shift * binade + roundQuotient scaled (den * Nat.pow 2 shift)

/-- The number nearest to `num / den`; magnitudes past the largest finite one give infinity. -/
def ofRatio (negative : Bool) (num den : Nat) : Binary64 :=
  ofRank negative (nearestRank num den)

def ofInt? (n : Int) : Option Binary64 :=
  let rank := nearestRank n.natAbs 1
  if rank < topRank then some (ofRank (n < 0) rank) else none

/-! ## Classes and parts -/

def isNegative : Binary64 → Bool
  | .nan _ => false
  | .ranked negative _ => negative

def isFinite : Binary64 → Bool
  | .nan _ => false
  | .ranked _ rank => rank.val < topRank

def isInfinite : Binary64 → Bool
  | .nan _ => false
  | .ranked _ rank => rank.val = topRank

def isZero : Binary64 → Bool
  | .nan _ => false
  | .ranked _ rank => rank.val = 0

def magnitude : Binary64 → Nat
  | .nan _ => 0
  | .ranked _ rank => units rank.val

def signed (x : Binary64) : Int :=
  if x.isNegative then -x.magnitude else x.magnitude

def truncate? (x : Binary64) : Option Int :=
  if x.isFinite then some (x.signed.tdiv unitsPerOne) else none

/-! ## Comparison -/

/-- Zeros of both signs are the same, and a NaN is the same as its copies only. -/
def same : Binary64 → Binary64 → Bool
  | .nan m, .nan n => m = n
  | .ranked s a, .ranked t b => (Binary64.ranked s a).signed = (Binary64.ranked t b).signed
  | _, _ => false

def less : Binary64 → Binary64 → Bool
  | .ranked s a, .ranked t b => (Binary64.ranked s a).signed < (Binary64.ranked t b).signed
  | _, _ => false

def isInt (x : Binary64) (n : Int) : Bool :=
  x.isFinite && x.signed = n * unitsPerOne

def atLeast (n : Nat) : Binary64 → Bool
  | .nan _ => false
  | x => n * unitsPerOne ≤ x.signed

/-! ## Arithmetic -/

def abs : Binary64 → Binary64
  | .ranked _ rank => .ranked false rank
  | x => x

def scale (x : Binary64) (factor : Nat) : Binary64 :=
  match x with
  | .nan _ => x
  | .ranked negative rank =>
    if rank.val = topRank then x else ofRatio negative (units rank.val * factor) unitsPerOne

/-- The quotient by a positive whole number, which is itself rounded first. -/
def divide (x : Binary64) (divisor : Nat) : Binary64 :=
  match x with
  | .nan _ => x
  | .ranked negative rank =>
    if rank.val = topRank then x
    else ofRatio negative (units rank.val) (ofRatio false divisor 1).magnitude

/-- The whole quotient of a number that is not negative by a small whole number: the remainder is
exact, then the difference and the quotient are rounded, and the whole number below it is taken
unless the next one is nearer. An infinite number has none. -/
def divideWhole (x : Binary64) (divisor : Nat) : Binary64 :=
  match x with
  | .nan _ => x
  | .ranked _ rank =>
    if rank.val = topRank then .nan 0
    else
      let exact := units rank.val - units rank.val % (divisor * unitsPerOne)
      let quotient := ((ofRatio false exact unitsPerOne).divide divisor).magnitude
      let whole := quotient / unitsPerOne
      ofRatio false (if unitsPerOne < 2 * (quotient % unitsPerOne) then whole + 1 else whole) 1

/-- The difference; a zero difference of unlike zeros keeps the sign of the first. -/
def sub (x y : Binary64) : Binary64 :=
  match x, y with
  | .ranked s a, .ranked t b =>
    if a.val = topRank then
      if b.val = topRank ∧ s = t then .nan 0 else x
    else if b.val = topRank then infinity (!t)
    else
      let d := (Binary64.ranked s a).signed - (Binary64.ranked t b).signed
      if d = 0 then ofRank (s && !t) 0 else ofRatio (d < 0) d.natAbs unitsPerOne
  | _, _ => .nan 0

end Binary64

end TorrentRemote
