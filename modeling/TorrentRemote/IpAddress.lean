import TorrentRemote.Text.Hex

/-!
# IP addresses

The two written forms: four decimal octets with points between them, and eight groups of hexadecimal
digits with colons between them. Two colons in a row stand for the zero groups that are left out,
and octets may be written for the last two groups.
-/

namespace TorrentRemote

inductive IpAddress where
  | four (octets : List Nat)
  | six (groups : List Nat) (zone : Option String)
  deriving DecidableEq

namespace IpAddress

/-- A decimal number below 256, without zeros in front. -/
def octet? (s : String) : Option Nat :=
  let n := Nat.ofDigitChars 10 s.toList 0
  if n < 256 ∧ Nat.toDigits 10 n = s.toList then some n else none

def octets? (s : String) : Option (List Nat) :=
  ((s.splitOn ".").mapM octet?).filter fun octets => octets.length = 4

def group? (s : String) : Option Nat :=
  if s.isEmpty || 4 < s.length then none else Text.hexNumber? s.toList

def pairOctets : List Nat → List Nat
  | a :: b :: rest => (256 * a + b) :: pairOctets rest
  | _ => []

/-- The groups of the parts between colons; octets may stand in the last part only. -/
def groupsOfParts? (endsInOctets : Bool) : List String → Option (List Nat)
  | [] => some []
  | part :: rest =>
    match octets? part with
    | some octets =>
      if endsInOctets && rest.isEmpty then some (pairOctets octets) else none
    | none => do return (← group? part) :: (← groupsOfParts? endsInOctets rest)

def groups? (endsInOctets : Bool) (s : String) : Option (List Nat) :=
  if s.isEmpty then some [] else groupsOfParts? endsInOctets (s.splitOn ":")

def groupCount : Nat := 8

/-- All groups of an address, of which at least one is left out where there are two colons. -/
def allGroups? (s : String) : Option (List Nat) := do
  match s.splitOn "::" with
  | [whole] => (groups? true whole).filter fun groups => groups.length = groupCount
  | [high, low] =>
    let high ← groups? false high
    let low ← groups? true low
    let written := high.length + low.length
    if written < groupCount then some (high ++ List.replicate (groupCount - written) 0 ++ low)
    else none
  | _ => none

/-- An address of groups, behind which a percent sign and the name of a zone may stand. -/
def six? (s : String) : Option IpAddress :=
  match s.splitOn "%" with
  | [address] => (allGroups? address).map fun groups => .six groups none
  | [address, zone] =>
    if zone.isEmpty then none else (allGroups? address).map fun groups => .six groups (some zone)
  | _ => none

def ofText? (s : String) : Option IpAddress :=
  ((octets? s).map .four).or (six? s)

end IpAddress

end TorrentRemote
