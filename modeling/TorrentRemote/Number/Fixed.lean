import TorrentRemote.Number.Binary64

/-!
# Fixed places

A number written with a given count of places after the point: the exact value is rounded, a tie to
the even digit, and a negative number keeps its sign even when nothing else is left of it.
-/

namespace TorrentRemote.Binary64

def placed (places digits : Nat) : String :=
  let text := Nat.toDigits 10 digits
  let padded := List.replicate (places + 1 - text.length) '0' ++ text
  let whole := padded.length - places
  let fraction := if places = 0 then [] else '.' :: padded.drop whole
  String.ofList (padded.take whole ++ fraction)

def lastPlaces (places : Nat) (x : Binary64) : Nat :=
  roundQuotient (x.magnitude * Nat.pow 10 places) unitsPerOne

def fixed (places : Nat) (x : Binary64) : String :=
  match x with
  | .nan _ => "nan"
  | .ranked negative rank =>
    let sign := if negative then "-" else ""
    if rank.val = topRank then sign ++ "inf" else sign ++ placed places (x.lastPlaces places)

end TorrentRemote.Binary64
