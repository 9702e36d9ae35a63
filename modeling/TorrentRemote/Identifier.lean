import TorrentRemote.Failure
import TorrentRemote.Text.Hex

/-!
# Torrent identifiers

A torrent is named by its number on the daemon or by its hash, and a keyword stands for all recently
active torrents. Checking an identifier gives its wire form: numbers stay as they are and hashes
become texts in lower case.
-/

namespace TorrentRemote

structure InfoHash where
  text : String
  deriving DecidableEq

namespace InfoHash

def fullLength : Nat := 40

def shortLength : Nat := 7

def isShort (h : InfoHash) : Bool :=
  h.text.length = shortLength

def ofText? (s : String) : Option InfoHash :=
  let cs := s.toList
  if (cs.length = fullLength ∨ cs.length = shortLength) ∧ Text.isHex cs then
    some ⟨String.ofList (cs.map Char.toLower)⟩
  else none

def asciiText? (bs : List UInt8) : Option String :=
  if bs.all (· < 128) then some (String.ofList (bs.map fun b => Char.ofNat b.toNat)) else none

/-- The value that spells a hash: ASCII bytes stand for their text, other bytes for themselves. -/
def spelling (v : Value) : Value :=
  match v with
  | .bytes bs => ((asciiText? bs).map .text).getD v
  | .buffer bs => ((asciiText? bs).map .text).getD v
  | _ => v

def ofValue (v : Value) : Except Failure InfoHash :=
  let spelled := spelling v
  match spelled.text?.bind ofText? with
  | some h => .ok h
  | none => .error (.about spelled (.identifier spelled))

end InfoHash

namespace Identifier

def recentlyActive : String := "recently-active"

def inRange (n : Int) : Bool :=
  -9223372036854775808 ≤ n && n ≤ 9223372036854775807

def check (v : Value) : Except Failure Value :=
  match v.int? with
  | some n => if inRange n then .ok v else .error (.about v (.identifier v))
  | none =>
    if v.text? = some recentlyActive then .ok (.text recentlyActive)
    else (InfoHash.ofValue v).map fun h => .text h.text

/-- The wire forms of a list of identifiers, up to the first one that has none. An empty list stands
for all torrents and has no wire form. -/
def checkAll : List Value → Except Failure (Option (List Value))
  | [] => .ok none
  | ids => (ids.mapM check).map some

end Identifier

end TorrentRemote
