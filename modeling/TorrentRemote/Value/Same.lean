import TorrentRemote.Value.Basic

/-!
# Sameness of values

Numbers are the same when they are equal, whether they are written as integers, fractions, flags or
codes of an enumerated domain. A word of a domain is the same as its text, bytes are the same as a
buffer of them, and mappings do not depend on the order of their keys. A thing that cannot be
compared is the same as itself.
-/

namespace TorrentRemote.Value

inductive Quantity where
  | whole (n : Int)
  | binary (x : Binary64)

def Quantity.same : Quantity → Quantity → Bool
  | .whole m, .whole n => m = n
  | .whole m, .binary y => y.isInt m
  | .binary x, .whole n => x.isInt n
  | .binary x, .binary y => x.same y

def quantity? : Value → Option Quantity
  | .bool b => some (.whole b.toNat)
  | .int n => some (.whole n)
  | .float x => some (.binary x)
  | v => v.int?.map .whole

def byteContent? : Value → Option (List UInt8)
  | .bytes bs => some bs
  | .buffer bs => some bs
  | _ => none

def sameLeaf (v w : Value) : Bool :=
  match v, w with
  | .null, .null => true
  | .time m, .time n => m.same n
  | .duration d, .duration e => d = e
  | .object m, .object n => m = n
  | _, _ =>
    match v.quantity?, w.quantity? with
    | some x, some y => x.same y
    | _, _ => (v.text?.isSome && v.text? = w.text?) ||
        (v.byteContent?.isSome && v.byteContent? = w.byteContent?)

mutual

def same : Value → Value → Bool
  | .list vs, .list ws => sameAll vs ws
  | .tuple vs, .tuple ws => sameAll vs ws
  | .mapping es, .mapping fs => es.length = fs.length && sameEntries es fs
  | .record model fs, .record other gs => model = other && sameFields fs gs
  | v, w => sameLeaf v w
termination_by structural v => v

def sameAll : List Value → List Value → Bool
  | [], [] => true
  | v :: vs, w :: ws => v.same w && sameAll vs ws
  | _, _ => false

def sameEntries : List (Value × Value) → List (Value × Value) → Bool
  | [], _ => true
  | (k, v) :: rest, others =>
    (others.any fun (l, w) => k.same l && v.same w) && sameEntries rest others

def sameFields : List (Label × Value) → List (Label × Value) → Bool
  | [], [] => true
  | (label, v) :: fs, (other, w) :: gs => label = other && v.same w && sameFields fs gs
  | _, _ => false

end

/-! ## Mappings -/

/-- Puts a value at a key: in the place of the same key, which stays as it is, or at the end. -/
def putEntry (key v : Value) : List (Value × Value) → List (Value × Value)
  | [] => [(key, v)]
  | (k, old) :: rest => if k.same key then (k, v) :: rest else (k, old) :: putEntry key v rest

/-- A mapping of keys to values; of several values at the same key the last one counts. -/
def ofEntries (entries : List (Value × Value)) : Value :=
  .mapping (entries.foldl (fun kept (key, v) => putEntry key v kept) [])

end TorrentRemote.Value
