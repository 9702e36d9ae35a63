import TorrentRemote.Domain
import TorrentRemote.Number.Binary64
import TorrentRemote.Time.Moment

/-!
# Values

Everything that a caller can pass as an argument and that the daemon can answer: plain data, and the
richer values that plain data is decoded to. Texts are made of characters, which leaves out those with
one half of a surrogate pair.
-/

namespace TorrentRemote

structure Label where
  name : String
  wire : String
  deriving DecidableEq

/-- `bytes` are constant and `buffer` is a byte array that can be changed in place. A `record` is a
decoded model with all its fields in declared order. An `object` is a thing with no wire form, and
its mark tells it from other ones. -/
inductive Value where
  | null
  | bool (b : Bool)
  | int (n : Int)
  | float (x : Binary64)
  | text (s : String)
  | bytes (bs : List UInt8)
  | buffer (bs : List UInt8)
  | list (vs : List Value)
  | tuple (vs : List Value)
  | mapping (entries : List (Value × Value))
  | member (m : Member)
  | time (m : Moment)
  | duration (d : Duration)
  | record (model : String) (fields : List (Label × Value))
  | object (mark : Nat)

namespace Value

def isNull : Value → Bool
  | .null => true
  | _ => false

def text? : Value → Option String
  | .text s => some s
  | .member (.encryption e) => some e.word
  | _ => none

/-- The integer, for an integer or a code of an enumerated domain. Flags do not count. -/
def int? : Value → Option Int
  | .int n => some n
  | .member m =>
    match m.code with
    | .number n => some n
    | .word _ => none
  | _ => none

def ofFields (entries : List (String × Value)) : Value :=
  .mapping (entries.map fun (k, v) => (.text k, v))

def lookup? (key : String) : List (Value × Value) → Option Value
  | [] => none
  | (k, v) :: rest => if k.text? = some key then some v else lookup? key rest

/-! ## Names of kinds -/

def kindName : Value → String
  | .null => "NoneType"
  | .bool _ => "bool"
  | .int _ => "int"
  | .float _ => "float"
  | .text _ => "str"
  | .bytes _ => "bytes"
  | .buffer _ => "bytearray"
  | .list _ => "list"
  | .tuple _ => "tuple"
  | .mapping _ => "dict"
  | .member m => m.domain.title
  | .time _ => "datetime"
  | .duration _ => "timedelta"
  | .record model _ => model
  | .object _ => "object"

def kindPath (v : Value) : String :=
  match v with
  | .time _ | .duration _ => "datetime." ++ v.kindName
  | _ => v.kindName

/-! ## Keys -/

mutual

/-- The kind of the first part of a value that can change in place. A value with such a part cannot
be looked up by. -/
def changeable? : Value → Option String
  | .tuple vs => changeableIn? vs
  | .record _ fields => changeableField? fields
  | .list vs => some (Value.list vs).kindName
  | .mapping entries => some (Value.mapping entries).kindName
  | .buffer bs => some (Value.buffer bs).kindName
  | _ => none

def changeableIn? : List Value → Option String
  | [] => none
  | v :: vs => (changeable? v).or (changeableIn? vs)

def changeableField? : List (Label × Value) → Option String
  | [] => none
  | (_, v) :: rest => (changeable? v).or (changeableField? rest)

end

/-! ## Truth -/

def isTrue : Value → Bool
  | .null => false
  | .bool b => b
  | .int n => n ≠ 0
  | .float x => !x.isZero
  | .text s => !s.isEmpty
  | .bytes bs => !bs.isEmpty
  | .buffer bs => !bs.isEmpty
  | .list vs => !vs.isEmpty
  | .tuple vs => !vs.isEmpty
  | .mapping entries => !entries.isEmpty
  | .member m => m.code ≠ .number 0
  | .time _ => true
  | .duration d => d.micros ≠ 0
  | .record _ _ => true
  | .object _ => true

end Value

end TorrentRemote
