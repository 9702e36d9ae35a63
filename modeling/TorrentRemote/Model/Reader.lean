import TorrentRemote.Model.Kind
import TorrentRemote.Wire

/-!
# Reading models

An answer is read field by field. Fields that the answer does not have stay open, a field that is
null stays null, and keys that the model does not know are passed over.
-/

namespace TorrentRemote

namespace Kind

def expected (what : String) (v : Value) : Failure :=
  .about v (.badResponse ("Expected " ++ what ++ ", got " ++ v.quoted))

def readInteger (v : Value) : Except Failure Value :=
  if v.int?.isSome then .ok v else .error (expected "integer" v)

/-- A number becomes a binary one, unless it is an integer out of range. -/
def readNumber (v : Value) : Except Failure Value :=
  match v with
  | .float _ => .ok v
  | _ =>
    match v.int? with
    | none => .error (expected "number" v)
    | some n =>
      match Binary64.ofInt? n with
      | some x => .ok (.float x)
      | none => .error .integerTooLarge

def readText (v : Value) : Except Failure Value :=
  if v.text?.isSome then .ok v else .error (expected "string" v)

def readContent (v : Value) : Except Failure Value :=
  match v.text? with
  | none => .error (expected "string" v)
  | some s =>
    match Text.Base64.decode s with
    | .ok bs => .ok (.bytes bs)
    | .error .notAscii => .error (.base64 .notAscii)
    | .error e => .error (.client (.badResponse ("Invalid base64 value: " ++ e.message)))

def readTime (v : Value) : Except Failure Value :=
  match Wire.readTime v with
  | .ok (some m) => .ok (.time m)
  | .ok none => .ok .null
  | .error e => .error e

def readDuration (v : Value) : Except Failure Value :=
  (Wire.readDuration v).map .duration

def readFlag (v : Value) : Except Failure Value :=
  (Wire.readFlag v).map .bool

def readMember (domain : Domain) (v : Value) : Except Failure Value :=
  (Wire.readMember domain v).map .member

def items (v : Value) : Except Failure (List Value) :=
  match v with
  | .list vs => .ok vs
  | _ => .error (expected "array" v)

def entries (model : String) (v : Value) : Except Failure (List (Value × Value)) :=
  match v with
  | .mapping es => .ok es
  | _ => .error (expected ("object for " ++ model) v)

mutual

def read : Kind → Value → Except Failure Value
  | .integer, v => readInteger v
  | .number, v => readNumber v
  | .text, v => readText v
  | .content, v => readContent v
  | .flag, v => readFlag v
  | .time, v => readTime v
  | .duration, v => readDuration v
  | .member domain, v => readMember domain v
  | .any, v => .ok v
  | .listOf kind, v => do return .list (← (← items v).mapM fun item => read kind item)
  | .listOrEmpty kind, v => do return .list (← (← items v).mapM fun item => read kind item)
  | .record model fields, v => do return .record model (← readFields fields (← entries model v))

def readFields : List (Label × Kind) → List (Value × Value) → Except Failure (List (Label × Value))
  | [], _ => .ok []
  | (label, kind) :: rest, es => do
    let v ←
      match Value.lookup? label.wire es with
      | none => .ok kind.absent
      | some .null => .ok .null
      | some v => read kind v
    let vs ← readFields rest es
    return (label, v) :: vs

end

end Kind

def Model.read (m : Model) (v : Value) : Except Failure Value :=
  m.kind.read v

end TorrentRemote
