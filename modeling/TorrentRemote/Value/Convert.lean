import TorrentRemote.Failure
import TorrentRemote.Value.Same

/-!
# Conversions of values

A value as a list of items, as an integer, as bytes, as a text and as a member of a domain, for the
arguments that are taken in more than one form.
-/

namespace TorrentRemote.Value

def toItems (v : Value) : Except Failure (List Value) :=
  match v with
  | .list vs | .tuple vs => .ok vs
  | .mapping entries => .ok (entries.map Prod.fst)
  | .bytes bs | .buffer bs => .ok (bs.map fun b => .int b.toNat)
  | _ =>
    match v.text? with
    | some s => .ok (s.toList.map fun c => .text (String.ofList [c]))
    | none => .error (.notIterable v.kindPath)

/-- The integer that a number, a flag or a numeral stands for; a fraction is dropped. -/
def toInteger (v : Value) : Except Failure Int :=
  match v with
  | .bool b => .ok b.toNat
  | .float (.nan _) => .error .nanToInteger
  | .float x =>
    match x.truncate? with
    | some n => .ok n
    | none => .error .infinityToInteger
  | .bytes bs | .buffer bs => (Numeral.wholeOfBytes bs).mapError .numeral
  | _ =>
    match v.int?, v.text? with
    | some n, _ => .ok n
    | none, some s => (Numeral.whole s v.quoted).mapError .numeral
    | none, none => .error (.notANumber v.kindPath)

/-- An integer that is a flag or not a fraction. -/
def index? : Value → Option Int
  | .bool b => some b.toNat
  | v => v.int?

def toByte (v : Value) : Except Failure UInt8 :=
  match v.index? with
  | none => .error (.notAnIndex v.kindPath)
  | some n => if 0 ≤ n ∧ n < 256 then .ok (UInt8.ofNat n.toNat) else .error .byteOutOfRange

/-- The most bytes that a machine holds. -/
def memoryLimit : Nat := 1099511627776

/-- As many zeros as an integer says. A count is a number of 64 bits with a sign, and a few of the
largest ones are kept for what goes along with the bytes. -/
def zeros (n : Int) : Except Failure (List UInt8) :=
  if n < -9223372036854775808 ∨ 9223372036854775807 < n then .error .countTooLarge
  else if n < 0 then .error .negativeCount
  else if 9223372036854775774 < n then .error .tooManyBytes
  else if memoryLimit < n then .error .outOfMemory
  else .ok (List.replicate n.toNat 0)

def toBytes (v : Value) : Except Failure (List UInt8) :=
  match v with
  | .bytes bs | .buffer bs => .ok bs
  | _ =>
    if v.text?.isSome then .error .textAsBytes
    else
      match v.index? with
      | some n => zeros n
      | none =>
        match v.toItems with
        | .ok items => items.mapM toByte
        | .error _ => .error (.notBytes v.kindPath)

def toText (v : Value) : Except Failure String :=
  if v.hasText then .ok v.plain else .error .integerTooLong

def toMember (domain : Domain) (v : Value) : Except Failure Member :=
  match domain.members.find? fun m => (Value.member m).same v with
  | some m => .ok m
  | none => .error (.showing v (.notAMember domain v.quoted))

end TorrentRemote.Value
