/-!
# Base64

Bytes as ASCII text, four characters for three bytes and padding at the end. Reading is strict:
nothing but the alphabet and padding is allowed, and the padding has to end the text.
-/

namespace TorrentRemote.Text.Base64

/-! ## Alphabet -/

def digit (n : Nat) : Char :=
  if n < 26 then Char.ofNat (65 + n)
  else if n < 52 then Char.ofNat (71 + n)
  else if n < 62 then Char.ofNat (n - 4)
  else if n = 62 then '+'
  else '/'

def value? (c : Char) : Option Nat :=
  let n := c.toNat
  if 65 ≤ n ∧ n ≤ 90 then some (n - 65)
  else if 97 ≤ n ∧ n ≤ 122 then some (n - 71)
  else if 48 ≤ n ∧ n ≤ 57 then some (n + 4)
  else if c = '+' then some 62
  else if c = '/' then some 63
  else none

/-! ## Writing -/

def encodeChars : List UInt8 → List Char
  | a :: b :: c :: rest =>
    let n := a.toNat * 65536 + b.toNat * 256 + c.toNat
    digit (n / 262144) :: digit (n / 4096 % 64) :: digit (n / 64 % 64) :: digit (n % 64) ::
      encodeChars rest
  | [a, b] =>
    let n := a.toNat * 1024 + b.toNat * 4
    [digit (n / 4096), digit (n / 64 % 64), digit (n % 64), '=']
  | [a] =>
    let n := a.toNat * 16
    [digit (n / 64), digit (n % 64), '=', '=']
  | [] => []

def encode (bs : List UInt8) : String :=
  String.ofList (encodeChars bs)

/-! ## Reading -/

inductive DecodeError where
  | notAscii
  | leadingPadding
  | excessData
  | foreignCharacter
  | discontinuousPadding
  | loneCharacter (count : Nat)
  | incorrectPadding
  deriving DecidableEq

def DecodeError.message : DecodeError → String
  | .notAscii => "string argument should contain only ASCII characters"
  | .leadingPadding => "Leading padding not allowed"
  | .excessData => "Excess data after padding"
  | .foreignCharacter => "Only base64 data is allowed"
  | .discontinuousPadding => "Discontinuous padding not allowed"
  | .loneCharacter count =>
    "Invalid base64-encoded string: number of data characters (" ++ toString count ++
      ") cannot be 1 more than a multiple of 4"
  | .incorrectPadding => "Incorrect padding"

/-- Where reading stands: `place` counts the characters of the open group, `bits` holds what they
have left over, `size` counts the bytes so far and `pads` the padding since the last character. -/
structure Cursor where
  place : Nat
  bits : Nat
  size : Nat
  pads : Nat
  padded : Bool

def Cursor.take (k : Cursor) (v : Nat) : Cursor × List UInt8 :=
  match k.place with
  | 0 => ({ k with place := 1, bits := v, pads := 0 }, [])
  | 1 => ({ k with place := 2, bits := v % 16, size := k.size + 1, pads := 0 },
      [UInt8.ofNat (k.bits * 4 + v / 16)])
  | 2 => ({ k with place := 3, bits := v % 4, size := k.size + 1, pads := 0 },
      [UInt8.ofNat (k.bits * 16 + v / 4)])
  | _ => ({ k with place := 0, bits := 0, size := k.size + 1, pads := 0 },
      [UInt8.ofNat (k.bits * 64 + v)])

def decodeFrom (k : Cursor) : List Char → Except DecodeError (List UInt8)
  | [] =>
    if k.place = 0 then .ok []
    else if k.place = 1 then .error (.loneCharacter (k.size / 3 * 4 + 1))
    else .error .incorrectPadding
  | c :: rest =>
    if c = '=' then
      if k.place < 2 then decodeFrom { k with padded := true } rest
      else if k.place + k.pads + 1 < 4 then
        decodeFrom { k with pads := k.pads + 1, padded := true } rest
      else if rest.isEmpty then .ok []
      else .error .excessData
    else
      match value? c with
      | none => .error .foreignCharacter
      | some v =>
        if k.padded then .error .discontinuousPadding
        else
          let (next, out) := k.take v
          (decodeFrom next rest).map (out ++ ·)

def decode (s : String) : Except DecodeError (List UInt8) :=
  let cs := s.toList
  if !cs.all (·.toNat < 128) then .error .notAscii
  else if cs.head? = some '=' then .error .leadingPadding
  else decodeFrom ⟨0, 0, 0, 0, false⟩ cs

end TorrentRemote.Text.Base64
