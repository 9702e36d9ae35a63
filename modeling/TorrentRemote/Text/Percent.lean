import TorrentRemote.Text.Utf8

/-!
# Percent decoding

A percent sign and two hexadecimal digits stand for a byte. The bytes of each stretch of ASCII are
read as UTF-8, leniently; percent signs without digits and characters outside ASCII stay.
-/

namespace TorrentRemote.Text.Percent

def spell (reversed : List UInt8) : List Char :=
  Utf8.strict.decodeLenient reversed.reverse

/-- Decodes the rest of a text, after a stretch of bytes that is still open. -/
def decodeFrom (stretch : List UInt8) : List Char → List Char
  | [] => spell stretch
  | '%' :: a :: b :: rest =>
    match hexValue? a, hexValue? b with
    | some high, some low => decodeFrom (UInt8.ofNat (high * 16 + low) :: stretch) rest
    | _, _ => decodeFrom (37 :: stretch) (a :: b :: rest)
  | c :: rest =>
    if c.toNat < 128 then decodeFrom (UInt8.ofNat c.toNat :: stretch) rest
    else spell stretch ++ c :: decodeFrom [] rest

def decode (s : String) : String :=
  String.ofList (decodeFrom [] s.toList)

end TorrentRemote.Text.Percent
