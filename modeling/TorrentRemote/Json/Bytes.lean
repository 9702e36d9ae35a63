import TorrentRemote.Json.Reader
import TorrentRemote.Text.Utf8

/-!
# JSON in bytes

The encoding of a JSON text is told by its byte order mark, or else by where the zero bytes are,
since the first two characters of a text are ASCII.
-/

namespace TorrentRemote.Json

inductive BytesError where
  | decoding (e : Text.DecodeError)
  | parsing (e : ParseError)
  deriving DecidableEq

def BytesError.message : BytesError → String
  | .decoding e => e.message
  | .parsing e => e.message

/-- An encoding, the position that its first byte is reported at, and the count of bytes before
it. -/
structure Detected where
  encoding : Text.Encoding
  position : Nat
  skipped : Nat

open Text in
def detectByZeros : List UInt8 → Encoding
  | 0 :: 0 :: _ :: _ :: _ => Utf32.encoding .highFirst
  | 0 :: _ :: _ :: _ :: _ => Utf16.encoding .highFirst
  | _ :: 0 :: 0 :: 0 :: _ => Utf32.encoding .lowFirst
  | _ :: 0 :: _ :: _ :: _ => Utf16.encoding .lowFirst
  | [0, _] => Utf16.encoding .highFirst
  | [_, 0] => Utf16.encoding .lowFirst
  | _ => Utf8.withSurrogates

open Text in
def detect : List UInt8 → Detected
  | 0 :: 0 :: 0xFE :: 0xFF :: _ => ⟨Utf32.encoding .highFirst, 4, 4⟩
  | 0xFF :: 0xFE :: 0 :: 0 :: _ => ⟨Utf32.encoding .lowFirst, 4, 4⟩
  | 0xFE :: 0xFF :: _ => ⟨Utf16.encoding .highFirst, 2, 2⟩
  | 0xFF :: 0xFE :: _ => ⟨Utf16.encoding .lowFirst, 2, 2⟩
  | 0xEF :: 0xBB :: 0xBF :: _ => ⟨Utf8.withSurrogates, 0, 3⟩
  | bs => ⟨detectByZeros bs, 0, 0⟩

def parseBytes (bs : List UInt8) : Except BytesError Value :=
  let found := detect bs
  match found.encoding.decode found.position (bs.drop found.skipped) with
  | .error e => .error (.decoding e)
  | .ok cs => (parseChars cs).mapError .parsing

end TorrentRemote.Json
