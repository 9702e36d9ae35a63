import TorrentRemote.Text.Encoding

/-!
# Text in units of two and four bytes

The low byte of a unit comes first or last. Two-byte units above 0xD7FF and below 0xE000 are halves
of a pair that makes one character; a half that stands alone counts as a character.
-/

namespace TorrentRemote.Text

inductive ByteOrder where
  | lowFirst | highFirst
  deriving DecidableEq

def ByteOrder.tag : ByteOrder → String
  | .lowFirst => "le"
  | .highFirst => "be"

def ByteOrder.number (order : ByteOrder) (bs : List UInt8) : Nat :=
  let highFirst := if order = .lowFirst then bs.reverse else bs
  highFirst.foldl (fun n b => n * 256 + b.toNat) 0

def truncated : String := "truncated data"

def isHighHalf (n : Nat) : Bool := 0xD800 ≤ n && n < 0xDC00

def isLowHalf (n : Nat) : Bool := 0xDC00 ≤ n && n < 0xE000

def joinHalves (high low : Nat) : Nat :=
  0x10000 + (high - 0xD800) * 0x400 + (low - 0xDC00)

namespace Utf16

def front (order : ByteOrder) : List UInt8 → Front
  | a :: b :: c :: d :: _ =>
    let unit := order.number [a, b]
    let next := order.number [c, d]
    if isHighHalf unit ∧ isLowHalf next then .char (charOfNumber (joinHalves unit next)) 4
    else .char (charOfNumber unit) 2
  | a :: b :: _ => .char (charOfNumber (order.number [a, b])) 2
  | bs => .bad bs.length truncated

def encoding (order : ByteOrder) : Encoding := ⟨"utf-16-" ++ order.tag, front order⟩

end Utf16

namespace Utf32

def outOfRange : String := "code point not in range(0x110000)"

def front (order : ByteOrder) : List UInt8 → Front
  | a :: b :: c :: d :: _ =>
    let n := order.number [a, b, c, d]
    if n < 0x110000 then .char (charOfNumber n) 4 else .bad 4 outOfRange
  | bs => .bad bs.length truncated

def encoding (order : ByteOrder) : Encoding := ⟨"utf-32-" ++ order.tag, front order⟩

end Utf32

end TorrentRemote.Text
