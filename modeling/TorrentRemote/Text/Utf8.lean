import TorrentRemote.Text.Encoding

/-!
# UTF-8

The first byte of a character tells how many bytes follow it and bounds the second one; the others
lie between 0x80 and 0xBF.
-/

namespace TorrentRemote.Text.Utf8

def badStart : String := "invalid start byte"

def badContinuation : String := "invalid continuation byte"

/-- What the first byte of a character says: the bits it gives, the count of bytes that follow and
the bounds of the second one. -/
structure Lead where
  bits : Nat
  owed : Nat
  low : Nat
  high : Nat

/-- What a byte says that a character starts with. The second byte after 0xED is bounded so that no
surrogate is read. -/
def lead? (b : Nat) : Option Lead :=
  if b < 0x80 then some ⟨b, 0, 0x80, 0xBF⟩
  else if b < 0xC2 then none
  else if b < 0xE0 then some ⟨b - 0xC0, 1, 0x80, 0xBF⟩
  else if b = 0xE0 then some ⟨0, 2, 0xA0, 0xBF⟩
  else if b = 0xED then some ⟨0xD, 2, 0x80, 0x9F⟩
  else if b < 0xF0 then some ⟨b - 0xE0, 2, 0x80, 0xBF⟩
  else if b = 0xF0 then some ⟨0, 3, 0x90, 0xBF⟩
  else if b < 0xF4 then some ⟨b - 0xF0, 3, 0x80, 0xBF⟩
  else if b = 0xF4 then some ⟨4, 3, 0x80, 0x8F⟩
  else none

def follow (bits width : Nat) : (owed low high : Nat) → List UInt8 → Front
  | 0, _, _, _ => .char (charOfNumber bits) width
  | _ + 1, _, _, [] => .bad width Encoding.cutOff
  | owed + 1, low, high, b :: rest =>
    if low ≤ b.toNat ∧ b.toNat ≤ high then
      follow (bits * 64 + (b.toNat - 0x80)) (width + 1) owed 0x80 0xBF rest
    else .bad width badContinuation

def front : List UInt8 → Front
  | [] => .bad 0 Encoding.cutOff
  | b :: rest =>
    match lead? b.toNat with
    | none => .bad 1 badStart
    | some lead => follow lead.bits 1 lead.owed lead.low lead.high rest

def isSurrogateTail (b c : UInt8) : Bool :=
  0xA0 ≤ b && b ≤ 0xBF && 0x80 ≤ c && c ≤ 0xBF

/-- Takes a surrogate for a character; one that is not complete is bad as any other start. -/
def frontOrSurrogate : List UInt8 → Front
  | 0xED :: b :: c :: rest =>
    if isSurrogateTail b c then
      .char (charOfNumber (0xD000 + (b.toNat - 0x80) * 64 + (c.toNat - 0x80))) 3
    else front (0xED :: b :: c :: rest)
  | bs => front bs

def strict : Encoding := ⟨"utf-8", front⟩

/-- UTF-8 in which a surrogate counts as a character. -/
def withSurrogates : Encoding := ⟨"utf-8", frontOrSurrogate⟩

def encode (s : String) : List UInt8 :=
  s.toUTF8.toList

end TorrentRemote.Text.Utf8
