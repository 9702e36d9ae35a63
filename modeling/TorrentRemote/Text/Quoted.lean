import TorrentRemote.Text.Hex
import TorrentRemote.Text.Printable

/-!
# Quoted text and bytes

A quoted text stands in single quotes, or in double quotes when it has a single quote and no double
one. Backslashes, the enclosing quote and unprintable characters are escaped, so the quoted form
shows every character of the text. In a buffer of bytes every single quote is escaped.
-/

namespace TorrentRemote.Text

/-- The mark that encloses a text, given whether it has single and double quotes itself. -/
def quoteMark (hasSingle hasDouble : Bool) : Char :=
  if hasSingle && !hasDouble then '"' else '\''

def escapedCode (n : Nat) : List Char :=
  if n ≤ 0xff then '\\' :: 'x' :: hexDigits 2 n
  else if n ≤ 0xffff then '\\' :: 'u' :: hexDigits 4 n
  else '\\' :: 'U' :: hexDigits 8 n

def quotedChar (mark c : Char) : List Char :=
  if c = mark ∨ c = '\\' then ['\\', c]
  else if c = '\n' then ['\\', 'n']
  else if c = '\r' then ['\\', 'r']
  else if c = '\t' then ['\\', 't']
  else if isPrintable c then [c]
  else escapedCode c.toNat

def quoted (s : String) : String :=
  let cs := s.toList
  let mark := quoteMark (cs.contains '\'') (cs.contains '"')
  String.ofList (mark :: cs.flatMap (quotedChar mark) ++ [mark])

def quotedByte (mark : Char) (b : UInt8) : List Char :=
  if b < 128 then quotedChar mark (Char.ofNat b.toNat) else escapedCode b.toNat

def bytesMark (bs : List UInt8) : Char :=
  quoteMark (bs.contains 39) (bs.contains 34)

def quotedBytes (bs : List UInt8) : String :=
  let mark := bytesMark bs
  String.ofList ('b' :: mark :: bs.flatMap (quotedByte mark) ++ [mark])

/-- Bytes of a buffer, in quotes like others, but with single quotes escaped between double quotes
too. -/
def quotedBuffer (bs : List UInt8) : String :=
  let mark := bytesMark bs
  let shown := fun b => if b = 39 then ['\\', '\''] else quotedByte mark b
  String.ofList ('b' :: mark :: bs.flatMap shown ++ [mark])

end TorrentRemote.Text
