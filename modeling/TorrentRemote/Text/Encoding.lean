import TorrentRemote.Text.Hex

/-!
# Encodings of text

An encoding takes bytes apart into characters and into stretches that are no character, each with a
reason. Reading strictly stops at the first bad stretch, reading leniently replaces each one.
-/

namespace TorrentRemote.Text

/-- What stands at the front of some bytes: a character or a bad stretch, with its width. -/
inductive Front where
  | char (c : Char) (width : Nat)
  | bad (width : Nat) (reason : String)

structure Encoding where
  name : String
  front : List UInt8 → Front

inductive Piece where
  | char (c : Char)
  | bad (start width : Nat) (first : UInt8) (reason : String)

structure DecodeError where
  encoding : String
  start : Nat
  width : Nat
  first : UInt8
  reason : String
  deriving DecidableEq

def DecodeError.message (e : DecodeError) : String :=
  let what :=
    if e.width = 1 then
      "byte 0x" ++ String.ofList (hexDigits 2 e.first.toNat) ++ " in position " ++
        toString e.start
    else "bytes in position " ++ toString e.start ++ "-" ++ toString (e.start + e.width - 1)
  "'" ++ e.encoding ++ "' codec can't decode " ++ what ++ ": " ++ e.reason

/-- The character with a number. Half of a surrogate pair is none and is replaced. -/
def charOfNumber (n : Nat) : Char :=
  if n.isValidChar then Char.ofNat n else '\uFFFD'

namespace Encoding

def cutOff : String := "unexpected end of data"

def piecesFrom (e : Encoding) : (fuel : Nat) → Nat → List UInt8 → List Piece
  | 0, _, _ => []
  | _, _, [] => []
  | fuel + 1, position, b :: rest =>
    match e.front (b :: rest) with
    | .char c width =>
      .char c :: piecesFrom e fuel (position + max width 1) (rest.drop (width - 1))
    | .bad width reason =>
      .bad position width b reason ::
        piecesFrom e fuel (position + max width 1) (rest.drop (width - 1))

def pieces (e : Encoding) (position : Nat) (bs : List UInt8) : List Piece :=
  e.piecesFrom bs.length position bs

def readPieces (name : String) : List Piece → Except DecodeError (List Char)
  | [] => .ok []
  | .char c :: rest => (readPieces name rest).map (c :: ·)
  | .bad start width first reason :: _ => .error ⟨name, start, width, first, reason⟩

/-- Reads all bytes, or tells what is wrong with the first bad stretch. The position is that of the
first byte. -/
def decode (e : Encoding) (position : Nat) (bs : List UInt8) : Except DecodeError (List Char) :=
  readPieces e.name (e.pieces position bs)

def orReplacement : Piece → Char
  | .char c => c
  | .bad _ _ _ _ => '\uFFFD'

def decodeLenient (e : Encoding) (bs : List UInt8) : List Char :=
  (e.pieces 0 bs).map orReplacement

end Encoding

end TorrentRemote.Text
