import TorrentRemote.Text.Encoding

/-!
# Text read in chunks

A long text is decoded chunk by chunk. A character that a chunk cuts off waits for the next chunk,
and an error is placed by its position in the chunk and what waited before it.
-/

namespace TorrentRemote.Text

/-- Splits the parts of a chunk into characters, an error if there is one, and how many bytes at the
end belong to a character that is cut off. -/
def sortPieces (name : String) (size : Nat) : List Piece → List Char × Option DecodeError × Nat
  | [] => ([], none, 0)
  | .char c :: rest =>
    let (cs, e, waiting) := sortPieces name size rest
    (c :: cs, e, waiting)
  | .bad start width first reason :: _ =>
    if reason = Encoding.cutOff ∧ start + width = size then ([], none, width)
    else ([], some ⟨name, start, width, first, reason⟩, 0)

/-- Decodes chunks of a size after some bytes that wait. The result is the text of the chunks before
the first one with an error, and that error. -/
def decodeChunks (e : Encoding) (size : Nat) : (fuel : Nat) → (waiting : List UInt8) → List UInt8 →
    List Char × Option DecodeError
  | 0, _, _ => ([], none)
  | _, waiting, [] =>
    match e.decode 0 waiting with
    | .ok cs => (cs, none)
    | .error error => ([], some error)
  | fuel + 1, waiting, b :: rest =>
    let chunk := waiting ++ (b :: rest).take size
    match sortPieces e.name chunk.length (e.pieces 0 chunk) with
    | (_, some error, _) => ([], some error)
    | (cs, none, left) =>
      let (more, error) :=
        decodeChunks e size fuel (chunk.drop (chunk.length - left)) ((b :: rest).drop size)
      (cs ++ more, error)

def decodeFile (e : Encoding) (bs : List UInt8) : List Char × Option DecodeError :=
  decodeChunks e 8192 (bs.length + 1) [] bs

end TorrentRemote.Text
