/-!
# Lines

A line ends with a line feed, a carriage return or both together, and all of them count as a line
feed. The last line may have no end.
-/

namespace TorrentRemote.Text

def plainEnds : List Char → List Char
  | '\r' :: '\n' :: rest => '\n' :: plainEnds rest
  | '\r' :: rest => '\n' :: plainEnds rest
  | c :: rest => c :: plainEnds rest
  | [] => []

def extendLine (c : Char) : List (List Char) → List (List Char)
  | [] => [[c]]
  | line :: rest => (c :: line) :: rest

def cutLines : List Char → List (List Char)
  | [] => []
  | '\n' :: rest => ['\n'] :: cutLines rest
  | c :: rest => extendLine c (cutLines rest)

def lines (cs : List Char) : List (List Char) :=
  cutLines (plainEnds cs)

/-- The lines of a text that is cut off: without the one that is not known to end. -/
def completeLines (cs : List Char) : List (List Char) :=
  let known := if cs.getLast? = some '\r' then cs.dropLast else cs
  (lines known).filter fun line => line.getLast? = some '\n'

def bareLines (cs : List Char) : List (List Char) :=
  (lines cs).map fun line => if line.getLast? = some '\n' then line.dropLast else line

end TorrentRemote.Text
