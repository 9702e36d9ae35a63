import TorrentRemote.Number.Numeral
import TorrentRemote.Text.Quoted
import TorrentRemote.Value.Basic

/-!
# The text of values

The quoted form shows what a value is, down to its elements. The plain form is the quoted one but
for texts, enumerated members, times and durations, which stand for themselves. An integer with too
many digits has neither, and so has no value with such an integer in it.
-/

namespace TorrentRemote

def Code.quoted : Code → String
  | .number n => toString n
  | .word s => Text.quoted s

def Code.plain : Code → String
  | .number n => toString n
  | .word s => s

namespace Value

def quotedTuple (parts : List String) : String :=
  match parts with
  | [part] => "(" ++ part ++ ",)"
  | _ => "(" ++ ", ".intercalate parts ++ ")"

def quotedBool (b : Bool) : String :=
  if b then "True" else "False"

mutual

def quoted : Value → String
  | .null => "None"
  | .bool b => quotedBool b
  | .int n => toString n
  | .float x => x.text
  | .text s => Text.quoted s
  | .bytes bs => Text.quotedBytes bs
  | .buffer bs => "bytearray(" ++ Text.quotedBuffer bs ++ ")"
  | .list vs => "[" ++ ", ".intercalate (quotedAll vs) ++ "]"
  | .tuple vs => quotedTuple (quotedAll vs)
  | .mapping entries => "\x7b" ++ ", ".intercalate (quotedEntries entries) ++ "\x7d"
  | .member m => "<" ++ m.fullName ++ ": " ++ m.code.quoted ++ ">"
  | .time m => m.quoted
  | .duration d => d.quoted
  | .record model fields => model ++ "(" ++ ", ".intercalate (quotedFields fields) ++ ")"
  | .object _ => "<object object>"

def quotedAll : List Value → List String
  | [] => []
  | v :: vs => v.quoted :: quotedAll vs

def quotedEntries : List (Value × Value) → List String
  | [] => []
  | (k, v) :: rest => (k.quoted ++ ": " ++ v.quoted) :: quotedEntries rest

def quotedFields : List (Label × Value) → List String
  | [] => []
  | (label, v) :: rest => (label.name ++ "=" ++ v.quoted) :: quotedFields rest

end

def plain : Value → String
  | .text s => s
  | .member m => m.code.plain
  | .time m => m.isoText " "
  | .duration d => d.clockText
  | v => v.quoted

/-! ## Values that have a text -/

mutual

def hasText : Value → Bool
  | .int n => decimalLength n.natAbs ≤ Numeral.digitLimit
  | .list vs => haveText vs
  | .tuple vs => haveText vs
  | .mapping entries => entriesHaveText entries
  | .record _ fields => fieldsHaveText fields
  | _ => true

def haveText : List Value → Bool
  | [] => true
  | v :: vs => v.hasText && haveText vs

def entriesHaveText : List (Value × Value) → Bool
  | [] => true
  | (k, v) :: rest => k.hasText && v.hasText && entriesHaveText rest

def fieldsHaveText : List (Label × Value) → Bool
  | [] => true
  | (_, v) :: rest => v.hasText && fieldsHaveText rest

end

end Value

end TorrentRemote
