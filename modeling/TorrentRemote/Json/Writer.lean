import TorrentRemote.Number.Numeral
import TorrentRemote.Number.Shortest
import TorrentRemote.Text.Hex
import TorrentRemote.Value.Basic

/-!
# Writing JSON

Strict JSON with a space after each comma and colon. Only quotes, backslashes and control characters
are escaped. Members of domains are written as their wire values and keys that are numbers, flags or
nothing as texts.
-/

namespace TorrentRemote.Json

inductive WriteError where
  | tooManyDigits
  | notFinite
  | noForm (kind : String)
  | badKey (kind : String)
  deriving DecidableEq

def WriteError.message : WriteError → String
  | .tooManyDigits => Numeral.limitText ++ Numeral.limitAdvice
  | .notFinite => "Out of range float values are not JSON compliant"
  | .noForm kind => "Object of type " ++ kind ++ " is not JSON serializable"
  | .badKey kind => "keys must be str, int, float, bool or None, not " ++ kind

def writeChar (c : Char) : List Char :=
  if c = '"' ∨ c = '\\' then ['\\', c]
  else if c = '\n' then ['\\', 'n']
  else if c = '\r' then ['\\', 'r']
  else if c = '\t' then ['\\', 't']
  else if c = '\x08' then ['\\', 'b']
  else if c = '\x0c' then ['\\', 'f']
  else if c.toNat < 0x20 then '\\' :: 'u' :: Text.hexDigits 4 c.toNat
  else [c]

def writeString (s : String) : String :=
  String.ofList ('"' :: s.toList.flatMap writeChar ++ ['"'])

def writeInt (n : Int) : Except WriteError String :=
  if decimalLength n.natAbs > Numeral.digitLimit then .error .tooManyDigits
  else .ok (toString n)

def writeFloat (x : Binary64) : Except WriteError String :=
  if x.isFinite then .ok x.text else .error .notFinite

def writeBool (b : Bool) : String :=
  if b then "true" else "false"

def keyText (k : Value) : Except WriteError String :=
  match k with
  | .text s => .ok s
  | .member m =>
    match m.code with
    | .word s => .ok s
    | .number n => writeInt n
  | .float x => writeFloat x
  | .bool b => .ok (writeBool b)
  | .null => .ok "null"
  | .int n => writeInt n
  | _ => .error (.badKey k.kindPath)

mutual

def write : Value → Except WriteError String
  | .null => .ok "null"
  | .bool b => .ok (writeBool b)
  | .text s => .ok (writeString s)
  | .int n => writeInt n
  | .member m =>
    match m.code with
    | .word s => .ok (writeString s)
    | .number n => writeInt n
  | .float x => writeFloat x
  | .list vs => do return "[" ++ ", ".intercalate (← writeAll vs) ++ "]"
  | .tuple vs => do return "[" ++ ", ".intercalate (← writeAll vs) ++ "]"
  | .mapping entries => do return "\x7b" ++ ", ".intercalate (← writeEntries entries) ++ "\x7d"
  | v => .error (.noForm v.kindName)

def writeAll : List Value → Except WriteError (List String)
  | [] => .ok []
  | v :: vs => do
    let s ← write v
    let ss ← writeAll vs
    return s :: ss

def writeEntries : List (Value × Value) → Except WriteError (List String)
  | [] => .ok []
  | (k, v) :: rest => do
    let key ← keyText k
    let s ← write v
    let ss ← writeEntries rest
    return (writeString key ++ ": " ++ s) :: ss

end

end TorrentRemote.Json
