import TorrentRemote.Text.LowerCase
import TorrentRemote.Text.Quoted

/-!
# Interpolation

In a value, `%(name)s` stands for the value of another option and `%%` for a percent sign. Values
may refer to each other down to a depth of ten.
-/

namespace TorrentRemote.Config

inductive InterpolationError where
  | tooDeep (option name raw : String)
  | unknownOption (option name reference raw : String)
  | lonePercent (rest : String)
  | badReference (rest : String)
  deriving DecidableEq

namespace Interpolation

def depthLimit : Nat := 10

def placeText (option name : String) : String :=
  "option " ++ Text.quoted option ++ " in section " ++ Text.quoted name

end Interpolation

open Interpolation in
def InterpolationError.message : InterpolationError → String
  | .tooDeep option name raw =>
    "Recursion limit exceeded in value substitution: " ++ placeText option name ++
      " contains an interpolation key which cannot be substituted in " ++ toString depthLimit ++
      " steps. Raw value: " ++ Text.quoted raw
  | .unknownOption option name reference raw =>
    "Bad value substitution: " ++ placeText option name ++ " contains an interpolation key " ++
      Text.quoted reference ++ " which is not a valid option name. Raw value: " ++ Text.quoted raw
  | .lonePercent rest => "'%' must be followed by '%' or '(', found: " ++ Text.quoted rest
  | .badReference rest => "bad interpolation variable reference " ++ Text.quoted rest

namespace Interpolation

structure Source where
  name : String
  option : String
  raw : String
  get? : String → Option String

inductive Part where
  | char (c : Char)
  | reference (option : String)
  | bad (e : InterpolationError)

def reference? : List Char → Option (String × Nat)
  | '(' :: rest =>
    let name := rest.takeWhile (· ≠ ')')
    match rest.drop name.length with
    | ')' :: 's' :: _ =>
      if name.isEmpty then none
      else some (String.ofList (Text.lower name), name.length + 3)
    | _ => none
  | _ => none

/-- The parts of a value, up to the first bad one. `skip` counts the characters that belong to the
part before. -/
def parts : (skip : Nat) → List Char → List Part
  | _, [] => []
  | skip + 1, _ :: rest => parts skip rest
  | 0, '%' :: rest =>
    let whole := String.ofList ('%' :: rest)
    match rest with
    | '%' :: _ => .char '%' :: parts 1 rest
    | '(' :: _ =>
      match reference? rest with
      | some (option, width) => .reference option :: parts width rest
      | none => [.bad (.badReference whole)]
    | _ => [.bad (.lonePercent whole)]
  | 0, c :: rest => .char c :: parts 0 rest

def expand (source : Source) : (levels : Nat) → String → Except InterpolationError String
  | 0, _ => .error (.tooDeep source.option source.name source.raw)
  | levels + 1, text => do
    let pieces ← (parts 0 text.toList).mapM fun
      | .char c => .ok (String.ofList [c])
      | .bad e => .error e
      | .reference option =>
        match source.get? option with
        | none => .error (.unknownOption source.option source.name option source.raw)
        | some value => if value.contains '%' then expand source levels value else .ok value
    return String.join pieces

def value (source : Source) : Except InterpolationError String :=
  expand source depthLimit source.raw

end Interpolation

end TorrentRemote.Config
