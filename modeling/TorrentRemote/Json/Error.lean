import TorrentRemote.Number.Numeral

/-!
# Errors in JSON texts

What is wrong with a text that should be JSON, and where. Positions count characters from zero,
lines and columns from one.
-/

namespace TorrentRemote.Json

inductive Problem where
  | expectingValue
  | expectingName
  | expectingColon
  | expectingComma
  | unterminatedString
  | controlCharacter
  | badEscape
  | badUnicodeEscape
  | extraData
  | byteOrderMark
  deriving DecidableEq

def Problem.message : Problem → String
  | .expectingValue => "Expecting value"
  | .expectingName => "Expecting property name enclosed in double quotes"
  | .expectingColon => "Expecting ':' delimiter"
  | .expectingComma => "Expecting ',' delimiter"
  | .unterminatedString => "Unterminated string starting at"
  | .controlCharacter => "Invalid control character at"
  | .badEscape => "Invalid \\escape"
  | .badUnicodeEscape => "Invalid \\uXXXX escape"
  | .extraData => "Extra data"
  | .byteOrderMark => "Unexpected UTF-8 BOM (decode using utf-8-sig)"

inductive Fault where
  | at (position : Nat) (problem : Problem)
  | tooManyDigits (count : Nat)
  deriving DecidableEq

def lineOf (text : List Char) (position : Nat) : Nat :=
  (text.take position).count '\n' + 1

def columnOf (text : List Char) (position : Nat) : Nat :=
  ((text.take position).reverse.takeWhile (· ≠ '\n')).length + 1

inductive ParseError where
  | syntactic (problem : Problem) (line column position : Nat)
  | tooManyDigits (count : Nat)
  deriving DecidableEq

def Fault.place (text : List Char) : Fault → ParseError
  | .at position problem =>
    .syntactic problem (lineOf text position) (columnOf text position) position
  | .tooManyDigits count => .tooManyDigits count

def ParseError.message : ParseError → String
  | .syntactic problem line column position =>
    problem.message ++ ": line " ++ toString line ++ " column " ++ toString column ++ " (char " ++
      toString position ++ ")"
  | .tooManyDigits count => (NumeralError.tooManyDigits count).message

end TorrentRemote.Json
