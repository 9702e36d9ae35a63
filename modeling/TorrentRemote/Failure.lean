import TorrentRemote.Config.Interpolation
import TorrentRemote.Error
import TorrentRemote.Files
import TorrentRemote.Number.FixedLayout
import TorrentRemote.Number.Numeral
import TorrentRemote.Text.Base64
import TorrentRemote.Text.Encoding
import TorrentRemote.Url
import TorrentRemote.Wire.Form

/-!
# Failures

All causes for which an operation gives no result: the errors of the client, and faults in the
values it is given that the client does not take on itself.
-/

namespace TorrentRemote

inductive SessionFault where
  | system (message : String)
  | value (message : String)
  /-- A body that is no text in the encoding that its headers name. -/
  | encoding (message : String)
  deriving DecidableEq

def SessionFault.message : SessionFault → String
  | .system message => message
  | .value message => message
  | .encoding message => message

inductive Failure where
  | client (e : ClientError)
  | numeral (e : NumeralError)
  | base64 (e : Text.Base64.DecodeError)
  | decoding (e : Text.DecodeError)
  | writing (e : Wire.WriteError)
  | url (e : UrlError)
  | file (e : FileError)
  | session (e : SessionFault)
  | interpolation (e : Config.InterpolationError)
  | integerTooLarge
  /-- An integer with more digits than are written. -/
  | integerTooLong
  | nanToInteger
  | infinityToInteger
  | notANumber (kind : String)
  | quotientTooLarge
  | negativeRetries (shown : String)
  | zeroInPath
  | emptyMethod
  | notIterable (kind : String)
  | notAnIndex (kind : String)
  | notBytes (kind : String)
  | noOperation (kind name : String)
  /-- A value that can change in place cannot be looked up by. -/
  | unhashable (kind : String)
  | noMagnitude (kind : String)
  | notOrdered (kind : String)
  | notScalable (kind : String)
  | noLayout (kind : String)
  | textAsNumber
  | durationTooLong (days : Int)
  /-- Bytes cannot be made from a text whose encoding is not given. -/
  | textAsBytes
  | byteOutOfRange
  | negativeCount
  | countTooLarge
  | tooManyBytes
  /-- More memory is needed than any machine has. -/
  | outOfMemory
  | notAMember (domain : Domain) (shown : String)
  | fileIndex (shown : String)
  | oddCookies
  | unexpectedSettings (request : String) (names : List String)
  | withoutIdentifiers (method : String)
  | bytesNeeded
  | unknownArgument (operation name : String)
  | notCallable (kind : String)
  /-- Changes that are for nothing in particular. -/
  | withoutSettings
  | layout (e : LayoutError)

def Failure.message : Failure → String
  | .client e => e.message
  | .numeral e => e.message
  | .base64 e => e.message
  | .decoding e => e.message
  | .writing e => e.message
  | .url e => e.message
  | .file e => e.message
  | .session e => e.message
  | .interpolation e => e.message
  | .integerTooLarge => "int too large to convert to float"
  | .integerTooLong => Numeral.limitText ++ Numeral.limitAdvice
  | .nanToInteger => "cannot convert float NaN to integer"
  | .infinityToInteger => "cannot convert float infinity to integer"
  | .notANumber kind =>
    "int() argument must be a string, a bytes-like object or a real number, not '" ++ kind ++ "'"
  | .quotientTooLarge => "integer division result too large for a float"
  | .notIterable kind => "'" ++ kind ++ "' object is not iterable"
  | .notAnIndex kind => "'" ++ kind ++ "' object cannot be interpreted as an integer"
  | .notBytes kind => "cannot convert '" ++ kind ++ "' object to bytes"
  | .noOperation kind name => "'" ++ kind ++ "' object has no attribute '" ++ name ++ "'"
  | .unhashable kind => "unhashable type: '" ++ kind ++ "'"
  | .noMagnitude kind => "bad operand type for abs(): '" ++ kind ++ "'"
  | .notOrdered kind => "'<' not supported between instances of '" ++ kind ++ "' and 'int'"
  | .notScalable kind => "unsupported operand type(s) for *: '" ++ kind ++ "' and 'int'"
  | .noLayout kind => "unsupported format string passed to " ++ kind ++ ".__format__"
  | .textAsNumber => "Unknown format code 'f' for object of type 'str'"
  | .durationTooLong days =>
    if -2147483648 ≤ days ∧ days ≤ 2147483647 then
      "days=" ++ toString days ++ "; must have magnitude <= 999999999"
    else "Python int too large to convert to C int"
  | .textAsBytes => "string argument without an encoding"
  | .byteOutOfRange => "bytes must be in range(0, 256)"
  | .negativeCount => "negative count"
  | .countTooLarge => "cannot fit 'int' into an index-sized integer"
  | .tooManyBytes => "byte string is too large"
  | .outOfMemory => ""
  | .notAMember domain shown => shown ++ " is not a valid " ++ domain.title
  | .fileIndex shown => "Invalid file index: " ++ shown
  | .oddCookies => "cookies length must be even"
  | .unexpectedSettings request names =>
    request ++ " got unexpected arguments: " ++ ", ".intercalate names
  | .withoutIdentifiers method => method ++ " does not take torrent identifiers"
  | .negativeRetries shown => "retries must not be negative: " ++ shown
  | .zeroInPath => "embedded null byte"
  | .emptyMethod => "RPC method name must not be empty"
  | .bytesNeeded => "a bytes-like object is required, not 'str'"
  | .unknownArgument operation name =>
    operation ++ "() got an unexpected keyword argument '" ++ name ++ "'"
  | .notCallable kind => "'" ++ kind ++ "' object is not callable"
  | .withoutSettings => "must be called with a dataclass type or instance"
  | .layout e => e.message

namespace Failure

/-- A failure that shows a value, which is another one where the value has no text. -/
def showing (v : Value) (e : Failure) : Failure :=
  if v.hasText then e else .integerTooLong

def about (v : Value) (e : ClientError) : Failure :=
  showing v (.client e)

end Failure

end TorrentRemote
