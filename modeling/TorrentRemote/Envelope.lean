import TorrentRemote.Failure
import TorrentRemote.Json.Bytes
import TorrentRemote.Json.Writer

/-!
# Envelopes

A request names a method and carries its arguments and a tag. The daemon answers with a result text,
arguments of its own and the tag of the request, and nothing else. A body is kept as the text that is
sent in UTF-8; half of a surrogate pair, which has no such form, is no character of a text here.
-/

namespace TorrentRemote

/-! ## Requests -/

namespace Envelope

/-- The JSON object of a request; arguments that are null are left out. -/
def request (method : String) (arguments tag : Value) : Value :=
  let middle := if arguments.isNull then [] else [("arguments", arguments)]
  Value.ofFields ([("method", .text method)] ++ middle ++ [("tag", tag)])

def encode (method : String) (arguments tag : Value) : Except Failure String :=
  if method.isEmpty then .error .emptyMethod
  else
    match Json.write (request method arguments tag) with
    | .ok body => .ok body
    | .error e =>
      .error (.client (.arguments ("Cannot encode " ++ method ++ " arguments: " ++ e.message)))

end Envelope

/-! ## Responses -/

structure Response where
  result : String
  arguments : Value
  tag : Option Int

namespace Response

def successWord : String := "success"

def isSuccess (r : Response) : Bool :=
  r.result = successWord

def knownKeys : List String := ["result", "arguments", "tag"]

def refuse {α} (message : String) : Except Failure α :=
  .error (.client (.badResponse message))

def unknownKeys (entries : List (Value × Value)) : List String :=
  let keys := entries.filterMap fun e => e.1.text?
  (keys.filter fun k => !knownKeys.contains k).mergeSort fun a b => decide (a ≤ b)

def readTag (v : Value) : Except Failure (Option Int) :=
  match v with
  | .null => .ok none
  | .int n => .ok (some n)
  | _ => refuse ("Invalid response tag: " ++ v.quoted)

/-- Reads an envelope. Arguments that are missing or null are an empty object. -/
def ofValue (v : Value) : Except Failure Response :=
  match v with
  | .mapping entries =>
    match unknownKeys entries with
    | [] => do
      let get := fun key => (Value.lookup? key entries).getD .null
      match get "result" with
      | .text result =>
        let tag ← readTag (get "tag")
        let arguments := match get "arguments" with
          | .null => .mapping []
          | other => other
        return ⟨result, arguments, tag⟩
      | other => refuse ("Invalid response result: " ++ other.quoted)
    | unknown => refuse ("Unknown response envelope keys: " ++ ", ".intercalate unknown)
  | _ => refuse ("Invalid response envelope: expected object, got " ++ v.kindName)

/-- An error in a body; integers with too many digits are not the envelope's affair. -/
def bodyFailure (e : Json.BytesError) : Failure :=
  match e with
  | .parsing (.tooManyDigits count) => .numeral (.tooManyDigits count)
  | _ => .client (.badResponse ("Invalid response body: " ++ e.message))

def decode (s : String) : Except Failure Response :=
  match Json.parse s with
  | .error e => .error (bodyFailure (.parsing e))
  | .ok v => ofValue v

def decodeBytes (bs : List UInt8) : Except Failure Response :=
  match Json.parseBytes bs with
  | .error e => .error (bodyFailure e)
  | .ok v => ofValue v

end Response

end TorrentRemote
