import TorrentRemote.Text.Percent
import TorrentRemote.Value.Convert

/-!
# Endpoints

Where the daemon is reached, and the credentials that the address brings along. They are taken out
of the URL that requests go to. Addresses are texts, or bytes without credentials.
-/

namespace TorrentRemote

structure Credentials where
  user : String
  password : String
  deriving DecidableEq

structure Endpoint where
  url : String
  credentials : Option Credentials
  deriving DecidableEq

namespace Endpoint

def defaultHost : String := "localhost:9091"

def defaultPath : String := "/transmission/rpc/"

def defaultUser : String := "transmission"

def defaultPassword : String := "transmission"

/-- The URL of a host, which may have user information in front and a port behind. -/
def urlOfHost (host : String) : String :=
  "http://" ++ host ++ defaultPath

/-- The address that a URL or else a host gives; without both it is the daemon's default. Empty
values count as none, and a host may be anything with a text. -/
def address (url host : Value) : Except Failure Value :=
  if url.isTrue then .ok url
  else if host.isTrue then host.toText.map fun text => .text (urlOfHost text)
  else .ok (.text (urlOfHost (defaultUser ++ ":" ++ defaultPassword ++ "@" ++ defaultHost)))

def ofAddress (s : String) : Except UrlError Endpoint := do
  let u ← Url.parse s
  match u.user? with
  | none => return ⟨s, none⟩
  | some (user, password) =>
    let credentials := ⟨Text.Percent.decode user, Text.Percent.decode (password.getD "")⟩
    return ⟨u.withoutUser.render, some credentials⟩

def ofBytes (bs : List UInt8) : Except Failure Endpoint :=
  match bs.findIdx? (128 ≤ ·) with
  | some i => .error (.decoding ⟨"ascii", i, 1, bs.getD i 0, "ordinal not in range(128)"⟩)
  | none => (ofAddress (String.ofList (bs.map fun b => Char.ofNat b.toNat))).mapError .url

def ofValue (v : Value) : Except Failure (Value × Option Credentials) :=
  match v.changeable?, v, v.text? with
  | some kind, _, _ => .error (.unhashable kind)
  | none, .bytes bs, _ => do
    if (← ofBytes bs).credentials.isSome then throw .bytesNeeded
    return (v, none)
  | none, _, some s => do
    let e ← (ofAddress s).mapError .url
    return (if e.credentials.isSome then .text e.url else v, e.credentials)
  | none, _, none => .error (.noOperation v.kindPath "decode")

def resolve (url host : Value) : Except Failure (Value × Option Credentials) :=
  address url host >>= ofValue

end Endpoint

end TorrentRemote
