import TorrentRemote.IpAddress
import TorrentRemote.Text.Blank
import TorrentRemote.Text.Quoted

/-!
# URLs

A URL is taken apart into scheme, authority, path, query and fragment, and put together again. The
authority may start with a user name and a password, and a host in brackets has to be an address of
the kinds that are written in them.
-/

namespace TorrentRemote

structure Url where
  scheme : String
  authority : String
  path : String
  query : String
  fragment : String
  deriving DecidableEq

inductive UrlError where
  /-- Brackets that are no pair around the host. -/
  | misplacedBrackets
  | notAnAddress (host : String)
  /-- An address of a kind that is written without brackets. -/
  | fourInBrackets
  | badFutureAddress
  /-- The authority has a character that stands for a delimiter. -/
  | foldedDelimiter (authority : String)
  deriving DecidableEq

def UrlError.message : UrlError → String
  | .misplacedBrackets => "Invalid IPv6 URL"
  | .notAnAddress host => Text.quoted host ++ " does not appear to be an IPv4 or IPv6 address"
  | .fourInBrackets => "An IPv4 address cannot be in brackets"
  | .badFutureAddress => "IPvFuture address is invalid"
  | .foldedDelimiter authority =>
    "netloc '" ++ authority ++ "' contains invalid characters under NFKC normalization"

namespace Url

/-! ## Taking apart -/

def cutAt (p : Char → Bool) (cs : List Char) : List Char × Option (List Char) :=
  match cs.dropWhile fun c => !p c with
  | [] => (cs, none)
  | _ :: rest => (cs.takeWhile fun c => !p c, some rest)

/-- Controls and spaces before a URL and line breaks and tabs in it do not count. -/
def clean (cs : List Char) : List Char :=
  (cs.dropWhile fun c => c.toNat ≤ 32).filter fun c => c ≠ '\t' ∧ c ≠ '\r' ∧ c ≠ '\n'

def isSchemeChar (c : Char) : Bool :=
  c.isAlphanum || c = '+' || c = '-' || c = '.'

def cutScheme (cs : List Char) : List Char × List Char :=
  match cutAt (· = ':') cs with
  | (c :: name, some rest) =>
    if c.isAlpha ∧ name.all isSchemeChar then ((c :: name).map Char.toLower, rest) else ([], cs)
  | _ => ([], cs)

def cutAuthority : List Char → List Char × List Char
  | '/' :: '/' :: rest =>
    let inside := fun c => c ≠ '/' && c ≠ '?' && c ≠ '#'
    (rest.takeWhile inside, rest.dropWhile inside)
  | cs => ([], cs)

def cutUser (authority : List Char) : Option (List Char) × List Char :=
  match cutAt (· = '@') authority.reverse with
  | (host, some user) => (some user.reverse, host.reverse)
  | (_, none) => (none, authority)

/-! ## Checking the authority -/

/-- An address of a kind to come: a version in hexadecimal digits and, behind a point, anything. -/
def isFutureAddress (host : List Char) : Bool :=
  match host with
  | 'v' :: rest =>
    let (version, body) := cutAt (· = '.') rest
    Text.isHex version && body.any fun cs => !cs.isEmpty
  | _ => false

def checkHost (host : List Char) : Except UrlError Unit :=
  if host.head? = some 'v' then
    if isFutureAddress host then .ok () else .error .badFutureAddress
  else
    match IpAddress.ofText? (String.ofList host) with
    | none => .error (.notAnAddress (String.ofList host))
    | some (.four _) => .error .fourInBrackets
    | some (.six _ _) => .ok ()

/-- Brackets stand around the whole host, and behind them at most a port. Where they are in the user
information alone, the host is checked all the same. -/
def checkBrackets (authority : List Char) : Except UrlError Unit :=
  let opened := authority.contains '['
  if opened ≠ authority.contains ']' then .error .misplacedBrackets
  else if !opened then .ok ()
  else
    let place := (cutUser authority).2
    match cutAt (· = '[') place with
    | (_, none) => checkHost (cutAt (· = ':') place).1
    | (before, some rest) =>
      let (host, behind) := cutAt (· = ']') rest
      if before.isEmpty ∧ (behind.getD []).head?.all (· = ':') then checkHost host
      else .error .misplacedBrackets

/-- The characters that compatibility folding turns into texts with one of `/?#@:`. -/
def foldedDelimiters : List Nat := [
  0x2047, 0x2048, 0x2049, 0x2100, 0x2101, 0x2105, 0x2106, 0x2A74, 0xFE13, 0xFE16, 0xFE55, 0xFE56,
  0xFE5F, 0xFE6B, 0xFF03, 0xFF0F, 0xFF1A, 0xFF1F, 0xFF20]

def checkFolding (authority : List Char) : Except UrlError Unit :=
  if authority.any fun c => foldedDelimiters.contains c.toNat then
    .error (.foldedDelimiter (String.ofList authority))
  else .ok ()

def parse (s : String) : Except UrlError Url := do
  let (scheme, afterScheme) := cutScheme (clean s.toList)
  let (authority, afterAuthority) := cutAuthority afterScheme
  let (beforeFragment, fragment) := cutAt (· = '#') afterAuthority
  let (path, query) := cutAt (· = '?') beforeFragment
  checkBrackets authority
  checkFolding authority
  return {
    scheme := String.ofList scheme
    authority := String.ofList authority
    path := String.ofList path
    query := String.ofList (query.getD [])
    fragment := String.ofList (fragment.getD []) }

/-! ## Putting together -/

/-- The schemes whose URLs have an authority even where it is empty. -/
def schemesWithAuthority : List String := [
  "ftp", "http", "gopher", "nntp", "telnet", "imap", "wais", "file", "mms", "https", "shttp",
  "snews", "prospero", "rtsp", "rtspu", "rsync", "svn", "svn+ssh", "sftp", "nfs", "git", "git+ssh",
  "ws", "wss"]

def part (delimiter text : String) : String :=
  if text.isEmpty then "" else delimiter ++ text

def render (u : Url) : String :=
  let hasAuthority := !u.authority.isEmpty ||
    (schemesWithAuthority.contains u.scheme && !u.path.startsWith "//")
  let slash := if u.path.isEmpty || u.path.startsWith "/" then "" else "/"
  let place := if hasAuthority then "//" ++ u.authority ++ slash ++ u.path else u.path
  (if u.scheme.isEmpty then "" else u.scheme ++ ":") ++ place ++ part "?" u.query ++
    part "#" u.fragment

/-! ## User information -/

def user? (u : Url) : Option (String × Option String) :=
  (cutUser u.authority.toList).1.map fun user =>
    let (name, password) := cutAt (· = ':') user
    (String.ofList name, password.map String.ofList)

def withoutUser (u : Url) : Url :=
  { u with authority := String.ofList (cutUser u.authority.toList).2 }

end Url

end TorrentRemote
