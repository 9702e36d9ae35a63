import TorrentRemote.Config.Ini
import TorrentRemote.Config.Interpolation
import TorrentRemote.Connection.Basic
import TorrentRemote.Text.Stream

/-!
# Configuration files

The options of a client come from a base file and, where a profile is named, from the profile's
file, which goes before the base file. Values that are empty or not valid are left out, with a
warning where something is wrong with them.
-/

namespace TorrentRemote.Config

/-! ## Places -/

def programName : String := "torrentrpc"

def directory : List String := ["config", programName]

def fileEnding : String := ".conf"

def profileStart : String := programName ++ "-"

def fileName (profile : Option String) : String :=
  match profile.filter (!·.isEmpty) with
  | some profile => profileStart ++ profile ++ fileEnding
  | none => programName ++ fileEnding

def path (files : Files) (profile : Option String) : String :=
  Files.join (files.pathOf directory) (fileName profile)

def profileOf? (name : String) : Option String :=
  let start := profileStart.toList
  let ending := fileEnding.toList
  let inner := (name.toList.drop start.length).take
    (name.length - (start.length + ending.length))
  if start ++ inner ++ ending = name.toList then some (String.ofList inner) else none

def profiles (files : Files) : List String :=
  ((files.namesIn directory).filterMap profileOf?).mergeSort fun a b => decide (a ≤ b)

/-! ## Options -/

structure Options where
  url : Option String := none
  host : Option String := none
  username : Option String := none
  password : Option String := none
  token : Option String := none
  agent : Option String := none
  retries : Option Int := none
  timeout : Option Binary64 := none
  logsBodies : Option Bool := none
  fallback : Option Credentials := none
  deriving DecidableEq

def Options.over (o base : Options) : Options where
  url := o.url.or base.url
  host := o.host.or base.host
  username := o.username.or base.username
  password := o.password.or base.password
  token := o.token.or base.token
  agent := o.agent.or base.agent
  retries := o.retries.or base.retries
  timeout := o.timeout.or base.timeout
  logsBodies := o.logsBodies.or base.logsBodies
  fallback := o.fallback.or base.fallback

def sectionName : String := "client"

def text? (ini : Ini) (option : String) : Option String :=
  ((ini.get? sectionName option).map fun s => String.ofList (Text.trim s.toList)).filter
    (!·.isEmpty)

def invalid (option message : String) : Log.Record :=
  Log.warning ("Invalid " ++ option ++ " value in config: " ++ message)

def readOption {α} (ini : Ini) (option : String) (read : String → Except String α) :
    Option α × List Log.Record :=
  match text? ini option with
  | none => (none, [])
  | some s =>
    match read s with
    | .ok a => (some a, [])
    | .error message => (none, [invalid option message])

def readRetries (s : String) : Except String Int := do
  let n ← (Numeral.whole s).mapError NumeralError.message
  if n < 0 then throw (toString n) else return n

def readTimeout (s : String) : Except String Binary64 :=
  (Numeral.number s).mapError NumeralError.message

def trueWords : List String := ["1", "yes", "true", "on"]

def falseWords : List String := ["0", "no", "false", "off"]

def readSwitch (s : String) : Except String Bool :=
  let word := String.ofList (Text.lower s.toList)
  if trueWords.contains word then .ok true
  else if falseWords.contains word then .ok false
  else .error ("Not a boolean: " ++ s)

/-- A switch, whose value may refer to other options. -/
def switchOption (ini : Ini) (option : String) :
    Except InterpolationError (Option Bool × List Log.Record) :=
  match text? ini option with
  | none => .ok (none, [])
  | some _ => do
    let raw := (ini.get? sectionName option).getD ""
    let value ← Interpolation.value ⟨sectionName, option, raw, ini.get? sectionName⟩
    match readSwitch value with
    | .ok b => return (some b, [])
    | .error message => return (none, [invalid option message])

/-- The fallback credentials need a user name; the password may be missing. -/
def fallback? (ini : Ini) : Option Credentials :=
  (text? ini "fallback_username").map fun user => ⟨user, (text? ini "fallback_password").getD ""⟩

def optionsOf (ini : Ini) : Except Failure Options × List Log.Record :=
  if !ini.hasSection sectionName then (.ok {}, [])
  else
    let (retries, retriesLog) := readOption ini "retries" readRetries
    let (timeout, timeoutLog) := readOption ini "timeout" readTimeout
    let log := retriesLog ++ timeoutLog
    match switchOption ini "log_bodies" with
    | .error e => (.error (.interpolation e), log)
    | .ok (logsBodies, switchLog) =>
      (.ok {
          url := text? ini "url"
          host := text? ini "host"
          username := text? ini "username"
          password := text? ini "password"
          token := text? ini "csrf"
          agent := text? ini "user_agent"
          retries, timeout, logsBodies
          fallback := fallback? ini },
        log ++ switchLog)

/-! ## Loading -/

/-- Reads the content of a file. Lines before the place where the content is no text are read first;
a file that is not well-formed gives no options but a warning. -/
def ofContent (path : String) (content : List UInt8) : Except Failure Options × List Log.Record :=
  let (cs, error) := Text.decodeFile Text.Utf8.strict content
  let malformed := fun (e : IniError) =>
    (.ok {}, [Log.warning ("Failed to parse config file " ++ path ++ ": " ++ e.message path)])
  match error with
  | some error =>
    match Ini.Progress.initial.readLines 1 (Text.completeLines cs) with
    | .error e => malformed e
    | .ok _ => (.error (.decoding error), [])
  | none =>
    match Ini.parse (Text.lines cs) with
    | .error e => malformed e
    | .ok ini => optionsOf ini

def ofFile (files : Files) (path : String) : Except Failure Options × List Log.Record :=
  match files.read path with
  | .ok content => ofContent path content
  | .error ⟨.nameTooLong, _⟩ => (.error (.file ⟨.nameTooLong, path⟩), [])
  | .error _ => (.ok {}, [])

/-- The options of the base file and, over them, of a profile's file, which has to be there. -/
def load (files : Files) (profile : Option String) : Except Failure Options × List Log.Record :=
  match ofFile files (path files none) with
  | (.error e, log) => (.error e, log)
  | (.ok base, log) =>
    match profile.filter (!·.isEmpty) with
    | none => (.ok base, log)
    | some profile =>
      let path := path files (some profile)
      match files.exists? path with
      | .error e => (.error (.file e), log)
      | .ok false =>
        (.error (.client (.general ("Profile config not found: " ++ path))), log)
      | .ok true =>
        let (result, more) := ofFile files path
        (result.map fun o => o.over base, log ++ more)

/-! ## Connecting -/

def Options.named (o : Options) : List (String × Value) :=
  let entry := fun (name : String) (v : Option Value) => (v.map fun v => (name, v)).toList
  entry "url" (o.url.map .text) ++ entry "host" (o.host.map .text) ++
    entry "username" (o.username.map .text) ++ entry "password" (o.password.map .text) ++
    entry "csrf" (o.token.map .text) ++ entry "user_agent" (o.agent.map .text) ++
    entry "retries" (o.retries.map .int) ++ entry "timeout" (o.timeout.map .float) ++
    entry "log_bodies" (o.logsBodies.map .bool) ++
    entry "credential_fallback" (o.fallback.map fun c => Connection.loginOf (some c))

/-- Arguments by name over the options of a file; null is nothing given. -/
def Options.under (o : Options) (given : Arguments) : Arguments :=
  { given with named := (given.named.filter fun g => !g.2.isNull) ++ o.named }

end TorrentRemote.Config
