import TorrentRemote.Arguments
import TorrentRemote.Endpoint
import TorrentRemote.Envelope
import TorrentRemote.Log
import TorrentRemote.Value.Convert

/-!
# Connections

What a connection to the daemon is set up with and what it remembers between calls: the tags given
out, the session token and the credentials in use. The token guards the daemon against forged
requests; it comes with a refusal of the first one. Options are kept and handed on as they are
given, and looked into only where the connection itself needs them.
-/

namespace TorrentRemote.Connection

/-! ## Setting up -/

def version : String := "0.1.0"

def tokenHeader : String := "X-Transmission-Session-Id"

def defaultRetries : Nat := 3

def defaultTimeout : Nat := 10

def defaultAgent : String := "torrentrpc/" ++ version

/-- A login is what is presented to the daemon, as a rule a user name and a password. -/
def loginOf : Option Credentials → Value
  | none => .null
  | some c => .tuple [.text c.user, .text c.password]

/-- What a connection can be set up with. User name and password go before those in the address, and
the fallback login is for a daemon that refuses the first one. -/
structure Options where
  url : Value := .null
  host : Value := .null
  username : Value := .null
  password : Value := .null
  token : Value := .null
  retries : Value := .int defaultRetries
  timeout : Value := .int defaultTimeout
  agent : Value := .text defaultAgent
  fallback : Value := .null
  logsBodies : Value := .bool false

def optionNames : List String := [
  "url", "host", "username", "password", "csrf", "retries", "timeout", "user_agent",
  "credential_fallback", "session", "log_bodies"]

def Options.ofArguments (a : Arguments) : Except Failure Options := do
  a.checkNames "Transport.__init__" optionNames
  let usual : Options := {}
  return {
    url := a.get "url" usual.url
    host := a.get "host" usual.host
    username := a.get "username" usual.username
    password := a.get "password" usual.password
    token := a.get "csrf" usual.token
    retries := a.get "retries" usual.retries
    timeout := a.get "timeout" usual.timeout
    agent := a.get "user_agent" usual.agent
    fallback := a.get "credential_fallback" usual.fallback
    logsBodies := a.get "log_bodies" usual.logsBodies }

structure Settings where
  url : Value
  retries : Value
  timeout : Value
  agent : Value
  fallback : Value
  logsBodies : Bool

/-- What a call can change. The login is null where the daemon asks for none. -/
structure State where
  lastTag : Nat
  token : Option Value
  login : Value

def State.nextTag (st : State) : Nat := st.lastTag + 1

def nonempty? (v : Value) : Option Value :=
  if v.isTrue then some v else none

/-- The login of a user name and a password, of which one that is missing is empty, or else that of
the address. -/
def Options.login (o : Options) (credentials : Option Credentials) : Value :=
  if o.username.isNull ∧ o.password.isNull then loginOf credentials
  else
    .tuple [(nonempty? o.username).getD (.text ""), (nonempty? o.password).getD (.text "")]

/-- Retries are numbers, and not negative. A fraction is refused only when a call needs the
number. -/
def checkRetries (v : Value) : Except Failure Unit :=
  let negative? := v.quantity?.map fun
    | .whole n => decide (n < 0)
    | .binary x => x.less (Binary64.ofRank false 0)
  match negative? with
  | none => .error (.notOrdered v.kindPath)
  | some true => .error (.showing v (.negativeRetries v.plain))
  | some false => .ok ()

/-- Sets a connection up. The retries are looked at before the address, and an empty token counts as
none. -/
def start (o : Options) : Except Failure (Settings × State) := do
  checkRetries o.retries
  let (url, credentials) ← Endpoint.resolve o.url o.host
  return ({
      url
      retries := o.retries
      timeout := o.timeout
      agent := o.agent
      fallback := o.fallback
      logsBodies := o.logsBodies.isTrue },
    { lastTag := 0
      token := nonempty? o.token
      login := o.login credentials })

def Settings.retryCount (s : Settings) : Except Failure Nat :=
  match s.retries.index? with
  | some n => .ok n.toNat
  | none => .error (.notAnIndex s.retries.kindPath)

/-! ## What is sent and what comes back -/

structure Post where
  url : Value
  body : String
  headers : List (String × Value)
  login : Value
  timeout : Value

/-- A response and the text that the session makes of its body by its headers, which can fail. -/
structure HttpResponse where
  status : Int
  headers : List (String × String)
  body : List UInt8
  text : Except SessionFault String

/-- What becomes of a post: a response, a failure of the network, or a fault that the connection
lets through. -/
inductive Answer where
  | response (r : HttpResponse)
  | networkFailure (message : String)
  | broken (fault : SessionFault)

/-- The value of a header, whose name may be in any case. Of several the last one counts. -/
def HttpResponse.header? (r : HttpResponse) (name : String) : Option String :=
  let same := fun (other : String) => other.toList.map Char.toLower = name.toList.map Char.toLower
  (r.headers.reverse.find? fun h => same h.1).map Prod.snd

def HttpResponse.token? (r : HttpResponse) : Option String :=
  (r.header? tokenHeader).filter (!·.isEmpty)

def headers (s : Settings) (st : State) : List (String × Value) :=
  [("Content-Type", .text "application/json"), ("User-Agent", s.agent)] ++
    (st.token.map fun token => (tokenHeader, token)).toList

def post (s : Settings) (st : State) (body : String) : Post :=
  ⟨s.url, body, headers s st, st.login, s.timeout⟩

/-! ## Reacting to a response -/

def State.learnToken (st : State) (r : HttpResponse) : State × List Log.Record :=
  match r.token? with
  | none => (st, [])
  | some token =>
    ({ st with token := some (.text token) },
      if st.token.any (Value.text token).same then []
      else [Log.debug ("CSRF token updated: " ++ token)])

/-- Whether a refused post can be tried with another login: there has to be a fallback that it was
not sent with, which is in use from now on. -/
def State.switchLogin (s : Settings) (st : State) (refused : Value) :
    Bool × State × List Log.Record :=
  if s.fallback.isNull || refused.same s.fallback then (false, st, [])
  else if st.login.same s.fallback then (true, st, [])
  else
    (true, { st with login := s.fallback },
      [Log.debug "Unauthorized, switching to fallback credentials"])

/-- What a response does: whether the call may be tried again, and the state after it. A missing
token and a refused login are reasons to try again. -/
def State.react (s : Settings) (st : State) (used : Value) (r : HttpResponse) :
    Bool × State × List Log.Record :=
  let (st, learned) := st.learnToken r
  if r.status = 409 then (true, st, learned)
  else if r.status = 401 then
    let (again, st, switched) := st.switchLogin s used
    (again, st, learned ++ switched)
  else (false, st, learned)

inductive Attempt where
  | failed (e : Failure)
  | answered (r : HttpResponse) (again : Bool)

/-- What the answer to a post does. A call that was cancelled in the meantime takes no notice of a
response. -/
def State.receive (s : Settings) (st : State) (used : Value) (cancelled : Bool) :
    Answer → Attempt × State × List Log.Record
  | .networkFailure message =>
    (.failed (.client (.requestFailed ("Request failed: " ++ message) .null .null)), st, [])
  | .broken fault => (.failed (.session fault), st, [])
  | .response r =>
    if cancelled then (.failed (.client .cancelled), st, [])
    else
      let (again, st, records) := st.react s used r
      (.answered r again, st, records)

/-! ## The outcome of a call -/

/-- Where bodies are for the log, the last response has to have a text, whatever else it is. -/
def Settings.shown (s : Settings) (r : HttpResponse) : Except Failure HttpResponse :=
  if s.logsBodies then (r.text.map fun _ => r).mapError .session else .ok r

def accept (tag : Nat) (r : HttpResponse) : Except Failure Value :=
  if r.status = 401 then .error (.client .unauthorized)
  else if r.status ≠ 200 then
    .error (.client (.requestFailed ("Request failed: HTTP " ++ toString r.status) (.int r.status)
      .null))
  else do
    let envelope ← Response.decodeBytes r.body
    match envelope.tag with
    | some other =>
      if other ≠ tag then throw (.client (.mismatchedTag (.int tag) (.int other)))
    | none => pure ()
    if !envelope.isSuccess then
      throw (.client (.requestFailed ("Request failed: " ++ envelope.result) (.int r.status)
        (.text envelope.result)))
    return envelope.arguments

abbrev Reader := Value → Except Failure Value

/-- How a call ends: what was handed on to be read, and the result. -/
structure Ending where
  handed : Option Value
  result : Except Failure Value

def Ending.failed (e : Failure) : Ending := ⟨none, .error e⟩

def Ending.ofArguments (arguments : Value) : Option Reader → Ending
  | none => ⟨none, .ok .null⟩
  | some read => ⟨some arguments, read arguments⟩

def conclude (tag : Nat) (read : Option Reader) (r : HttpResponse) : Ending :=
  match accept tag r with
  | .error e => .failed e
  | .ok arguments => .ofArguments arguments read

def Ending.ofAttempts (tag : Nat) (read : Option Reader) : Except Failure HttpResponse → Ending
  | .error e => .failed e
  | .ok r => conclude tag read r

end TorrentRemote.Connection
