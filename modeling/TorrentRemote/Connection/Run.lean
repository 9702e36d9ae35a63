import TorrentRemote.Connection.Basic
import TorrentRemote.Request.Basic

/-!
# Calls on a connection

A call takes a tag, encodes its body once, and posts it until an answer ends it or its attempts are
used up. While a post is in flight other calls may run on the same connection and events may be set that
cancel calls; what happens in flight is given by a script of exchanges, one for each post.
-/

namespace TorrentRemote.Connection

structure Asked where
  method : String
  arguments : Value
  read : Option Reader
  cancel : Option Nat

def Asked.cancellable (asked : Asked) : Bool := asked.cancel.isSome

def Asked.isCancelled (asked : Asked) (events : List Nat) : Bool :=
  asked.cancel.any events.contains

/-- What happens to a post: first other calls run from start to end, then some events are set, and
then the answer comes, which may depend on the tag of the post. -/
structure Exchange where
  overlaps : List Asked
  cancels : List Nat
  answer : (tag : Nat) → Answer

def Exchange.idle : Exchange where
  overlaps := []
  cancels := []
  answer := fun tag =>
    let body :=
      "\x7b\"result\":\"success\",\"arguments\":\x7b\x7d,\"tag\":" ++ toString tag ++ "\x7d"
    .response ⟨200, [], Text.Utf8.encode body, .ok body⟩

def Asked.body (asked : Asked) (tag : Nat) : Except Failure String :=
  Envelope.encode asked.method asked.arguments (.int tag)

def Asked.prepare (asked : Asked) (s : Settings) (tag : Nat) : Except Failure (String × Nat) := do
  let body ← asked.body tag
  return (body, ← s.retryCount)

/-- What is seen of the calls on a connection: a call takes its tag, a post goes out, its answer
comes back and is discarded or not, and the call ends. -/
inductive Event where
  | entered (tag : Nat) (asked : Asked)
  | sent (tag : Nat) (post : Post)
  | answered (tag : Nat) (post : Post) (answer : Answer) (discarded : Bool)
  | ended (tag : Nat) (ending : Ending)

def Event.tag : Event → Nat
  | .entered tag _ => tag
  | .sent tag _ => tag
  | .answered tag _ _ _ => tag
  | .ended tag _ => tag

def Event.post? : Event → Option Post
  | .sent _ post => some post
  | _ => none

/-- A connection at work: its state, the exchanges to come, the events that are set, and what has
been seen so far, the latest first. -/
structure Run where
  state : State
  script : List Exchange
  cancelled : List Nat
  history : List Event
  log : List Log.Record
  overlapped : List (Except Failure Value)

def Run.posts (run : Run) : List Post :=
  run.history.reverse.filterMap Event.post?

def Run.see (run : Run) (event : Event) : Run :=
  { run with history := event :: run.history }

def Run.note (run : Run) (records : List Log.Record) : Run :=
  { run with log := run.log ++ records }

def Run.next (run : Run) : Exchange × Run :=
  match run.script with
  | [] => (.idle, run)
  | exchange :: rest => (exchange, { run with script := rest })

abbrev Overlap := Asked → Run → Run

def Run.wait (run : Run) (overlap : Overlap) (exchange : Exchange) : Run :=
  let run := exchange.overlaps.foldl (fun run other => overlap other run) run
  { run with cancelled := run.cancelled ++ exchange.cancels }

structure Call where
  asked : Asked
  tag : Nat
  body : String

def Call.isCancelled (call : Call) (run : Run) : Bool :=
  call.asked.isCancelled run.cancelled

def Run.send (run : Run) (s : Settings) (call : Call) (number : Nat) : Run :=
  let sending :=
    "Sending " ++ call.asked.method ++ " (tag " ++ toString call.tag ++ ", attempt " ++
      toString number ++ ")"
  (run.note [Log.debug sending]).see (.sent call.tag (post s run.state call.body))

def Run.receive (run : Run) (s : Settings) (call : Call) (sent : Post) (answer : Answer) :
    Attempt × Run :=
  let cancelled := call.isCancelled run
  let (result, state, records) := run.state.receive s sent.login cancelled answer
  (result, ({ run with state }.see (.answered call.tag sent answer cancelled)).note records)

def attempt (s : Settings) (overlap : Overlap) (call : Call) (number : Nat) (run : Run) :
    Attempt × Run :=
  if call.isCancelled run then (.failed (.client .cancelled), run)
  else
    let sent := post s run.state call.body
    let (exchange, run) := (run.send s call number).next
    (run.wait overlap exchange).receive s call sent (exchange.answer call.tag)

/-- Makes attempts until one ends the call; `left` is how many may follow this one. -/
def attempts (s : Settings) (overlap : Overlap) (call : Call) :
    (left number : Nat) → Run → Except Failure HttpResponse × Run
  | left, number, run =>
    match attempt s overlap call number run with
    | (.failed e, run) => (.error e, run)
    | (.answered r again, run) =>
      match left with
      | 0 => (.ok r, run)
      | left + 1 => if again then attempts s overlap call left (number + 1) run else (.ok r, run)

def Run.enter (run : Run) (asked : Asked) : Run :=
  let tag := run.state.nextTag
  { run with state := { run.state with lastTag := tag } }.see (.entered tag asked)

def Run.close (run : Run) (tag : Nat) (ending : Ending) : Except Failure Value × Run :=
  (ending.result, run.see (.ended tag ending))

def Run.noteBody (run : Run) (s : Settings) (line : Except Failure String) : Run :=
  match line with
  | .error _ => run
  | .ok line => if s.logsBodies then run.note [Log.debug line] else run

def Run.start (run : Run) (s : Settings) (asked : Asked) : Run :=
  (run.enter asked).noteBody s ((asked.body run.state.nextTag).map ("Request body: " ++ ·))

def Run.finish (run : Run) (s : Settings) (asked : Asked) (tag : Nat)
    (result : Except Failure HttpResponse) : Except Failure Value × Run :=
  let line := do
    let r ← result
    return "Response body (" ++ toString r.status ++ "): " ++ (← r.text.mapError .session)
  (run.noteBody s line).close tag (.ofAttempts tag asked.read (result.bind s.shown))

def callWith (s : Settings) (overlap : Overlap) (asked : Asked) (run : Run) :
    Except Failure Value × Run :=
  let tag := run.state.nextTag
  let run := run.start s asked
  match asked.prepare s tag with
  | .error e => run.close tag (.failed e)
  | .ok (body, retries) =>
    let (result, run) := attempts s overlap ⟨asked, tag, body⟩ retries 1 run
    run.finish s asked tag result

def overlapping (call : Asked → Run → Except Failure Value × Run) : Overlap := fun other run =>
  let (result, run) := call other run
  { run with overlapped := run.overlapped ++ [result] }

def call (s : Settings) : (depth : Nat) → Asked → Run → Except Failure Value × Run
  | 0 => callWith s fun _ run => run
  | depth + 1 => callWith s (overlapping (call s depth))

/-- Runs a call. Each overlapping one takes an exchange, so the script bounds how deep they go. -/
def ask (s : Settings) (asked : Asked) (run : Run) : Except Failure Value × Run :=
  call s (run.script.length + 1) asked run

/-- Runs a request. Arguments that are refused and requests with nothing to send take no tag. -/
def perform (s : Settings) (request : Request) (cancel : Option Nat) (run : Run) :
    Except Failure Value × Run :=
  if request.isIdle then (.ok .null, run)
  else
    match request.arguments with
    | .error e => (.error e, run)
    | .ok arguments => ask s ⟨request.method, arguments, some request.readAnswer, cancel⟩ run

end TorrentRemote.Connection
