import TorrentRemote.Config.Load
import TorrentRemote.Connection.Run
import TorrentRemote.Request.Named

/-!
# Clients

A client is a connection that can be closed and that has an operation for each request. The HTTP
session below it is closed along only if the client has opened it itself.
-/

namespace TorrentRemote

structure Client where
  settings : Connection.Settings
  ownsSession : Bool
  run : Connection.Run
  closings : Nat

namespace Client

def connect (given : Arguments) (ownsSession : Bool) (script : List Connection.Exchange) :
    Except Failure Client := do
  let (settings, state) ← Connection.start (← Connection.Options.ofArguments given)
  return ⟨settings, ownsSession, ⟨state, script, [], [], [], []⟩, 0⟩

/-- What a caller gives for a client, over the options of the files of a profile, and the log. -/
def configure (files : Files) (profile : Option String) (given : Arguments) :
    Except Failure Arguments × List Log.Record :=
  let (options, log) := Config.load files profile
  (options.map (·.under given), log)

def created (client : Client) : Log.Record :=
  Log.debug ("Created client for " ++ client.settings.url.plain)

def ready (client : Client) (cancelled : List Nat) : Client :=
  { client with run := { client.run with cancelled, history := [], log := [], overlapped := [] } }

def ask (client : Client) (asked : Connection.Asked) : Except Failure Value × Client :=
  let (result, run) := Connection.ask client.settings asked client.run
  (result, { client with run })

def perform (client : Client) (request : Request) (cancel : Option Nat) :
    Except Failure Value × Client :=
  let (result, run) := Connection.perform client.settings request cancel client.run
  (result, { client with run })

def close (client : Client) : Client :=
  if client.ownsSession then { client with closings := client.closings + 1 } else client

/-! ## Operations -/

def operations : List (String × String) := [
  ("torrent_start", "TorrentStartRequest"),
  ("torrent_start_now", "TorrentStartNowRequest"),
  ("torrent_stop", "TorrentStopRequest"),
  ("torrent_verify", "TorrentVerifyRequest"),
  ("torrent_reannounce", "TorrentReannounceRequest"),
  ("torrent_get", "TorrentGetRequest"),
  ("torrent_remove", "TorrentRemoveRequest"),
  ("torrent_set_location", "TorrentSetLocationRequest"),
  ("torrent_rename_path", "TorrentRenamePathRequest"),
  ("session_get", "SessionGetRequest"),
  ("session_stats", "SessionStatsRequest"),
  ("session_close", "SessionCloseRequest"),
  ("blocklist_update", "BlocklistUpdateRequest"),
  ("port_test", "PortTestRequest"),
  ("free_space", "FreeSpaceRequest"),
  ("queue_move_top", "QueueMoveTopRequest"),
  ("queue_move_up", "QueueMoveUpRequest"),
  ("queue_move_down", "QueueMoveDownRequest"),
  ("queue_move_bottom", "QueueMoveBottomRequest")]

def runners : List String := ["torrent_set", "torrent_add", "session_set"]

def aliases : List (String × String) := [("session_shutdown", "session_close")]

def property? (client : Client) (name : String) : Option Value :=
  match name with
  | "url" => some client.settings.url
  | "retries" => some client.settings.retries
  | "timeout" => some client.settings.timeout
  | "csrf" => some (client.run.state.token.getD .null)
  | _ => none

def title : String := "Client"

def bareTitle : String := "Transport"

/-- The request of an operation. The runners among the operations run what they are given, which has
to be a request. -/
def request (client : Client) (bare : Bool) (name : String) (a : Arguments) :
    Except Failure Request := do
  if let some v := client.property? name then throw (.notCallable v.kindPath)
  if bare then throw (.noOperation bareTitle name)
  let name := (aliases.lookup name).getD name
  let operation := title ++ "." ++ name
  if runners.contains name then
    a.checkNames operation ["request"]
    let given := (a.take ["request"]).1.headD .null
    throw (.noOperation given.kindPath "do")
  let some requestTitle := operations.lookup name | throw (.noOperation title name)
  a.checkNames operation (Request.argumentNames requestTitle)
  ((Request.build? requestTitle a).getD (.error (.noOperation title name)))

end Client

end TorrentRemote
