import TorrentRemote.Model.Reader
import TorrentRemote.Model.Session
import TorrentRemote.Model.Torrent
import TorrentRemote.Request.ChangeSet

/-!
# Requests

What the daemon can be asked for: the method and arguments that are sent, and how the answer's
arguments are read.
-/

namespace TorrentRemote

/-- What is done to torrents that are only named. `nothing` has no method and cannot be sent. -/
inductive Action where
  | nothing
  | start | startNow | stop | verify | reannounce | moveTop | moveUp | moveDown | moveBottom
  deriving DecidableEq

namespace Action

def all : List Action := [
  .nothing, .start, .startNow, .stop, .verify, .reannounce, .moveTop, .moveUp, .moveDown,
  .moveBottom]

def method : Action → String
  | .nothing => ""
  | .start => "torrent-start"
  | .startNow => "torrent-start-now"
  | .stop => "torrent-stop"
  | .verify => "torrent-verify"
  | .reannounce => "torrent-reannounce"
  | .moveTop => "queue-move-top"
  | .moveUp => "queue-move-up"
  | .moveDown => "queue-move-down"
  | .moveBottom => "queue-move-bottom"

def title : Action → String
  | .nothing => "IdsRequest"
  | .start => "TorrentStartRequest"
  | .startNow => "TorrentStartNowRequest"
  | .stop => "TorrentStopRequest"
  | .verify => "TorrentVerifyRequest"
  | .reannounce => "TorrentReannounceRequest"
  | .moveTop => "QueueMoveTopRequest"
  | .moveUp => "QueueMoveUpRequest"
  | .moveDown => "QueueMoveDownRequest"
  | .moveBottom => "QueueMoveBottomRequest"

end Action

/-- `blank` has no method and cannot be sent. Without fields, a request for torrents asks for all of
them; the other arguments are sent as they are given. -/
inductive Request where
  | blank
  | act (action : Action) (ids : List Value)
  | getTorrents (ids : List Value) (fields : Option (List Value))
  | removeTorrents (ids : List Value) (deleteData : Value)
  | moveTorrents (ids : List Value) (location moveData : Value)
  | renamePath (ids : List Value) (path name : Value)
  | change (set : ChangeSet)
  | getSession
  | getStats
  | closeSession
  | updateBlocklist
  | testPort
  | freeSpace (path : Value)

namespace Request

def title : Request → String
  | .blank => "Request"
  | .act action _ => action.title
  | .getTorrents _ _ => "TorrentGetRequest"
  | .removeTorrents _ _ => "TorrentRemoveRequest"
  | .moveTorrents _ _ _ => "TorrentSetLocationRequest"
  | .renamePath _ _ _ => "TorrentRenamePathRequest"
  | .change set => set.kind.title
  | .getSession => "SessionGetRequest"
  | .getStats => "SessionStatsRequest"
  | .closeSession => "SessionCloseRequest"
  | .updateBlocklist => "BlocklistUpdateRequest"
  | .testPort => "PortTestRequest"
  | .freeSpace _ => "FreeSpaceRequest"

def method : Request → String
  | .blank => ""
  | .act action _ => action.method
  | .getTorrents _ _ => "torrent-get"
  | .removeTorrents _ _ => "torrent-remove"
  | .moveTorrents _ _ _ => "torrent-set-location"
  | .renamePath _ _ _ => "torrent-rename-path"
  | .change set => set.kind.method
  | .getSession => "session-get"
  | .getStats => "session-stats"
  | .closeSession => "session-close"
  | .updateBlocklist => "blocklist-update"
  | .testPort => "port-test"
  | .freeSpace _ => "free-space"

/-! ## Arguments -/

def allFields : List Value :=
  Model.torrent.wireNames.map .text

def withIds (ids : List Value) (more : List (String × Value)) : Except Failure Value := do
  let checked ← Identifier.checkAll ids
  return Value.ofFields ((checked.map fun ids => ("ids", .list ids)).toList ++ more)

/-- What is sent as arguments. A path is renamed in exactly one torrent. -/
def arguments : Request → Except Failure Value
  | .act _ ids => withIds ids []
  | .getTorrents ids fields => withIds ids [("fields", .list (fields.getD allFields))]
  | .removeTorrents ids deleteData => withIds ids [("delete-local-data", deleteData)]
  | .moveTorrents ids location moveData =>
    withIds ids [("location", location), ("move", moveData)]
  | .renamePath ids path name =>
    if ids.length = 1 then withIds ids [("path", path), ("name", name)]
    else .error (.client (.singleTorrent (.int ids.length)))
  | .change set => set.arguments
  | .freeSpace path => .ok (Value.ofFields [("path", path)])
  | _ => .ok (.mapping [])

/-- Whether there is nothing to send: changes of a torrent or a session without any change. -/
def isIdle : Request → Bool
  | .change set => set.kind ≠ .newTorrent && set.changes.isEmpty
  | _ => false

/-! ## Answers -/

def answerValue (key : String) (arguments : Value) : Except Failure Value :=
  let missing := .error (.client (.badResponse ("Missing response argument: " ++ key)))
  match arguments with
  | .mapping entries => ((Value.lookup? key entries).map .ok).getD missing
  | _ => missing

def readAnswer (r : Request) (arguments : Value) : Except Failure Value :=
  match r with
  | .getTorrents _ _ => Model.torrentGetResponse.read arguments
  | .change set =>
    if set.kind = .newTorrent then Model.torrentAddResponse.read arguments else .ok .null
  | .getSession => Model.session.read arguments
  | .getStats => Model.sessionStats.read arguments
  | .updateBlocklist => do return .int (← (← answerValue "blocklist-size" arguments).toInteger)
  | .testPort => do return .bool (← answerValue "port-is-open" arguments).isTrue
  | .freeSpace _ => do return .int (← (← answerValue "size-bytes" arguments).toInteger)
  | _ => .ok .null

/-! ## Changing a request -/

def operationName (part : String) : String := "with_" ++ part

/-- Sets the part with a name to the values given: identifiers, cookies and settings of change sets,
further fields to ask for, and whether the data of removed torrents is deleted. -/
def set (r : Request) (part : String) (given : List Value) : Except Failure Request :=
  let missing := .error (.noOperation r.title (operationName part))
  match r with
  | .change c =>
    if part = "ids" then (c.withIds given).map .change
    else if part = "cookies_list" ∧ c.kind = .newTorrent then (c.withCookieList given).map .change
    else if part = "cookies_map" ∧ c.kind = .newTorrent then
      (c.withCookieMap (given.headD .null)).map .change
    else if (c.setting? part).isSome then (c.write part given).map .change
    else missing
  | .getTorrents ids fields =>
    if part = "fields" then .ok (.getTorrents ids (some (fields.getD [] ++ given))) else missing
  | .removeTorrents ids _ =>
    if part = "delete_local_data" then .ok (.removeTorrents ids (given.headD .null)) else missing
  | _ => missing

/-! ## Text and sameness -/

def quoted? (r : Request) : Option (Except Failure String) :=
  match r with
  | .act _ ids | .getTorrents ids _ | .removeTorrents ids _ | .moveTorrents ids _ _
  | .renamePath ids _ _ => some ((Value.tuple ids).toText.map (r.title ++ ·))
  | .change set => some set.quoted
  | _ => none

def sameFields : Option (List Value) → Option (List Value) → Bool
  | none, none => true
  | some fields, some others => Value.sameAll fields others
  | _, _ => false

/-- Requests of one kind are the same when their identifiers are, for torrents also the fields asked
for; changes are the same in all settings. Requests that have neither are the same as no other. -/
def same : Request → Request → Bool
  | .act action ids, .act other others => action = other && Value.sameAll ids others
  | .getTorrents ids fields, .getTorrents others otherFields =>
    Value.sameAll ids others && sameFields fields otherFields
  | .removeTorrents ids _, .removeTorrents others _ => Value.sameAll ids others
  | .moveTorrents ids _ _, .moveTorrents others _ _ => Value.sameAll ids others
  | .renamePath ids _ _, .renamePath others _ _ => Value.sameAll ids others
  | .change set, .change other => set.same other
  | _, _ => false

end Request

end TorrentRemote
