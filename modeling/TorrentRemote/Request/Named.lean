import TorrentRemote.Arguments
import TorrentRemote.Request.Basic

/-!
# Requests by their titles

A request can be made from its title and arguments, and its parts can be set one after another by
their names.
-/

namespace TorrentRemote.Request

/-- The names by which arguments of a request can be given. Changes have their settings instead. -/
def argumentNames (title : String) : List String :=
  match title with
  | "TorrentGetRequest" => ["fields"]
  | "TorrentRemoveRequest" => ["delete_local_data"]
  | "TorrentSetLocationRequest" => ["location", "move"]
  | "TorrentRenamePathRequest" => ["path", "name"]
  | "FreeSpaceRequest" => ["path"]
  | _ => []

def fieldsOf (a : Arguments) : Except Failure (Option (List Value)) :=
  match a.get "fields" .null with
  | .null => .ok none
  | v => v.toItems.map some

/-- A request with a title, if there is one. Names of arguments that it does not have are not looked
at. -/
def build? (title : String) (a : Arguments) : Option (Except Failure Request) :=
  match title with
  | "Request" => some (.ok .blank)
  | "ChangeSetRequest" => some (.error .withoutSettings)
  | "TorrentSetRequest" => some ((ChangeSet.make .torrent a.ordered a.named).map .change)
  | "SessionSetRequest" => some ((ChangeSet.make .session [] a.named).map .change)
  | "TorrentAddRequest" => some ((ChangeSet.make .newTorrent [] a.named).map .change)
  | "TorrentGetRequest" => some ((fieldsOf a).map (.getTorrents a.ordered))
  | "TorrentRemoveRequest" =>
    some (.ok (.removeTorrents a.ordered (a.get "delete_local_data" (.bool false))))
  | "TorrentSetLocationRequest" =>
    let (taken, ids) := a.take ["location"]
    some (.ok (.moveTorrents ids (taken.headD .null) (a.get "move" (.bool false))))
  | "TorrentRenamePathRequest" =>
    let (taken, ids) := a.take ["path", "name"]
    some (.ok (.renamePath ids (taken.getD 0 .null) (taken.getD 1 .null)))
  | "SessionGetRequest" => some (.ok .getSession)
  | "SessionStatsRequest" => some (.ok .getStats)
  | "SessionCloseRequest" | "SessionShutdownRequest" => some (.ok .closeSession)
  | "BlocklistUpdateRequest" => some (.ok .updateBlocklist)
  | "PortTestRequest" => some (.ok .testPort)
  | "FreeSpaceRequest" => some (.ok (.freeSpace ((a.take ["path"]).1.headD .null)))
  | _ => (Action.all.find? fun action => action.title = title).map fun action =>
    .ok (.act action a.ordered)

/-- What takes the arguments of a request, if it knows them by their names. -/
def initializer? (title : String) : Option String :=
  if Action.all.any fun action => action.title = title then
    some (Action.nothing.title ++ ".__init__")
  else if (argumentNames title).isEmpty then none
  else some (title ++ ".__init__")

def ofTitle? (title : String) (a : Arguments) : Option (Except Failure Request) :=
  (build? title a).map fun made => do
    if let some operation := initializer? title then
      a.checkNames operation (argumentNames title)
    made

def call (r : Request) (operation : String) (given : List Value) : Except Failure Request :=
  let start := operationName ""
  if operation.startsWith start then r.set (operation.drop start.length).toString given
  else .error (.noOperation r.title operation)

def callAll (r : Request) : List (String × List Value) → Except Failure Request
  | [] => .ok r
  | (operation, given) :: rest => (r.call operation given).bind fun r => r.callAll rest

end TorrentRemote.Request
