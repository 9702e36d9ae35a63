import TorrentRemote.Value.Quoted

/-!
# Errors of the client

Why the client refuses a value or a call fails. The kinds form a tree: every kind but the topmost is
a special case of another.
-/

namespace TorrentRemote

inductive ScalarKind where
  | time | duration | flag
  deriving DecidableEq

inductive ErrorKind where
  | any
  | identifier
  | enumerated (domain : Option Domain)
  | scalar (kind : Option ScalarKind)
  | arguments
  | mismatchedTag
  | singleTorrent
  | requestFailed
  | unauthorized
  | invalidResponse
  | cancelled
  deriving DecidableEq

namespace ErrorKind

def parent? : ErrorKind → Option ErrorKind
  | .any => none
  | .enumerated (some _) => some (.enumerated none)
  | .scalar (some _) => some (.scalar none)
  | .unauthorized => some .requestFailed
  | .invalidResponse => some .requestFailed
  | _ => some .any

def ancestors (kind : ErrorKind) : List ErrorKind :=
  match kind.parent? with
  | none => [kind]
  | some .any => [kind, .any]
  | some parent => [kind, parent, .any]

end ErrorKind

/-- An error with what it reports. A failed request tells the final status and the daemon's result
where it has them. -/
inductive ClientError where
  | general (message : String)
  | identifier (value : Value)
  | enumerated (domain : Option Domain) (value : Value)
  | scalar (kind : Option ScalarKind) (value : Value)
  | arguments (message : String)
  | mismatchedTag (request response : Value)
  | singleTorrent (count : Value)
  | requestFailed (message : String) (status result : Value)
  | unauthorized
  | invalidResponse (message : String) (status result : Value)
  | cancelled

namespace ClientError

def kind : ClientError → ErrorKind
  | .general _ => .any
  | .identifier _ => .identifier
  | .enumerated domain _ => .enumerated domain
  | .scalar kind _ => .scalar kind
  | .arguments _ => .arguments
  | .mismatchedTag _ _ => .mismatchedTag
  | .singleTorrent _ => .singleTorrent
  | .requestFailed _ _ _ => .requestFailed
  | .unauthorized => .unauthorized
  | .invalidResponse _ _ _ => .invalidResponse
  | .cancelled => .cancelled

def badResponse (message : String) : ClientError :=
  .invalidResponse message .null .null

def domainNoun : Option Domain → String
  | none => "enum"
  | some .status => "status"
  | some .priority => "priority"
  | some .mode => "mode"
  | some .state => "state"
  | some .encryption => "encryption"

def scalarNoun : Option ScalarKind → String
  | none => "scalar"
  | some .time => "time"
  | some .duration => "duration"
  | some .flag => "bool"

def message : ClientError → String
  | .general message => message
  | .identifier value => "Invalid torrent identifier: " ++ value.quoted
  | .enumerated domain value => "Invalid " ++ domainNoun domain ++ ": " ++ value.quoted
  | .scalar kind value => "Invalid " ++ scalarNoun kind ++ ": " ++ value.quoted
  | .arguments message => message
  | .mismatchedTag request response =>
    "Mismatched request and response tags: " ++ request.plain ++ " != " ++ response.plain
  | .singleTorrent count =>
    "torrent-rename-path can only be used with one torrent identifier, got " ++ count.plain
  | .requestFailed message _ _ => message
  | .unauthorized => "Unauthorized user"
  | .invalidResponse message _ _ => message
  | .cancelled => "Request cancelled"

end ClientError

end TorrentRemote
