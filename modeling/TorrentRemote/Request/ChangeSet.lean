import TorrentRemote.Identifier
import TorrentRemote.Request.Setting

/-!
# Change sets

A change set keeps a value for each setting that its request has, null where nothing is set, and
sends only the settings that hold a value.
-/

namespace TorrentRemote

inductive ChangeKind where
  | torrent
  | session
  | newTorrent
  deriving DecidableEq

namespace ChangeKind

def settings : ChangeKind → List Setting
  | .torrent => Setting.ofTorrent
  | .session => Setting.ofSession
  | .newTorrent => Setting.ofNewTorrent

def method : ChangeKind → String
  | .torrent => "torrent-set"
  | .session => "session-set"
  | .newTorrent => "torrent-add"

def title : ChangeKind → String
  | .torrent => "TorrentSetRequest"
  | .session => "SessionSetRequest"
  | .newTorrent => "TorrentAddRequest"

end ChangeKind

/-- The values stand in the order of the kind's settings. Only changes of torrents have
identifiers. -/
structure ChangeSet where
  kind : ChangeKind
  ids : List Value
  values : List (Label × Value)

namespace ChangeSet

def empty (kind : ChangeKind) : ChangeSet :=
  ⟨kind, [], kind.settings.map fun s => (s.label, .null)⟩

def put (name : String) (v : Value) (values : List (Label × Value)) : List (Label × Value) :=
  values.map fun (label, old) => (label, if label.name = name then v else old)

def set (c : ChangeSet) (name : String) (v : Value) : ChangeSet :=
  { c with values := put name v c.values }

def setting? (c : ChangeSet) (name : String) : Option Setting :=
  c.kind.settings.find? fun s => s.label.name = name

/-- A change set with values as they are given, none of which may be for a setting that its kind
does not have. -/
def make (kind : ChangeKind) (ids : List Value) (given : List (String × Value)) :
    Except Failure ChangeSet :=
  let names := kind.settings.map fun s => s.label.name
  match (given.map Prod.fst).filter fun name => !names.contains name with
  | [] => .ok (given.foldl (fun c (name, v) => c.set name v) { empty kind with ids })
  | unexpected =>
    .error (.unexpectedSettings kind.title (unexpected.mergeSort fun a b => decide (a ≤ b)))

/-- Sets a setting to the values given, in the form that the setting keeps. Names that are no
setting change nothing. -/
def write (c : ChangeSet) (name : String) (given : List Value) : Except Failure ChangeSet :=
  match c.setting? name with
  | none => .ok c
  | some s => (s.intake.take given).map (c.set name)

def withIds (c : ChangeSet) (ids : List Value) : Except Failure ChangeSet :=
  match c.kind with
  | .torrent => .ok { c with ids }
  | kind => .error (.withoutIdentifiers kind.method)

/-! ## Cookies -/

def cookieText (pairs : List (Value × Value)) : String :=
  "; ".intercalate (pairs.map fun (k, v) => k.plain ++ "=" ++ v.plain)

def pairUp? : List Value → Option (List (Value × Value))
  | [] => some []
  | k :: v :: rest => (pairUp? rest).map ((k, v) :: ·)
  | [_] => none

def withCookies (c : ChangeSet) (pairs : List (Value × Value)) : Except Failure ChangeSet :=
  if Value.entriesHaveText pairs then .ok (c.set "cookies" (.text (cookieText pairs)))
  else .error .integerTooLong

def withCookieList (c : ChangeSet) (given : List Value) : Except Failure ChangeSet :=
  match pairUp? given with
  | some pairs => c.withCookies pairs
  | none => .error .oddCookies

def withCookieMap (c : ChangeSet) (cookies : Value) : Except Failure ChangeSet :=
  match cookies with
  | .mapping entries => c.withCookies entries
  | v => .error (.noOperation v.kindPath "items")

/-! ## What is sent -/

def changes (c : ChangeSet) : List (Label × Value) :=
  c.values.filter fun change => !change.2.isNull

def changedNames (c : ChangeSet) : List String :=
  c.changes.map fun change => change.1.name

def arguments (c : ChangeSet) : Except Failure Value := do
  let changes ← (Wire.writeFields c.values).mapError .writing
  match c.kind with
  | .torrent =>
    let ids ← Identifier.checkAll c.ids
    return .mapping (changes ++ (ids.map fun ids => (.text "ids", .list ids)).toList)
  | _ => return .mapping changes

/-! ## Text and sameness -/

def quoted (c : ChangeSet) : Except Failure String :=
  let ids := if c.kind = .torrent then [Value.tuple c.ids] else []
  if Value.haveText ids && Value.fieldsHaveText c.values then
    let parts := ids.map ("ids=" ++ ·.quoted) ++ Value.quotedFields c.values
    .ok (c.kind.title ++ "(" ++ ", ".intercalate parts ++ ")")
  else .error .integerTooLong

def same (c d : ChangeSet) : Bool :=
  c.kind = d.kind && Value.sameAll c.ids d.ids && Value.sameFields c.values d.values

end ChangeSet

end TorrentRemote
