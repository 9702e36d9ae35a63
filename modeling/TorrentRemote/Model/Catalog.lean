import TorrentRemote.Model.Session
import TorrentRemote.Model.Torrent

/-!
# The models and what is asked of their instances
-/

namespace TorrentRemote

namespace Model

def all : List Model := [
  torrentFile, fileStat, peer, peersFrom, tracker, trackerStat, torrent, torrentGetResponse,
  torrentAddResponse, units, session, stats, sessionStats]

def named? (name : String) : Option Model :=
  all.find? fun m => m.name = name

def instantiate (m : Model) (values : List (String × Value)) : Value :=
  .record m.name <| m.fields.map fun (label, kind) =>
    (label, (values.lookup label.name).getD kind.absent)

end Model

namespace Value

def field? (name : String) : Value → Option Value
  | .record _ fields => (fields.find? fun f => f.1.name = name).map Prod.snd
  | _ => none

def shortHash (torrent : Value) : String :=
  match (torrent.field? "hash_string").bind Value.text? with
  | some s => if s.length < 7 then "" else String.ofList (s.toList.take 7)
  | none => ""

def addedTorrent (answer : Value) : Value :=
  match answer.field? "torrent_added" with
  | some (.record model fields) => .record model fields
  | _ => (answer.field? "torrent_duplicate").getD .null

def isDuplicate (answer : Value) : Bool :=
  !((answer.field? "torrent_duplicate").getD .null).isNull

end Value

end TorrentRemote
