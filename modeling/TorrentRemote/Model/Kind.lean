import TorrentRemote.Value.Basic

/-!
# Models

A model says which fields a kind of answer has, under which names, and what each field holds.
-/

namespace TorrentRemote

/-- What a field holds. `content` is bytes written in base64, and `listOrEmpty` is a list that is
empty where the answer does not have it; other fields are then left open. -/
inductive Kind where
  | integer
  | number
  | text
  | content
  | flag
  | time
  | duration
  | member (domain : Domain)
  | any
  | listOf (kind : Kind)
  | listOrEmpty (kind : Kind)
  | record (model : String) (fields : List (Label × Kind))

def Kind.absent : Kind → Value
  | .listOrEmpty _ => .list []
  | _ => .null

structure Model where
  name : String
  fields : List (Label × Kind)

namespace Model

def kind (m : Model) : Kind :=
  .record m.name m.fields

def labels (m : Model) : List Label :=
  m.fields.map Prod.fst

def wireNames (m : Model) : List String :=
  m.labels.map Label.wire

end Model

end TorrentRemote
