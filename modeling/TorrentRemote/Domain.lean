/-!
# Enumerated domains

The closed sets of values that the daemon uses for activity, priority, limit modes, tracker states
and peer encryption. On the wire the first four are small integers and the last is a word.
-/

namespace TorrentRemote

inductive Status where
  | stopped | checkWait | checking | downloadWait | downloading | seedWait | seeding
  deriving DecidableEq

inductive Priority where
  | low | normal | high
  deriving DecidableEq

inductive Mode where
  | global | single | unlimited
  deriving DecidableEq

inductive State where
  | inactive | waiting | queued | active
  deriving DecidableEq

inductive Encryption where
  | required | preferred | tolerated
  deriving DecidableEq

inductive Domain where
  | status | priority | mode | state | encryption
  deriving DecidableEq

inductive Member where
  | status (s : Status)
  | priority (p : Priority)
  | mode (m : Mode)
  | state (s : State)
  | encryption (e : Encryption)
  deriving DecidableEq

/-! ## Wire values -/

def Status.code : Status → Int
  | .stopped => 0
  | .checkWait => 1
  | .checking => 2
  | .downloadWait => 3
  | .downloading => 4
  | .seedWait => 5
  | .seeding => 6

def Priority.code : Priority → Int
  | .low => -1
  | .normal => 0
  | .high => 1

def Mode.code : Mode → Int
  | .global => 0
  | .single => 1
  | .unlimited => 2

def State.code : State → Int
  | .inactive => 0
  | .waiting => 1
  | .queued => 2
  | .active => 3

def Encryption.word : Encryption → String
  | .required => "required"
  | .preferred => "preferred"
  | .tolerated => "tolerated"

inductive Code where
  | number (n : Int)
  | word (s : String)
  deriving DecidableEq

namespace Member

def domain : Member → Domain
  | .status _ => .status
  | .priority _ => .priority
  | .mode _ => .mode
  | .state _ => .state
  | .encryption _ => .encryption

def code : Member → Code
  | .status s => .number s.code
  | .priority p => .number p.code
  | .mode m => .number m.code
  | .state s => .number s.code
  | .encryption e => .word e.word

def name : Member → String
  | .status .stopped => "STOPPED"
  | .status .checkWait => "CHECK_WAIT"
  | .status .checking => "CHECKING"
  | .status .downloadWait => "DOWNLOAD_WAIT"
  | .status .downloading => "DOWNLOADING"
  | .status .seedWait => "SEED_WAIT"
  | .status .seeding => "SEEDING"
  | .priority .low => "LOW"
  | .priority .normal => "NORMAL"
  | .priority .high => "HIGH"
  | .mode .global => "GLOBAL"
  | .mode .single => "SINGLE"
  | .mode .unlimited => "UNLIMITED"
  | .state .inactive => "INACTIVE"
  | .state .waiting => "WAITING"
  | .state .queued => "QUEUED"
  | .state .active => "ACTIVE"
  | .encryption .required => "REQUIRED"
  | .encryption .preferred => "PREFERRED"
  | .encryption .tolerated => "TOLERATED"

end Member

namespace Domain

def title : Domain → String
  | .status => "Status"
  | .priority => "Priority"
  | .mode => "Mode"
  | .state => "State"
  | .encryption => "Encryption"

def members : Domain → List Member
  | .status =>
    [.status .stopped, .status .checkWait, .status .checking, .status .downloadWait,
      .status .downloading, .status .seedWait, .status .seeding]
  | .priority => [.priority .low, .priority .normal, .priority .high]
  | .mode => [.mode .global, .mode .single, .mode .unlimited]
  | .state => [.state .inactive, .state .waiting, .state .queued, .state .active]
  | .encryption => [.encryption .required, .encryption .preferred, .encryption .tolerated]

def member? (d : Domain) (code : Code) : Option Member :=
  d.members.find? fun m => m.code = code

end Domain

def Member.fullName (m : Member) : String :=
  m.domain.title ++ "." ++ m.name

end TorrentRemote
