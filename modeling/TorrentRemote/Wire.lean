import TorrentRemote.Failure

/-!
# Reading scalars

A member of an enumerated domain is read from its code, a time or a duration from a count of
seconds, and a flag from a boolean or an integer. Numbers that are written as booleans are refused.
-/

namespace TorrentRemote.Wire

def readMember (domain : Domain) (v : Value) : Except Failure Member :=
  let code? :=
    if domain = .encryption then v.text?.map Code.word else v.int?.map Code.number
  match code?.bind domain.member? with
  | some m => .ok m
  | none => .error (.about v (.enumerated (some domain) v))

/-- Reads seconds since the start of 1970; zero stands for no time. -/
def readTime (v : Value) : Except Failure (Option Moment) :=
  match v.int? with
  | none => .error (.about v (.scalar (some .time) v))
  | some n =>
    if n = 0 then .ok none
    else
      match Moment.ofSeconds? n with
      | some m => .ok (some m)
      | none => .error (.about v (.scalar (some .time) v))

def readDuration (v : Value) : Except Failure Duration :=
  match v.int?.bind Duration.ofSeconds? with
  | some d => .ok d
  | none => .error (.about v (.scalar (some .duration) v))

def readFlag (v : Value) : Except Failure Bool :=
  match v with
  | .bool b => .ok b
  | _ =>
    match v.int? with
    | some n => .ok (n ≠ 0)
    | none => .error (.about v (.scalar (some .flag) v))

end TorrentRemote.Wire
