import TorrentRemote.Failure

/-!
# Arguments

The arguments of an operation that is called by name: some in order, the others by their own names.
-/

namespace TorrentRemote

structure Arguments where
  ordered : List Value := []
  named : List (String × Value) := []

namespace Arguments

def get (a : Arguments) (name : String) (usual : Value) : Value :=
  (a.named.lookup name).getD usual

def pick (a : Arguments) (place : Nat) (name : String) (usual : Value) : Value :=
  (a.ordered[place]?).getD (a.get name usual)

def checkNames (a : Arguments) (operation : String) (known : List String) :
    Except Failure Unit :=
  match (a.named.map Prod.fst).find? fun name => !known.contains name with
  | some name => .error (.unknownArgument operation name)
  | none => .ok ()

/-- Takes the arguments that go before all others and may also be given by name. What is not given
at all is null. -/
def take (a : Arguments) : List String → List Value × List Value
  | [] => ([], a.ordered)
  | name :: names =>
    match a.named.lookup name with
    | some v =>
      let (taken, rest) := a.take names
      (v :: taken, rest)
    | none =>
      let (taken, rest) := ({ a with ordered := a.ordered.drop 1 } : Arguments).take names
      (a.ordered.headD .null :: taken, rest)

end Arguments

end TorrentRemote
