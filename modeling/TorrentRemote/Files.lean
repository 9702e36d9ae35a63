import TorrentRemote.Text.Quoted
import TorrentRemote.Text.Utf8

/-!
# Files

A tree of files and directories, what a path leads to in it, and how files are made. A path is
followed step by step, so that each error names what stands in the way. Paths that do not start at a
slash start at the home directory of the user.
-/

namespace TorrentRemote

inductive Node where
  | file (content : List UInt8)
  | directory
  deriving DecidableEq

/-- The files by their places; the directories on the way to them and to the home directory exist
too. A place is given by the steps down to it. -/
structure Files where
  home : String
  nodes : List (List String × Node)
  homes : List (String × String) := []

inductive PathProblem where
  | missing
  | exists
  | notDirectory
  | isDirectory
  | nameTooLong
  deriving DecidableEq

structure FileError where
  problem : PathProblem
  path : String
  deriving DecidableEq

def PathProblem.message : PathProblem → String
  | .missing => "[Errno 2] No such file or directory"
  | .exists => "[Errno 17] File exists"
  | .notDirectory => "[Errno 20] Not a directory"
  | .isDirectory => "[Errno 21] Is a directory"
  | .nameTooLong => "[Errno 36] File name too long"

def FileError.message (e : FileError) : String :=
  e.problem.message ++ ": " ++ Text.quoted e.path

namespace Files

/-! ## Paths -/

def nameLimit : Nat := 255

def pathLimit : Nat := 4095

def upward : String := ".."

/-- Takes a step from a place whose last step is given first. There is nothing above the top. -/
def step (place : List String) (name : String) : List String :=
  if name = upward then place.tail else name :: place

def parts (path : String) : List String :=
  (path.toList.splitOn '/').map String.ofList

/-- The steps of a path, the empty ones and those that stay in place left out. -/
def steps (path : String) : List String :=
  (parts path).filter fun step => !step.isEmpty && step ≠ "."

def join (directory path : String) : String :=
  "/".intercalate (directory :: steps path)

def settle (steps : List String) : List String :=
  (steps.foldl step []).reverse

def placeOf (files : Files) (below : List String) : List String :=
  settle (steps files.home ++ below)

def pathOf (files : Files) (below : List String) : String :=
  "/".intercalate (files.home :: below)

/-! ## Looking -/

def node? (files : Files) (place : List String) : Option Node :=
  match files.nodes.lookup place with
  | some node => some node
  | none =>
    if place.isPrefixOf (files.placeOf []) || files.nodes.any fun n => place.isPrefixOf n.1 then
      some .directory
    else none

/-- Follows steps from a directory, whose place is given last step first. -/
def follow (files : Files) (place : List String) : List String → Except PathProblem Node
  | [] => .ok .directory
  | name :: rest =>
    if name.isEmpty ∨ name = "." then follow files place rest
    else if name.utf8ByteSize > nameLimit then .error .nameTooLong
    else
      let next := step place name
      match files.node? next.reverse with
      | none => .error .missing
      | some .directory => follow files next rest
      | some node => if rest.isEmpty then .ok node else .error .notDirectory

/-- What a path leads to. Names hold no zero character. -/
def look (files : Files) (path : String) : Except PathProblem Node :=
  if path.isEmpty ∨ '\x00' ∈ path.toList then .error .missing
  else if path.utf8ByteSize > pathLimit then .error .nameTooLong
  else
    files.follow (if path.toList.head? = some '/' then [] else (files.placeOf []).reverse)
      (parts path)

/-- Whether a path leads anywhere; a name that is too long is an error. -/
def exists? (files : Files) (path : String) : Except FileError Bool :=
  match files.look path with
  | .ok _ => .ok true
  | .error .nameTooLong => .error ⟨.nameTooLong, path⟩
  | .error _ => .ok false

def namesIn (files : Files) (below : List String) : List String :=
  let place := files.placeOf below
  (files.nodes.filterMap fun n =>
    if place.isPrefixOf n.1 then n.1[place.length]? else none).eraseDups

/-! ## Reading and making -/

def read (files : Files) (path : String) : Except FileError (List UInt8) :=
  match files.look path with
  | .ok (.file content) => .ok content
  | .ok .directory => .error ⟨.isDirectory, path⟩
  | .error problem => .error ⟨problem, path⟩

/-- Makes the directory at some steps below the home directory, given last step first, and those on
the way to it. -/
def makeDirectories (files : Files) : List String → Except FileError Files
  | [] => .ok files
  | step :: above =>
    let path := files.pathOf (step :: above).reverse
    let make := fun (files : Files) (whenMissing : Except FileError Files) =>
      match files.look path with
      | .ok .directory => .ok files
      | .ok (.file _) => .error ⟨.exists, path⟩
      | .error .missing => whenMissing
      | .error problem => .error ⟨problem, path⟩
    make files do
      let files ← makeDirectories files above
      let place := files.placeOf (step :: above).reverse
      make files (.ok { files with nodes := (place, .directory) :: files.nodes })

def write (files : Files) (below : List String) (content : List UInt8) : Except FileError Files :=
  let path := files.pathOf below
  match files.look path with
  | .ok .directory => .error ⟨.isDirectory, path⟩
  | .ok (.file _) | .error .missing =>
    .ok { files with nodes := (files.placeOf below, .file content) :: files.nodes }
  | .error problem => .error ⟨problem, path⟩

end Files

end TorrentRemote
