import TorrentRemote.Link
import TorrentRemote.Request.ChangeSet

/-!
# Torrents to add from a link or a file

A link is left to the daemon to follow. Anything else is the path of a file whose content is sent.
-/

namespace TorrentRemote

/-- What follows a tilde, put behind a home directory without the slashes at its end. -/
def behindHome (home : String) (rest : List Char) : String :=
  let path := Text.trimEnd (· = '/') home.toList ++ rest
  if path.isEmpty then "/" else String.ofList path

/-- A path with the home directory of a user put in for a tilde and the user's name. Without a name
it is the home of the user who asks; a name of nobody is left. A name holds no zero character. -/
def expandHome (files : Files) (path : String) : Except Failure String :=
  match path.toList with
  | '~' :: rest =>
    let name := rest.takeWhile (· ≠ '/')
    let home := if name.isEmpty then some files.home else files.homes.lookup (String.ofList name)
    if '\x00' ∈ name then .error .zeroInPath
    else
      match home with
      | some home => .ok (behindHome home (rest.drop name.length))
      | none => .ok path
  | _ => .ok path

namespace ChangeSet

def ofSource (files : Files) (source : String) : Except Failure ChangeSet :=
  let new := empty .newTorrent
  if isTorrentLink source then
    .ok (new.set "filename" (.text (String.ofList (Text.trim source.toList))))
  else do
    let path ← expandHome files source
    match files.look path with
    | .error _ => .error (.client (.general ("Torrent file not found: " ++ path)))
    | .ok (.file content) => .ok (new.set "metainfo" (.bytes content))
    | .ok .directory => .error (.file ⟨.isDirectory, path⟩)

end ChangeSet

end TorrentRemote
