import TorrentRemote.Text.Blank
import TorrentRemote.Text.LowerCase

/-!
# Torrent links
-/

namespace TorrentRemote

def linkStarts : List String := ["magnet:", "http://", "https://"]

/-- Whether a text is a link to a torrent, white space before it and the case of its letters left
aside. -/
def isTorrentLink (s : String) : Bool :=
  let cs := Text.lower (Text.trim s.toList)
  linkStarts.any fun start => start.toList.isPrefixOf cs

end TorrentRemote
