import TorrentRemote.Model.Reader
import TorrentRemote.Proofs.Text.Base64
import TorrentRemote.Request.Basic
import TorrentRemote.Request.Source

/-!
# Contents of files on the wire

Bytes are sent as a text that the reader of contents takes back to them, and so the torrent file that a source names
can be got back from the arguments that are sent for it: `ChangeSet.contents_return`.
-/

namespace TorrentRemote

/-! ## Paths from the top -/

namespace Text

theorem trimEnd_cons {blank : Char → Bool} {c : Char} (h : blank c = false) (cs : List Char) :
    trimEnd blank (c :: cs) = c :: trimEnd blank cs := by
  unfold trimEnd
  rw [List.reverse_cons, List.dropWhile_append]
  by_cases hrest : (cs.reverse.dropWhile blank).isEmpty = true
  · rw [if_pos hrest, List.isEmpty_iff.mp hrest]
    simp [h]
  · rw [if_neg hrest]
    simp

theorem trim_cons {c : Char} (h : isBlank c = false) (cs : List Char) : trim (c :: cs) = c :: trimEnd isBlank cs := by
  rw [trim, trimBy, List.dropWhile_cons_of_neg (by simp [h]), trimEnd_cons h]

end Text

section
variable {path : String} {rest : List Char} (h : path.toList = '/' :: rest)
include h

theorem isTorrentLink_slash : isTorrentLink path = false := by
  have hlow : Text.lowerChars '/' = ['/'] := by decide
  unfold isTorrentLink
  rw [h, Text.trim_cons (by decide), Text.lower, Text.lowerAfter]
  simp [linkStarts, hlow, List.isPrefixOf]

theorem expandHome_slash (files : Files) : expandHome files path = .ok path := by
  unfold expandHome
  rw [h]
  rfl

end

namespace ChangeSet

/-! ## Sources -/

def toFollow (source : String) : ChangeSet :=
  (empty .newTorrent).set "filename" (.text (String.ofList (Text.trim source.toList)))

def toUpload (bs : List UInt8) : ChangeSet :=
  (empty .newTorrent).set "metainfo" (.bytes bs)

/-- A source that is not a link and whose path, with homes put in, leads to a file with these bytes. A source that looks
like a link (`isTorrentLink`) names no file, even where there is one with that path: it is left to the daemon. -/
structure NamesFile (files : Files) (source : String) (bs : List UInt8) : Prop where
  noLink : isTorrentLink source = false
  leads : ∃ path, expandHome files source = .ok path ∧ files.look path = .ok (.file bs)

theorem namesFile_of_look {files : Files} {path : String} {bs : List UInt8} (hslash : path.toList.head? = some '/')
    (h : files.look path = .ok (.file bs)) : NamesFile files path bs := by
  obtain ⟨rest, hrest⟩ := List.head?_eq_some_iff.mp hslash
  exact ⟨isTorrentLink_slash hrest, path, expandHome_slash hrest files, h⟩

theorem ofSource_ok_iff {files : Files} {source : String} {c : ChangeSet} : ofSource files source = .ok c ↔
    (isTorrentLink source = true ∧ c = toFollow source) ∨ ∃ bs, NamesFile files source bs ∧ c = toUpload bs := by
  unfold ofSource
  constructor
  · intro h
    by_cases hlink : isTorrentLink source = true
    · rw [if_pos hlink] at h
      cases h
      exact .inl ⟨hlink, rfl⟩
    · rw [if_neg hlink] at h
      obtain ⟨path, hpath, h⟩ := bind_ok h
      split at h
      · cases h
      · next bs hlook =>
        cases h
        exact .inr ⟨bs, ⟨by simpa using hlink, path, hpath, hlook⟩, rfl⟩
      · cases h
  · rintro (⟨hlink, rfl⟩ | ⟨bs, ⟨hlink, path, hpath, hlook⟩, rfl⟩)
    · rw [if_pos hlink]
      rfl
    · rw [if_neg (by simp [hlink]), hpath, ok_bind, hlook]
      rfl

theorem toUpload_arguments (bs : List UInt8) :
    (toUpload bs).arguments = .ok (.ofFields [("metainfo", .text (Text.Base64.encode bs))]) := by
  rfl

/-! ## Contents -/

/-- The text that bytes are sent as, and what it is read as. -/
structure ContentText (bs : List UInt8) (s : String) : Prop where
  written : Wire.write (.bytes bs) = .ok (.text s)
  writtenBuffer : Wire.write (.buffer bs) = .ok (.text s)
  ascii : ∀ c ∈ s.toList, c.toNat < 128
  length : s.length = 4 * ((bs.length + 2) / 3)
  read : Kind.readContent (.text s) = .ok (.bytes bs)
  only : ∀ bs', Wire.write (.bytes bs') = .ok (.text s) → bs' = bs

theorem contentText_encode (bs : List UInt8) : ContentText bs (Text.Base64.encode bs) := by
  constructor
  case written => rfl
  case writtenBuffer => rfl
  case ascii =>
    intro c hc
    rw [Text.Base64.encode, String.toList_ofList] at hc
    exact of_decide_eq_true (List.all_eq_true.mp (Text.Base64.encodeChars_ascii bs) c hc)
  case length => rw [Text.Base64.encode, String.length_ofList, Text.Base64.encodeChars_length]
  case read => simp only [Kind.readContent, Value.text?, Text.Base64.decode_encode]
  case only =>
    intro bs' h
    rw [Wire.write, Except.ok.injEq, Value.text.injEq] at h
    exact Text.Base64.encode_inj.mp h

/-- Bytes come back from what is sent for them, and so does the content of each file that a source names. What looks
like a link does not count as the path of a file, but a path from the top never does. -/
theorem contents_return (bs : List UInt8) : ∃ s, ContentText bs s ∧
    (∀ files source, NamesFile files source bs → ∃ c, ofSource files source = .ok c ∧
      (Request.change c).arguments = .ok (.ofFields [("metainfo", .text s)])) ∧
    ∀ files path, path.toList.head? = some '/' → files.look path = .ok (.file bs) → NamesFile files path bs := by
  refine ⟨_, contentText_encode bs, fun files source h => ?_, fun files path => namesFile_of_look⟩
  exact ⟨toUpload bs, ofSource_ok_iff.mpr (.inr ⟨bs, h, rfl⟩), toUpload_arguments bs⟩

theorem contents_return_at_home :
    let files : Files := ⟨"/home/u", [(["home", "u", "a.torrent"], .file [100, 56, 58])], []⟩
    NamesFile files "~/a.torrent" [100, 56, 58] ∧ ∃ s, ContentText [100, 56, 58] s ∧
      ∃ c, ofSource files "~/a.torrent" = .ok c ∧
        (Request.change c).arguments = .ok (.ofFields [("metainfo", .text s)]) := by
  intro files
  have hpath : expandHome files "~/a.torrent" = .ok "/home/u/a.torrent" := ok_of_toOption (by decide +kernel)
  have h : NamesFile files "~/a.torrent" [100, 56, 58] := ⟨by decide, "/home/u/a.torrent", hpath, by decide +kernel⟩
  obtain ⟨s, hs, hfiles, -⟩ := contents_return [100, 56, 58]
  exact ⟨h, s, hs, hfiles files _ h⟩

example : Text.Base64.encode [100, 56, 58] = "ZDg6" := by decide

end ChangeSet

end TorrentRemote
