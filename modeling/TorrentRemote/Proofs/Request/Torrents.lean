import TorrentRemote.Proofs.Model.RoundTrip
import TorrentRemote.Proofs.Value.Same
import TorrentRemote.Request.Basic

/-!
# Answers that list torrents

The answer to a request for torrents holds two lists, each of them as long as the list on the wire and in its order.
A list that the answer lacks is empty, but one that is null there is none at all, and it comes back empty from the
wire (`Request.torrents_listed`).
-/

namespace TorrentRemote

def Value.orEmpty (v : Value) : Value :=
  if v.isNull then .list [] else v

namespace Kind

/-- What a field with a list holds for what stands under a key. -/
inductive ListField (reads : Value → Value → Prop) (key : String) (es : List (Value × Value)) : Value → Prop
  | missing : Value.lookup? key es = none → ListField reads key es (.list [])
  | null : Value.lookup? key es = some .null → ListField reads key es .null
  | items {ws rs : List Value} : Value.lookup? key es = some (.list ws) → List.Forall₂ reads ws rs →
      ListField reads key es (.list rs)

section
variable {reads reads' : Value → Value → Prop} {key : String} {es : List (Value × Value)} {r : Value}

theorem ListField.imp (himp : ∀ w x, reads w x → reads' w x) (h : ListField reads key es r) :
    ListField reads' key es r := by
  cases h with
  | missing hx => exact .missing hx
  | null hx => exact .null hx
  | items hx hitems => exact .items hx (hitems.imp fun w x => himp w x)

theorem ListField.orEmpty_same_iff (h : ListField reads key es r) :
    r.orEmpty.same r = true ↔ Value.lookup? key es ≠ some .null := by
  cases h with
  | missing hx | items hx _ => exact iff_of_true (Value.same_refl _) (by simp [hx])
  | null hx => exact iff_of_false (by decide) (by simp [hx])

end

theorem listField_of_read {label : Label} {kind : Kind} {es : List (Value × Value)} {r : Value}
    (h : readField label (.listOrEmpty kind) es = .ok r) :
    ListField (fun w x => kind.read w = .ok x) label.wire es r := by
  rcases readField_cases label (.listOrEmpty kind) es with ⟨hx, hread⟩ | ⟨hx, hread⟩ | ⟨w, hx, -, hread⟩
  · rw [hread] at h
    cases h
    exact .missing hx
  · rw [hread] at h
    cases h
    exact .null hx
  · rw [hread] at h
    rw [read_listOrEmpty_eq] at h
    obtain ⟨ws, rs, rfl, hrs, rfl⟩ := read_list_ok h
    exact .items hx (mapM_iff.mp hrs)

/-! ## Writing and reading -/

/-- The field has none at all, or a list that comes back from the wire. -/
def ListReturns (kind : Kind) (r : Value) : Prop :=
  r = .null ∨ (Kind.listOf kind).Returns r

theorem ListField.returns {reads : Value → Value → Prop} {key : String} {es : List (Value × Value)} {kind : Kind}
    {r : Value} (h : ListField reads key es r) (hitems : ∀ ws rs, Value.lookup? key es = some (.list ws) →
      List.Forall₂ reads ws rs → (Kind.listOf kind).Returns (.list rs)) : kind.ListReturns r := by
  cases h with
  | missing _ => exact .inr (written_list_returns rfl rfl)
  | null _ => exact .inl rfl
  | items hx hall => exact .inr (hitems _ _ hx hall)

theorem ListReturns.field_back {label : Label} {kind : Kind} {r : Value} {rest : List (Label × Value)}
    {out : List (Value × Value)} (h : kind.ListReturns r) (hout : Wire.writeFields rest = .ok out)
    (hfresh : Value.lookup? label.wire out = none) :
    ∃ out', Wire.writeFields ((label, r) :: rest) = .ok out' ∧
      readField label (.listOrEmpty kind) out' = .ok r.orEmpty ∧
      ∀ key, label.wire ≠ key → Value.lookup? key out' = Value.lookup? key out := by
  rcases h with rfl | hreturns
  · exact ⟨out, by rw [Wire.writeFields_open, hout], readField_absent hfresh, fun _ _ => rfl⟩
  · have hheld := hreturns.not_null
    obtain ⟨w, hw, hnull, hread⟩ := hreturns
    refine ⟨_, Wire.writeFields_held hheld hw hout, ?_, fun key hkey => Value.lookup_other hkey⟩
    rw [readField_present (Value.lookup_first _ _ _) hnull, read_listOrEmpty_eq, hread, Value.orEmpty, hheld]
    rfl

end Kind

namespace Request
open Kind (ListField ListReturns)

def torrentsLabel : Label := ⟨"torrents", "torrents"⟩

def removedLabel : Label := ⟨"removed", "removed"⟩

def torrentAnswer (torrents removed : Value) : Value :=
  .record Model.torrentGetResponse.name [(torrentsLabel, torrents), (removedLabel, removed)]

def ReadTorrent (w r : Value) : Prop :=
  Model.torrent.read w = .ok r

/-- What an answer lists, what that is written as, and what comes back of it. -/
structure Listed (es : List (Value × Value)) (r torrents removed out back : Value) : Prop where
  eq : r = torrentAnswer torrents removed
  torrents_read : ListField ReadTorrent "torrents" es torrents
  removed_kept : ListField Eq "removed" es removed
  written : Wire.write r = .ok out
  read : Model.torrentGetResponse.read out = .ok back
  back_eq : back = torrentAnswer torrents.orEmpty removed.orEmpty
  same_iff : back.same r = true ↔ Value.lookup? "torrents" es ≠ some .null ∧ Value.lookup? "removed" es ≠ some .null

theorem read_torrentGet (es : List (Value × Value)) : Model.torrentGetResponse.read (.mapping es) = (do
    let torrents ← Kind.readField torrentsLabel (.listOrEmpty Model.torrent.kind) es
    let removed ← Kind.readField removedLabel (.listOrEmpty .any) es
    return torrentAnswer torrents removed) := by
  have hfields : Model.torrentGetResponse.fields =
      [(torrentsLabel, .listOrEmpty Model.torrent.kind), (removedLabel, .listOrEmpty .any)] := rfl
  rw [Model.read, Model.kind, Kind.read_record, hfields, Kind.readFields_cons, Kind.readFields_cons]
  cases Kind.readField torrentsLabel (.listOrEmpty Model.torrent.kind) es with
  | error e => rfl
  | ok torrents => cases Kind.readField removedLabel (.listOrEmpty .any) es <;> rfl

theorem torrents_return {ws rs : List Value} (hws : (Value.list ws).IsPlain) (h : List.Forall₂ ReadTorrent ws rs) :
    (Kind.listOf Model.torrent.kind).Returns (.list rs) := by
  have hlossless : Model.torrent.kind.isLossless = true := Model.isLossless _ (by simp [Model.all]) (by decide)
  have hitems : ws.mapM Model.torrent.kind.read = .ok rs := mapM_iff.mpr h
  have hread : (Kind.listOf Model.torrent.kind).read (.list ws) = .ok (.list rs) := by
    rw [Kind.read_list, hitems]
    rfl
  rcases Kind.read_returns _ (Kind.lossless_list.mpr ⟨rfl, hlossless⟩) hws hread with ⟨-, hnull⟩ | hreturns
  · cases hnull
  · exact hreturns

theorem removed_return {ws : List Value} (hws : (Value.list ws).IsPlain) : (Kind.listOf .any).Returns (.list ws) := by
  have hwritten : Wire.writeAll ws = .ok ws := Wire.writeAll_self fun w hw => Wire.write_plain (hws.items w hw)
  have hread : ws.mapM Kind.any.read = .ok ws := mapM_iff.mpr (List.forall₂_same.mpr fun w _ => rfl)
  exact Kind.written_list_returns hwritten hread

theorem torrentAnswer_back {torrents removed : Value} (ht : Model.torrent.kind.ListReturns torrents)
    (hr : Kind.any.ListReturns removed) : ∃ out, Wire.write (torrentAnswer torrents removed) = .ok out ∧
      Model.torrentGetResponse.read out = .ok (torrentAnswer torrents.orEmpty removed.orEmpty) := by
  have hempty : Wire.writeFields [] = .ok [] := rfl
  have hnone : Value.lookup? removedLabel.wire [] = none := rfl
  obtain ⟨out, hout, hremoved, hother⟩ := hr.field_back hempty hnone
  have hfresh : Value.lookup? torrentsLabel.wire out = none := hother _ (by decide)
  obtain ⟨out', hout', htorrents, hother'⟩ := ht.field_back hout hfresh
  refine ⟨.mapping out', ?_, ?_⟩
  · rw [torrentAnswer, Wire.write, hout']
    rfl
  · have hsame : Value.lookup? removedLabel.wire out' = Value.lookup? removedLabel.wire out := hother' _ (by decide)
    rw [read_torrentGet, htorrents, Kind.readField_congr _ hsame, hremoved]
    rfl

theorem torrentAnswer_same_iff (torrents removed torrents' removed' : Value) :
    (torrentAnswer torrents removed).same (torrentAnswer torrents' removed') = true ↔
      torrents.same torrents' = true ∧ removed.same removed' = true := by
  simp [torrentAnswer, Value.same, Value.sameFields]

/-- What is read of an answer, and what comes back of it: the same exactly if neither list is null on the wire. -/
theorem torrents_listed {ids : List Value} {fields : Option (List Value)} {v r : Value} (hv : v.IsPlain)
    (h : (getTorrents ids fields).readAnswer v = .ok r) :
    ∃ es torrents removed out back, v = .mapping es ∧ Listed es r torrents removed out back := by
  obtain ⟨es, -, rfl, -, -⟩ := Kind.read_record_ok (h : Model.torrentGetResponse.read v = .ok r)
  rw [readAnswer, read_torrentGet] at h
  obtain ⟨torrents, ht, h⟩ := bind_ok h
  obtain ⟨removed, hr, h⟩ := bind_ok h
  cases h
  have htorrents : ListField ReadTorrent "torrents" es torrents := Kind.listField_of_read ht
  have hremoved : ListField Eq "removed" es removed :=
    (Kind.listField_of_read hr).imp fun w x hx => Except.ok.inj hx
  have htback : Model.torrent.kind.ListReturns torrents :=
    htorrents.returns fun ws rs hx hall => torrents_return (hv.lookup hx) hall
  have hrback : Kind.any.ListReturns removed := hremoved.returns fun ws rs hx hall => by
    rw [List.forall₂_eq_eq_eq] at hall
    rw [← hall]
    exact removed_return (hv.lookup hx)
  obtain ⟨out, hout, hback⟩ := torrentAnswer_back htback hrback
  refine ⟨es, torrents, removed, out, _, rfl, rfl, htorrents, hremoved, hout, hback, rfl, ?_⟩
  rw [torrentAnswer_same_iff, htorrents.orEmpty_same_iff, hremoved.orEmpty_same_iff]

def sampleListing : Value :=
  Value.ofFields [("torrents", .list [Value.ofFields [("id", .int 7)]]), ("removed", .null)]

theorem sampleListing_isPlain : sampleListing.IsPlain := by
  have htorrent : (Value.ofFields [("id", .int 7)]).IsPlain :=
    .mapping (by decide) (List.forall_mem_singleton.mpr (.leaf trivial))
  have htorrents : (Value.list [Value.ofFields [("id", .int 7)]]).IsPlain :=
    .list (List.forall_mem_singleton.mpr htorrent)
  refine .mapping (by decide) (List.forall_mem_cons.mpr ⟨htorrents, ?_⟩)
  exact List.forall_mem_singleton.mpr (.leaf trivial)

theorem torrents_listed_sample : ∃ r es torrents removed out back,
    (getTorrents [] none).readAnswer sampleListing = .ok r ∧ sampleListing = .mapping es ∧
      Listed es r torrents removed out back := by
  have hok : ((getTorrents [] none).readAnswer sampleListing).isOk = true := by decide +kernel
  cases hr : (getTorrents [] none).readAnswer sampleListing with
  | error e =>
    rw [hr] at hok
    cases hok
  | ok r =>
    obtain ⟨es, torrents, removed, out, back, hes, hlisted⟩ := torrents_listed sampleListing_isPlain hr
    exact ⟨r, es, torrents, removed, out, back, rfl, hes, hlisted⟩

def nullListing : Value :=
  Value.ofFields [("torrents", .null)]

theorem nullListing_isJson : nullListing.IsJson :=
  .mapping (by decide) (List.forall_mem_singleton.mpr (.leaf ⟨trivial, nofun⟩))

/-- A list that is null is none at all, and what is written of the answer does not come back as the same. -/
theorem null_list_kept : (getTorrents [] none).readAnswer nullListing = .ok (torrentAnswer .null (.list [])) ∧
    (∃ out, Wire.write (torrentAnswer .null (.list [])) = .ok out ∧
      Model.torrentGetResponse.read out = .ok (torrentAnswer (.list []) (.list []))) ∧
    (torrentAnswer (.list []) (.list [])).same (torrentAnswer .null (.list [])) = false ∧
    ¬ ∀ v r, v.IsJson → (getTorrents [] none).readAnswer v = .ok r →
      ∃ rs removed, r = torrentAnswer (.list rs) (.list removed) := by
  have hread : (getTorrents [] none).readAnswer nullListing = .ok (torrentAnswer .null (.list [])) := rfl
  refine ⟨hread, ⟨_, rfl, rfl⟩, by decide, fun h => ?_⟩
  obtain ⟨rs, removed, hlists⟩ := h _ _ nullListing_isJson hread
  cases hlists

end Request

end TorrentRemote
