import TorrentRemote.Proofs.Identifier
import TorrentRemote.Proofs.Model.RoundTrip
import TorrentRemote.Proofs.Request.ChangeSet

/-!
# Settings that are read and set again

A change set takes some fields of an instance that has been read, and what it sends is read as these fields and
nothing else (`ChangeSet.settings_return`). The names that change sets send and the names that models read come
from separate tables; `session_agrees` and `torrent_agrees` compare them.
-/

namespace TorrentRemote

/-! ## Fields of instances -/

def Value.field (r : Value) (name : String) : Value :=
  match r with
  | .record _ fs => ((fs.find? fun f => f.1.name = name).map Prod.snd).getD .null
  | _ => .null

namespace Model

def names (m : Model) : List String :=
  m.labels.map Label.name

/-- An instance with the named fields of another one; the other fields are open. -/
def restrict (m : Model) (names : List String) (r : Value) : Value :=
  .record m.name (m.labels.map fun label => (label, if label.name ∈ names then r.field label.name else .null))

theorem field_of_mem {model : String} {fs : List (Label × Value)} (hnames : (fs.map fun f => f.1.name).Nodup)
    {label : Label} {v : Value} (h : (label, v) ∈ fs) : (Value.record model fs).field label.name = v := by
  unfold Value.field
  dsimp only
  cases hfind : fs.find? fun f => f.1.name = label.name with
  | none => simpa using List.find?_eq_none.mp hfind _ h
  | some f =>
    have hname : f.1.name = label.name := by simpa using List.find?_some hfind
    have hsame : f = (label, v) := List.inj_on_of_nodup_map hnames (List.mem_of_find?_eq_some hfind) h hname
    rw [hsame]
    rfl

end Model

namespace Kind

theorem readField_returns {label : Label} {kind : Kind} {es : List (Value × Value)} {v : Value}
    (hk : kind.isLossless = true) (hes : (Value.mapping es).IsPlain) (h : readField label kind es = .ok v) :
    v = .null ∨ kind.Returns v := by
  rcases readField_cases label kind es with ⟨-, hr⟩ | ⟨-, hr⟩ | ⟨x, hx, -, hr⟩
  · rw [hr, absent_of_lossless hk] at h
    exact .inl (Except.ok.inj h).symm
  · rw [hr] at h
    exact .inl (Except.ok.inj h).symm
  · rw [hr] at h
    exact (read_returns kind hk (hes.lookup hx) h).imp And.right id

theorem allLossless_iff {fields : List (Label × Kind)} :
    allLossless fields = true ↔ ∀ f ∈ fields, f.2.isLossless = true := by
  induction fields with
  | nil => simp [allLossless]
  | cons f fields ih => simp [allLossless, ih]

theorem readFields_of_each {es : List (Value × Value)} {g : Label → Value} : ∀ {fields : List (Label × Kind)},
    (∀ f ∈ fields, readField f.1 f.2 es = .ok (g f.1)) → readFields fields es = .ok (fields.map fun f => (f.1, g f.1))
  | [], _ => rfl
  | (label, kind) :: rest, h => by
    obtain ⟨hfirst, hrest⟩ := List.forall_mem_cons.mp h
    rw [readFields_cons, hfirst, readFields_of_each hrest]
    rfl

end Kind

namespace ChangeSet

/-! ## Change sets made from an instance -/

theorem make_settled {kind : ChangeKind} {given : List (String × Value)} (h : ∀ g ∈ given, g.1 ∈ kind.names)
    (ids : List Value) : make kind ids given = .ok (settled kind ids (named given)) := by
  cases hmade : make kind ids given with
  | ok c => rw [make_ok hmade]
  | error e =>
    unfold make at hmade
    dsimp only at hmade
    split at hmade
    · cases hmade
    · next hunknown hne =>
      refine absurd (List.filter_eq_nil_iff.mpr fun name hname => ?_) hne
      obtain ⟨g, hg, rfl⟩ := List.mem_map.mp hname
      have hknown : g.1 ∈ kind.settings.map fun s => s.label.name := h g hg
      simpa using hknown

theorem lastValue_taken (names : List String) (value : String → Value) (name : String) :
    lastValue (named (names.map fun name => (name, value name))) name = if name ∈ names then value name else .null := by
  have hfind : ∀ names : List String, (names.map fun name => Write.value name (value name)).findSome?
      (Write.value? name) = if name ∈ names then some (value name) else none := by
    intro names
    induction names with
    | nil => rfl
    | cons first names ih =>
      by_cases h : first = name
      · simp [Write.value?, h]
      · simp [Write.value?, h, Ne.symm h, ih]
  have hwrites : named (names.map fun name => (name, value name)) = names.map fun name => .value name (value name) := by
    simp [named]
  rw [lastValue, hwrites, ← List.map_reverse, hfind]
  simp only [List.mem_reverse]
  split <;> rfl

/-! ## Reading what is sent -/

/-- Settings that are read under the names that they are sent with. -/
structure Agrees (kind : ChangeKind) (m : Model) (names : List String) : Prop where
  lossless : m.kind.isLossless = true
  namesNodup : m.names.Nodup
  noIds : "ids" ∉ m.wireNames
  shared : ∀ name ∈ names, ∃ s ∈ kind.settings, s.label.name = name ∧ s.label ∈ m.labels

namespace Agrees
variable {kind : ChangeKind} {m : Model} {names : List String} (h : Agrees kind m names)
include h

theorem wires_nodup : (m.labels.map Label.wire).Nodup := by
  rw [Model.labels, List.map_map]
  exact (Kind.lossless_record h.lossless).1

theorem fields_lossless : ∀ f ∈ m.fields, f.2.isLossless = true :=
  Kind.allLossless_iff.mp (Kind.lossless_record h.lossless).2

end Agrees

theorem session_agrees : Agrees .session Model.session ChangeKind.session.names := by
  refine ⟨Model.isLossless _ (by simp [Model.all]) (by decide), by decide +kernel, by decide +kernel, ?_⟩
  have hlabels : ∀ s ∈ ChangeKind.session.settings, s.label ∈ Model.session.labels := by decide +kernel
  intro name hname
  obtain ⟨s, hs, rfl⟩ := List.mem_map.mp hname
  exact ⟨s, hs, rfl, hlabels s hs⟩

def torrentShared : List String :=
  ChangeKind.torrent.names.filter (· ∈ Model.torrent.names)

theorem torrent_agrees : Agrees .torrent Model.torrent torrentShared := by
  refine ⟨Model.isLossless _ (by simp [Model.all]) (by decide), by decide +kernel, by decide +kernel, ?_⟩
  have hlabels : ∀ s ∈ ChangeKind.torrent.settings, s.label.name ∈ Model.torrent.names →
      s.label ∈ Model.torrent.labels := by
    decide +kernel
  intro name hname
  obtain ⟨hsetting, hfield⟩ := List.mem_filter.mp hname
  obtain ⟨s, hs, rfl⟩ := List.mem_map.mp hsetting
  exact ⟨s, hs, rfl, hlabels s hs (of_decide_eq_true hfield)⟩

def taken (names : List String) (r : Value) : List Write :=
  named (names.map fun name => (name, r.field name))

theorem lastIds_named (ids : List Value) (given : List (String × Value)) : lastIds ids (named given) = ids := by
  have hnone : (named given).reverse.findSome? Write.ids? = none := by
    refine List.findSome?_eq_none_iff.mpr fun w hw => ?_
    obtain ⟨g, -, rfl⟩ := List.mem_map.mp (List.mem_reverse.mp hw)
    rfl
  rw [lastIds, hnone]
  rfl

theorem lastValue_taken_of_mem {names : List String} {r : Value} {name : String}
    (h : (lastValue (taken names r) name).isNull = false) :
    name ∈ names ∧ lastValue (taken names r) name = r.field name := by
  rw [taken, lastValue_taken] at h ⊢
  by_cases hname : name ∈ names
  · exact ⟨hname, if_pos hname⟩
  · rw [if_neg hname] at h
    cases h

section
variable {kind : ChangeKind} {m : Model} {shared names : List String} (h : Agrees kind m shared)
  (hnames : ∀ name ∈ names, name ∈ shared) (r : Value)
include h hnames

theorem Agrees.setting_label {s : Setting} (hs : s ∈ kind.settings) (hname : s.label.name ∈ names) :
    s.label ∈ m.labels := by
  obtain ⟨s', hs', hsame, hlabel⟩ := h.shared _ (hnames _ hname)
  rwa [← List.inj_on_of_nodup_map kind.names_nodup hs' hs hsame]

theorem Agrees.sent_label {s : Setting} (hs : s ∈ changedSettings kind (lastValue (taken names r))) :
    s.label ∈ m.labels ∧ s.label.name ∈ names ∧ lastValue (taken names r) s.label.name = r.field s.label.name ∧
      (r.field s.label.name).isNull = false := by
  obtain ⟨hsetting, hheld⟩ := List.mem_filter.mp hs
  have hheld : (lastValue (taken names r) s.label.name).isNull = false := by simpa using hheld
  obtain ⟨hname, hvalue⟩ := lastValue_taken_of_mem hheld
  exact ⟨h.setting_label hnames hsetting hname, hname, hvalue, hvalue ▸ hheld⟩

theorem Agrees.sent_of_taken {label : Label} (hlabel : label ∈ m.labels) (hname : label.name ∈ names)
    (hheld : (r.field label.name).isNull = false) :
    ∃ s ∈ changedSettings kind (lastValue (taken names r)), s.label = label := by
  obtain ⟨s, hs, hsame, hslabel⟩ := h.shared _ (hnames _ hname)
  refine ⟨s, List.mem_filter.mpr ⟨hs, ?_⟩, List.inj_on_of_nodup_map h.namesNodup hslabel hlabel hsame⟩
  rw [hsame, taken, lastValue_taken, if_pos hname, hheld]
  rfl

section
variable {es : List (Value × Value)} {fs : List (Label × Value)} (hes : (Value.mapping es).IsPlain)
  (hfs : Kind.readFields m.fields es = .ok fs)
include hes hfs

omit hnames in
/-- A field of what was read is open or its wire form is read as the same value. -/
theorem Agrees.field_returns {label : Label} {k : Kind} (hf : (label, k) ∈ m.fields) :
    (Value.record m.name fs).field label.name = .null ∨ k.Returns ((Value.record m.name fs).field label.name) := by
  have hnodup : (fs.map fun f => f.1.name).Nodup := by
    have hlabels := congrArg (List.map Label.name) (Kind.readFields_labels hfs)
    rw [List.map_map] at hlabels
    rw [show (fs.map fun f => f.1.name) = m.names from hlabels]
    exact h.namesNodup
  obtain ⟨v, hv, hmem⟩ := Kind.readFields_ok_of_mem hfs hf
  rw [Model.field_of_mem hnodup hmem]
  exact Kind.readField_returns (h.fields_lossless _ hf) hes hv

theorem Agrees.written (s : Setting) (hs : s ∈ kind.settings) :
    ¬ Wire.Unwritable (lastValue (taken names (.record m.name fs)) s.label.name) := by
  by_cases hheld : (lastValue (taken names (.record m.name fs)) s.label.name).isNull = true
  · rw [Value.isNull_eq_true.mp hheld]
    exact Wire.write_ok_iff.mp ⟨_, rfl⟩
  · obtain ⟨hname, hvalue⟩ := lastValue_taken_of_mem (eq_false_of_ne_true hheld)
    obtain ⟨f, hf, hlabel⟩ := List.mem_map.mp (h.setting_label hnames hs hname)
    rcases h.field_returns hes hfs hf with hnull | ⟨w, hw, -⟩
    · rw [hvalue, ← hlabel, hnull] at hheld
      exact absurd rfl hheld
    · rw [hvalue, ← hlabel]
      exact Wire.write_ok_iff.mp ⟨w, hw⟩

/-- Each field of the model is read from what is sent as it was taken. -/
theorem Agrees.field_back {ids : List Value} {checked : Option (List Value)} {out : List (Value × Value)}
    (hout : SentAs kind ids (lastValue (taken names (.record m.name fs))) checked out) {label : Label} {k : Kind}
    (hf : (label, k) ∈ m.fields) : Kind.readField label k out =
      .ok (if label.name ∈ names then (Value.record m.name fs).field label.name else .null) := by
  have hlabel : label ∈ m.labels := List.mem_map.mpr ⟨_, hf, rfl⟩
  by_cases htaken : label.name ∈ names ∧ ((Value.record m.name fs).field label.name).isNull = false
  · obtain ⟨s, hs, rfl⟩ := h.sent_of_taken hnames _ hlabel htaken.1 htaken.2
    obtain ⟨-, -, hvalue, hheld⟩ := h.sent_label hnames _ hs
    obtain ⟨w, hw, hlookup⟩ := hout.values s hs
    rw [if_pos htaken.1]
    rcases h.field_returns hes hfs hf with hnull | ⟨w', hw', hnull, hread⟩
    · rw [hnull] at hheld
      cases hheld
    · rw [hvalue, hw'] at hw
      cases hw
      rw [Kind.readField_present hlookup hnull, hread]
  · -- neither a setting that is sent nor the identifiers go by the name of this field
    have hnone : Value.lookup? label.wire out = none := by
      refine Value.lookup_none fun key hkey htext => ?_
      rw [hout.keys, List.mem_append] at hkey
      rcases hkey with hkey | hkey
      · obtain ⟨s, hs, rfl⟩ := List.mem_map.mp hkey
        obtain ⟨hslabel, hname, -, hheld⟩ := h.sent_label hnames _ hs
        have hsame : s.label = label :=
          List.inj_on_of_nodup_map h.wires_nodup hslabel hlabel (Option.some.inj htext)
        rw [hsame] at hname hheld
        exact htaken ⟨hname, hheld⟩
      · split at hkey
        · rw [List.mem_singleton.mp hkey] at htext
          have hids : "ids" = label.wire := Option.some.inj htext
          exact h.noIds (hids ▸ List.mem_map.mpr ⟨label, hlabel, rfl⟩)
        · cases hkey
    rw [Kind.readField_absent hnone, Kind.absent_of_lossless (h.fields_lossless _ hf)]
    split
    · next hname =>
      have hnull : ((Value.record m.name fs).field label.name).isNull = true := by
        simpa using fun hheld => htaken ⟨hname, hheld⟩
      rw [Value.isNull_eq_true.mp hnull]
    · rfl

end

end

/-- What has been read, taken as changes, is sent and read as the fields that were taken. -/
theorem Agrees.returns {kind : ChangeKind} {m : Model} {shared names : List String} (h : Agrees kind m shared)
    (hnames : ∀ name ∈ names, name ∈ shared) {es : List (Value × Value)} (hes : (Value.mapping es).IsPlain)
    {r : Value} (hr : m.read (.mapping es) = .ok r) {ids : List Value} {checked : Option (List Value)}
    (hids : kind = .torrent → Identifier.checkAll ids = .ok checked) :
    ∃ c out, make kind ids (names.map fun name => (name, r.field name)) = .ok c ∧ c.arguments = .ok (.mapping out) ∧
      (kind = .torrent → Value.lookup? "ids" out = checked.map .list) ∧
      m.read (.mapping out) = .ok (m.restrict names r) := by
  obtain ⟨es', fs, hes', hfs, rfl⟩ := Kind.read_record_ok hr
  cases hes'
  have hsettings : ∀ g ∈ names.map fun name => (name, (Value.record m.name fs).field name), g.1 ∈ kind.names := by
    intro g hg
    obtain ⟨name, hname, rfl⟩ := List.mem_map.mp hg
    obtain ⟨s, hs, rfl, -⟩ := h.shared _ (hnames _ hname)
    exact List.mem_map.mpr ⟨s, hs, rfl⟩
  have hsends := settled_sends kind ids (taken names (.record m.name fs))
  rw [taken, lastIds_named] at hsends
  obtain ⟨out, harguments, hout⟩ := hsends.sent hids (h.written hnames hes hfs)
  refine ⟨_, out, make_settled hsettings ids, harguments, hout.ids, ?_⟩
  have hback := Kind.readFields_of_each (g := fun label => if label.name ∈ names then
    (Value.record m.name fs).field label.name else .null) fun f hf => h.field_back hnames hes hfs hout hf
  rw [Model.read, Model.kind, Kind.read_record, hback, Model.restrict, Model.labels, List.map_map]
  rfl

/-- Whatever a session or a torrent is read from, any of its fields that can be set are sent so that they are read
as they were, and all other fields as none at all. -/
theorem settings_return {es : List (Value × Value)} (hes : (Value.mapping es).IsPlain) :
    (∀ {s names}, Model.session.read (.mapping es) = .ok s → (∀ name ∈ names, name ∈ ChangeKind.session.names) →
      ∃ c out, make .session [] (names.map fun name => (name, s.field name)) = .ok c ∧
        c.arguments = .ok (.mapping out) ∧ Model.session.read (.mapping out) = .ok (Model.session.restrict names s)) ∧
    (∀ {t names ids ws}, Model.torrent.read (.mapping es) = .ok t →
      (∀ name ∈ names, name ∈ ChangeKind.torrent.names ∧ name ∈ Model.torrent.names) → ids ≠ [] →
      List.Forall₂ Identifier.Names ids ws →
      ∃ c out, make .torrent ids (names.map fun name => (name, t.field name)) = .ok c ∧
        c.arguments = .ok (.mapping out) ∧ Value.lookup? "ids" out = some (.list ws) ∧
        Model.torrent.read (.mapping out) = .ok (Model.torrent.restrict names t)) := by
  constructor
  · intro s names hs hnames
    have hids : ChangeKind.session = .torrent → Identifier.checkAll [] = .ok none := nofun
    obtain ⟨c, out, hmade, harguments, -, hback⟩ := session_agrees.returns hnames hes hs hids
    exact ⟨c, out, hmade, harguments, hback⟩
  · intro t names ids ws ht hnames hne hws
    have hshared : ∀ name ∈ names, name ∈ torrentShared := fun name hname =>
      List.mem_filter.mpr ⟨(hnames name hname).1, decide_eq_true (hnames name hname).2⟩
    obtain ⟨c, out, hmade, harguments, hids, hback⟩ :=
      torrent_agrees.returns hshared hes ht fun _ => Identifier.checkAll_iff.mpr ⟨ws, hws, rfl⟩
    refine ⟨c, out, hmade, harguments, ?_, hback⟩
    rw [hids rfl]
    cases hws with
    | nil => exact absurd rfl hne
    | cons => rfl

example : ChangeKind.session.names.length = 43 := by decide +kernel

def settingsSample : List (String × Value) := [
  ("encryption", .text "required"), ("seedRatioLimit", .int 2), ("dht-enabled", .int 1),
  ("units", Value.ofFields [("speed-units", .list [.text "kB/s"]), ("speed-bytes", .int 1000)]),
  ("labels", .list [.text "a"]), ("seedRatioMode", .int 1), ("downloadLimit", .int 0)]

theorem settingsSample_isPlain : (Value.ofFields settingsSample).IsPlain := by
  have htext (s : String) : (Value.text s).IsPlain := .leaf trivial
  have hint (n : Int) : (Value.int n).IsPlain := .leaf trivial
  have hlist (s : String) : (Value.list [.text s]).IsPlain := .list (List.forall_mem_singleton.mpr (htext s))
  have hunits : (Value.ofFields [("speed-units", .list [.text "kB/s"]), ("speed-bytes", .int 1000)]).IsPlain :=
    .mapping (by decide) (List.forall_mem_cons.mpr ⟨hlist _, List.forall_mem_singleton.mpr (hint _)⟩)
  refine .mapping (by decide) ?_
  simp only [settingsSample, List.forall_mem_cons, List.not_mem_nil, false_implies, implies_true, and_true]
  exact ⟨htext _, hint _, hint _, hunits, hlist _, hint _, hint _⟩

theorem settings_return_sample : ∃ s t c d out out',
    Model.session.read (Value.ofFields settingsSample) = .ok s ∧
    Model.torrent.read (Value.ofFields settingsSample) = .ok t ∧
    make .session [] (["encryption", "seed_ratio_limit", "units"].map fun name => (name, s.field name)) = .ok c ∧
    make .torrent [.int 7] (["labels", "seed_ratio_mode", "upload_limit"].map fun name => (name, t.field name)) =
      .ok d ∧
    c.arguments = .ok (.mapping out) ∧ d.arguments = .ok (.mapping out') ∧
    Model.session.read (.mapping out) = .ok (Model.session.restrict ["encryption", "seed_ratio_limit", "units"] s) ∧
    Model.torrent.read (.mapping out') =
      .ok (Model.torrent.restrict ["labels", "seed_ratio_mode", "upload_limit"] t) := by
  have hsettings : ∀ name ∈ ["encryption", "seed_ratio_limit", "units"], name ∈ ChangeKind.session.names := by
    decide +kernel
  have hshared : ∀ name ∈ ["labels", "seed_ratio_mode", "upload_limit"],
      name ∈ ChangeKind.torrent.names ∧ name ∈ Model.torrent.names := by
    decide +kernel
  have hids : List.Forall₂ Identifier.Names [.int 7] [.int 7] :=
    .cons (.number (v := .int 7) rfl (by decide) (by decide)) .nil
  have hsession : (Model.session.read (Value.ofFields settingsSample)).isOk = true := by decide +kernel
  have htorrent : (Model.torrent.read (Value.ofFields settingsSample)).isOk = true := by decide +kernel
  obtain ⟨hsessions, htorrents⟩ := settings_return settingsSample_isPlain
  cases hs : Model.session.read (Value.ofFields settingsSample) with
  | error e =>
    rw [hs] at hsession
    cases hsession
  | ok s =>
    cases ht : Model.torrent.read (Value.ofFields settingsSample) with
    | error e =>
      rw [ht] at htorrent
      cases htorrent
    | ok t =>
      obtain ⟨c, out, hc, hout, hback⟩ := hsessions hs hsettings
      obtain ⟨d, out', hd, hout', -, hback'⟩ := htorrents ht hshared (List.cons_ne_nil _ _) hids
      exact ⟨s, t, c, d, out, out', rfl, rfl, hc, hd, hout, hout', hback, hback'⟩

end ChangeSet

end TorrentRemote
