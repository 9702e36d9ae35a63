import TorrentRemote.Model.Catalog
import TorrentRemote.Proofs.Model.Reader
import TorrentRemote.Proofs.Value.Tree
import TorrentRemote.Proofs.Wire

/-!
# Writing what has been read

An instance that was read from JSON is written under the names of its fields that hold a value, and what
is written is read as the same instance (`Model.written_instance_returns`).
-/

namespace TorrentRemote

namespace Kind

/-- Whether a value can be read as none at all. -/
def isOpenable : Kind → Bool
  | .time => true
  | _ => false

mutual

/-- Whether nothing is lost by writing and reading: a field that is left open stays so, the items of lists
are never left open, and no two fields of a record have the same name on the wire. -/
def isLossless : Kind → Bool
  | .any | .listOrEmpty _ => false
  | .listOf kind => !kind.isOpenable && kind.isLossless
  | .record _ fields => decide (fields.map fun f => f.1.wire).Nodup && allLossless fields
  | _ => true

def allLossless : List (Label × Kind) → Bool
  | [] => true
  | (_, kind) :: rest => kind.isLossless && allLossless rest

end

section
variable {label : Label} {kind : Kind} {model : String} {fields : List (Label × Kind)}

theorem lossless_list : (Kind.listOf kind).isLossless = true ↔ kind.isOpenable = false ∧ kind.isLossless = true := by
  simp [isLossless]

theorem lossless_record (h : (Kind.record model fields).isLossless = true) :
    (fields.map fun f => f.1.wire).Nodup ∧ allLossless fields = true := by
  simpa [isLossless] using h

theorem lossless_cons (h : allLossless ((label, kind) :: fields) = true) :
    kind.isLossless = true ∧ allLossless fields = true := by
  simpa [allLossless] using h

end

/-- The value has a wire form, which is read as the value. -/
def Returns (kind : Kind) (r : Value) : Prop :=
  ∃ w, Wire.write r = .ok w ∧ w.isNull = false ∧ kind.read w = .ok r

theorem Returns.not_null {kind : Kind} {r : Value} (h : kind.Returns r) : r.isNull = false := by
  obtain ⟨w, hw, hnull, -⟩ := h
  cases hr : r.isNull with
  | false => rfl
  | true =>
    rw [Value.isNull_eq_true.mp hr] at hw
    cases hw
    cases hnull

/-! ## Scalars -/

section
variable {v r : Value}

theorem readInteger_returns (hv : v.IsPlain) (h : readInteger v = .ok r) : Returns .integer r := by
  unfold readInteger at h
  split at h
  · next hint =>
    cases h
    obtain ⟨n, hn⟩ := Option.isSome_iff_exists.mp hint
    rw [hv.of_int hn]
    exact ⟨.int n, rfl, rfl, rfl⟩
  · cases h

theorem readNumber_returns (h : readNumber v = .ok r) : Returns .number r := by
  rw [readNumber_eq] at h
  rcases readNumberBy_cases h with ⟨x, -, rfl⟩ | ⟨n, x, -, -, rfl⟩ <;> exact ⟨.float x, rfl, rfl, rfl⟩

theorem readText_returns (hv : v.IsPlain) (h : readText v = .ok r) : Returns .text r := by
  unfold readText at h
  split at h
  · next htext =>
    cases h
    obtain ⟨s, hs⟩ := Option.isSome_iff_exists.mp htext
    rw [hv.of_text hs]
    exact ⟨.text s, rfl, rfl, rfl⟩
  · cases h

theorem readContent_returns (h : readContent v = .ok r) : Returns .content r := by
  unfold readContent at h
  split at h
  · cases h
  · split at h
    · next bs hd =>
      cases h
      refine ⟨.text (Text.Base64.encode bs), rfl, rfl, ?_⟩
      have htext : (Value.text (Text.Base64.encode bs)).text? = some (Text.Base64.encode bs) := rfl
      simp only [read, readContent, htext, Text.Base64.decode_encode]
    · cases h
    · cases h

theorem readFlag_returns (h : readFlag v = .ok r) : Returns .flag r := by
  obtain ⟨b, -, rfl⟩ := map_ok h
  exact ⟨.bool b, rfl, rfl, rfl⟩

theorem readTime_returns (h : readTime v = .ok r) : r = .null ∨ Returns .time r := by
  unfold readTime at h
  split at h
  · next m hm =>
    cases h
    obtain ⟨n, hn, -, hseconds⟩ := Wire.readTime_ok hm
    refine .inr ⟨.int n, ?_, rfl, ?_⟩
    · rw [Wire.write, Wire.ofSeconds_toSeconds hseconds]
    · rw [read, readTime, Wire.readTime_int hn hseconds]
  · cases h
    exact .inl rfl
  · cases h

theorem readDuration_returns (h : readDuration v = .ok r) : Returns .duration r := by
  obtain ⟨d, hd, rfl⟩ := map_ok h
  obtain ⟨n, -, hseconds⟩ := Wire.readDuration_ok hd
  refine ⟨.int n, ?_, rfl, ?_⟩
  · rw [Wire.write, Wire.duration_toSeconds hseconds]
  · rw [read, readDuration, Wire.readDuration_int hseconds]
    rfl

theorem readMember_returns {domain : Domain} (h : readMember domain v = .ok r) : Returns (.member domain) r := by
  obtain ⟨m, hm, rfl⟩ := map_ok h
  obtain ⟨w, hw, hnull, hcoded⟩ := Wire.write_member m
  refine ⟨w, hw, hnull, ?_⟩
  rw [read, readMember, Wire.readMember_ok.mpr ⟨(Wire.readMember_ok.mp hm).1, hcoded⟩]
  rfl

end

/-! ## Lists -/

theorem items_return {kind : Kind} : ∀ {rs : List Value}, (∀ r ∈ rs, kind.Returns r) →
    ∃ ws, Wire.writeAll rs = .ok ws ∧ ws.mapM kind.read = .ok rs
  | [], _ => ⟨[], rfl, rfl⟩
  | r :: rs, h => by
    obtain ⟨w, hw, -, hr⟩ := h r List.mem_cons_self
    obtain ⟨ws, hws, hrs⟩ := items_return fun r' hr' => h r' (List.mem_cons_of_mem _ hr')
    refine ⟨w :: ws, ?_, ?_⟩
    · rw [Wire.writeAll, hw, hws]
      rfl
    · rw [List.mapM_cons, hr, hrs]
      rfl

theorem written_list_returns {kind : Kind} {ws rs : List Value} (hws : Wire.writeAll rs = .ok ws)
    (hrs : ws.mapM kind.read = .ok rs) : (Kind.listOf kind).Returns (.list rs) := by
  refine ⟨.list ws, ?_, rfl, ?_⟩
  · rw [Wire.write, hws]
    rfl
  · rw [read_list, hrs]
    rfl

theorem list_returns {kind : Kind} {rs : List Value} (h : ∀ r ∈ rs, kind.Returns r) :
    (Kind.listOf kind).Returns (.list rs) := by
  obtain ⟨ws, hws, hrs⟩ := items_return h
  exact written_list_returns hws hrs

/-! ## Records -/

theorem readFields_cons_other {key : String} {w : Value} : ∀ {fields : List (Label × Kind)} {es : List (Value × Value)},
    (∀ f ∈ fields, f.1.wire ≠ key) → readFields fields ((.text key, w) :: es) = readFields fields es
  | [], _, _ => rfl
  | (label, kind) :: rest, es, h => by
    have hkey : label.wire ≠ key := h _ List.mem_cons_self
    have hfield : readField label kind ((.text key, w) :: es) = readField label kind es := by
      unfold readField
      rw [Value.lookup_other hkey.symm]
    rw [readFields_cons, readFields_cons, hfield, readFields_cons_other fun f hf => h f (List.mem_cons_of_mem _ hf)]

theorem absent_of_lossless {kind : Kind} (h : kind.isLossless = true) : kind.absent = .null := by
  cases kind <;> first | rfl | cases h

mutual

/-- What is read is none at all, where that is allowed, or its wire form is read as the same. -/
theorem read_returns : ∀ (kind : Kind) {v r : Value}, kind.isLossless = true → v.IsPlain → kind.read v = .ok r →
    (kind.isOpenable = true ∧ r = .null) ∨ kind.Returns r
  | .integer, v, r, _, hv, h => by
    rw [read] at h
    exact .inr (readInteger_returns hv h)
  | .number, v, r, _, _, h => by
    rw [read] at h
    exact .inr (readNumber_returns h)
  | .text, v, r, _, hv, h => by
    rw [read] at h
    exact .inr (readText_returns hv h)
  | .content, v, r, _, _, h => by
    rw [read] at h
    exact .inr (readContent_returns h)
  | .flag, v, r, _, _, h => by
    rw [read] at h
    exact .inr (readFlag_returns h)
  | .time, v, r, _, _, h => by
    rw [read] at h
    exact (readTime_returns h).imp (fun hr => ⟨rfl, hr⟩) id
  | .duration, v, r, _, _, h => by
    rw [read] at h
    exact .inr (readDuration_returns h)
  | .member domain, v, r, _, _, h => by
    rw [read] at h
    exact .inr (readMember_returns h)
  | .any, _, _, hk, _, _ => by cases hk
  | .listOrEmpty _, _, _, hk, _, _ => by cases hk
  | .listOf kind, v, r, hk, hv, h => by
    obtain ⟨vs, rs, rfl, hrs, rfl⟩ := read_list_ok h
    have hitem := lossless_list.mp hk
    refine .inr (list_returns fun r hr => ?_)
    obtain ⟨x, hx, hread⟩ := mapM_ok hrs r hr
    rcases read_returns kind hitem.2 (hv.items x hx) hread with ⟨hopen, -⟩ | hreturns
    · rw [hitem.1] at hopen
      cases hopen
    · exact hreturns
  | .record model fields, v, r, hk, hv, h => by
    obtain ⟨es, fs, rfl, hfs, rfl⟩ := read_record_ok h
    have hfields := lossless_record hk
    obtain ⟨out, hout, hback, -⟩ := readFields_return fields hfields.2 hfields.1 (fun _ _ => hv.lookup) hfs
    refine .inr ⟨.mapping out, ?_, rfl, ?_⟩
    · rw [Wire.write, hout]
      rfl
    · rw [read_record, hback]
      rfl

theorem readFields_return : ∀ (fields : List (Label × Kind)) {es : List (Value × Value)} {fs : List (Label × Value)},
    allLossless fields = true → (fields.map fun f => f.1.wire).Nodup →
    (∀ key v, Value.lookup? key es = some v → v.IsPlain) → readFields fields es = .ok fs →
    ∃ out, Wire.writeFields fs = .ok out ∧ readFields fields out = .ok fs ∧
      ∀ key, (∀ f ∈ fields, f.1.wire ≠ key) → Value.lookup? key out = none
  | [], es, fs, _, _, _, h => by
    cases h
    exact ⟨[], rfl, rfl, fun _ _ => rfl⟩
  | (label, kind) :: rest, es, fs, hk, hn, hes, h => by
    have hlossless := lossless_cons hk
    obtain ⟨hfresh, hrest⟩ := List.nodup_cons.mp hn
    have hother : ∀ f ∈ rest, f.1.wire ≠ label.wire := fun f hf heq =>
      hfresh (List.mem_map.mpr ⟨f, hf, heq⟩)
    rw [readFields_cons] at h
    obtain ⟨v, hv, h⟩ := bind_ok h
    obtain ⟨vs, hvs, h⟩ := bind_ok h
    cases h
    obtain ⟨out, hout, hback, hnone⟩ := readFields_return rest hlossless.2 hrest hes hvs
    have hfield : v = .null ∨ kind.Returns v := by
      rcases readField_cases label kind es with ⟨-, hr⟩ | ⟨-, hr⟩ | ⟨x, hx, -, hr⟩
      · rw [hr, absent_of_lossless hlossless.1] at hv
        exact .inl (Except.ok.inj hv).symm
      · rw [hr] at hv
        exact .inl (Except.ok.inj hv).symm
      · rw [hr] at hv
        exact (read_returns kind hlossless.1 (hes _ x hx) hv).imp And.right id
    -- a field that is left open is not written, and no later field is written under its name
    rcases hfield with rfl | hreturns
    · refine ⟨out, by rw [Wire.writeFields_open, hout], ?_, ?_⟩
      · rw [readFields_cons, readField_absent (hnone _ hother), absent_of_lossless hlossless.1, hback]
        rfl
      · intro key hkey
        exact hnone key fun f hf => hkey f (List.mem_cons_of_mem _ hf)
    · have hheld : v.isNull = false := hreturns.not_null
      obtain ⟨w, hw, hnull, hread⟩ := hreturns
      refine ⟨(.text label.wire, w) :: out, Wire.writeFields_held hheld hw hout, ?_, ?_⟩
      · rw [readFields_cons, readField_present (Value.lookup_first _ _ _) hnull, hread, readFields_cons_other hother,
          hback]
        rfl
      · intro key hkey
        rw [Value.lookup_other (hkey _ List.mem_cons_self)]
        exact hnone key fun f hf => hkey f (List.mem_cons_of_mem _ hf)

end

theorem readFields_held : ∀ {fields : List (Label × Kind)} {es : List (Value × Value)} {fs : List (Label × Value)},
    allLossless fields = true → readFields fields es = .ok fs → ∀ f ∈ fs, f.2.isNull = false →
      ∃ v, Value.lookup? f.1.wire es = some v
  | [], es, fs, _, h, f, hf, _ => by
    cases h
    cases hf
  | (label, kind) :: rest, es, fs, hk, h, f, hf, hheld => by
    have hlossless := lossless_cons hk
    rw [readFields_cons] at h
    obtain ⟨v, hv, h⟩ := bind_ok h
    obtain ⟨vs, hvs, h⟩ := bind_ok h
    cases h
    rcases List.mem_cons.mp hf with rfl | hf
    · rcases readField_cases label kind es with ⟨-, hr⟩ | ⟨hx, -⟩ | ⟨x, hx, -, -⟩
      · rw [hr, absent_of_lossless hlossless.1] at hv
        cases hv
        cases hheld
      · exact ⟨_, hx⟩
      · exact ⟨x, hx⟩
    · exact readFields_held hlossless.2 hvs f hf hheld

end Kind

namespace Model

theorem isLossless : ∀ m ∈ all, m.name ≠ torrentGetResponse.name → m.kind.isLossless = true := by
  decide +kernel

/-- The fields that were read from the entries, and the entries they are written as. -/
structure RoundTrip (m : Model) (es : List (Value × Value)) (fs : List (Label × Value))
    (out : List (Value × Value)) : Prop where
  labels : fs.map Prod.fst = m.labels
  written : Wire.write (.record m.name fs) = .ok (.mapping out)
  keys : out.map Prod.fst = (fs.filter fun f => !f.2.isNull).map fun f => .text f.1.wire
  distinct : (out.map Prod.fst).Nodup
  known : out.map Prod.fst ⊆ es.map Prod.fst
  read : m.read (.mapping out) = .ok (.record m.name fs)

theorem written_instance_returns {m : Model} (hm : m ∈ all) (hname : m.name ≠ torrentGetResponse.name)
    {es : List (Value × Value)} (hes : (Value.mapping es).IsPlain) {r : Value} (hr : m.read (.mapping es) = .ok r) :
    ∃ fs out, r = .record m.name fs ∧ m.RoundTrip es fs out := by
  have hlossless : (m.fields.map fun f => f.1.wire).Nodup ∧ Kind.allLossless m.fields = true := by
    simpa [kind, Kind.isLossless] using isLossless m hm hname
  obtain ⟨es', fs, hes', hfs, rfl⟩ := Kind.read_record_ok hr
  cases hes'
  obtain ⟨out, hout, hback, -⟩ := Kind.readFields_return m.fields hlossless.2 hlossless.1 (fun _ _ => hes.lookup) hfs
  have hlabels : fs.map Prod.fst = m.labels := Kind.readFields_labels hfs
  have hkeys := Wire.writeFields_keys hout
  refine ⟨fs, out, rfl, ⟨hlabels, ?_, hkeys, ?_, ?_, ?_⟩⟩
  · rw [Wire.write, hout]
    rfl
  · have hwires : (fs.map fun f => f.1.wire).Nodup := by
      have hnames := congrArg (List.map Label.wire) hlabels
      rw [labels, List.map_map, List.map_map] at hnames
      rw [show (fs.map fun f => f.1.wire) = m.fields.map fun f => f.1.wire from hnames]
      exact hlossless.1
    exact Wire.writeFields_distinct hwires hout
  · intro key hkey
    rw [hkeys] at hkey
    obtain ⟨f, hf, rfl⟩ := List.mem_map.mp hkey
    obtain ⟨hmem, hheld⟩ := List.mem_filter.mp hf
    obtain ⟨v, hv⟩ := Kind.readFields_held hlossless.2 hfs f hmem (by simpa using hheld)
    exact hes.key_mem hv
  · rw [Model.read, kind, Kind.read_record, hback]
    rfl

def sampleFields : List (String × Value) := [
  ("id", .int 7), ("addedDate", .int 1500000000), ("doneDate", .int 0), ("eta", .int (-1)),
  ("percentDone", .int 1), ("pieces", .text "AQI="), ("status", .int 4), ("wanted", .list [.int 1, .bool false]),
  ("files", .list [Value.ofFields [("length", .int 3), ("name", .text "a")]]), ("other", .null)]

theorem sample_isPlain : (Value.ofFields sampleFields).IsPlain := by
  have htext (s : String) : (Value.text s).IsPlain := .leaf trivial
  have hint (n : Int) : (Value.int n).IsPlain := .leaf trivial
  have hwanted : (Value.list [.int 1, .bool false]).IsPlain := by
    refine .list (List.forall_mem_cons.mpr ⟨hint _, ?_⟩)
    exact List.forall_mem_singleton.mpr (.leaf trivial)
  have hfile : (Value.ofFields [("length", .int 3), ("name", .text "a")]).IsPlain := by
    refine .mapping (by decide) (List.forall_mem_cons.mpr ⟨hint _, ?_⟩)
    exact List.forall_mem_singleton.mpr (htext "a")
  have hfiles : (Value.list [Value.ofFields [("length", .int 3), ("name", .text "a")]]).IsPlain :=
    .list (List.forall_mem_singleton.mpr hfile)
  refine .mapping (by decide) ?_
  simp only [sampleFields, List.forall_mem_cons, List.not_mem_nil, false_implies, implies_true, and_true]
  exact ⟨hint _, hint _, hint _, hint _, hint _, htext _,
    hint _, hwanted, hfiles, .leaf trivial⟩

theorem sample_torrent_returns : ∃ r fs out, torrent.read (Value.ofFields sampleFields) = .ok r ∧
    r = .record "Torrent" fs ∧ torrent.RoundTrip (sampleFields.map fun f => (.text f.1, f.2)) fs out := by
  have hok : (torrent.read (Value.ofFields sampleFields)).isOk = true := by decide +kernel
  cases hr : torrent.read (Value.ofFields sampleFields) with
  | error e =>
    rw [hr] at hok
    cases hok
  | ok r =>
    obtain ⟨fs, out, hfs, hround⟩ := written_instance_returns (by simp [all]) (by decide) sample_isPlain hr
    exact ⟨r, fs, out, rfl, hfs, hround⟩

end Model

end TorrentRemote
