import TorrentRemote.Proofs.Request.ChangeSet
import TorrentRemote.Proofs.Value.Equivalence

/-!
# Settings with a guard

Lists of files, the modes of seeding limits and the encryption are checked when they are set, so that no other
values of theirs are sent. What is given by name when a change set is made is not checked, and is sent as it is
unless the setting is set later (`ChangeSet.guarded_settings_sent`).
-/

namespace TorrentRemote

namespace Setting

def fileKeys : List String :=
  ["files-wanted", "files-unwanted", "priority-high", "priority-low", "priority-normal"]

def modeKeys : List String :=
  ["seedIdleMode", "seedRatioMode"]

def guardedKeys : List String :=
  fileKeys ++ modeKeys ++ ["encryption"]

theorem guarded_ne_ids {key : String} (h : key ∈ guardedKeys) : key ≠ "ids" := by
  rintro rfl
  exact absurd h (by decide)

/-- What may be sent under a guarded key. -/
inductive Admits : String → Value → Prop
  | files {key : String} {ns : List Nat} : key ∈ fileKeys → Admits key (.list (ns.map fun n : Nat => .int n))
  | mode {key : String} {n : Int} : key ∈ modeKeys → n ∈ [0, 1, 2] → Admits key (.int n)
  | encryption {s : String} : s ∈ ["required", "preferred", "tolerated"] → Admits "encryption" (.text s)

/-- A value that a guarded setting can be set to, and what is sent then. -/
inductive Takes : String → Value → Value → Prop
  | files {key : String} {v : Value} {items : List Value} {ns : List Nat} : key ∈ fileKeys → v.toItems = .ok items →
      items.map Value.int? = (ns.map fun n : Nat => some (n : Int)) → Takes key v (.list (ns.map fun n : Nat => .int n))
  | mode {key : String} {v : Value} {n : Int} : key ∈ modeKeys → n ∈ [0, 1, 2] → (Value.int n).same v = true →
      Takes key v (.int n)
  | encryption {v : Value} {s : String} : s ∈ ["required", "preferred", "tolerated"] →
      (Value.text s).same v = true → Takes "encryption" v (.text s)

theorem Takes.admits {key : String} {v w : Value} (h : Takes key v w) : Admits key w := by
  cases h with
  | files hkey _ _ => exact .files hkey
  | mode hkey hn _ => exact .mode hkey hn
  | encryption hs _ => exact .encryption hs

theorem Admits.indices {key : String} {w : Value} (h : Admits key w) {items : List Value} (hw : w = .list items) :
    ∀ item ∈ items, ∃ n : Nat, item = .int n := by
  cases h with
  | files _ =>
    cases hw
    intro item hitem
    obtain ⟨n, -, hn⟩ := List.mem_map.mp hitem
    exact ⟨n, hn.symm⟩
  | mode _ _ | encryption _ => cases hw

theorem guard_keys (kind : ChangeKind) : ∀ s ∈ kind.settings, (s.label.wire ∈ fileKeys ↔ s.intake = .fileIndices) ∧
    (s.label.wire ∈ modeKeys ↔ s.intake = .member .mode) ∧
    (s.label.wire = "encryption" ↔ s.intake = .member .encryption) := by
  cases kind <;> decide +kernel

theorem guarded_cases {kind : ChangeKind} {s : Setting} (hs : s ∈ kind.settings) (hkey : s.label.wire ∈ guardedKeys) :
    (s.label.wire ∈ fileKeys ∧ s.intake = .fileIndices) ∨ (s.label.wire ∈ modeKeys ∧ s.intake = .member .mode) ∨
      (s.label.wire = "encryption" ∧ s.intake = .member .encryption) := by
  obtain ⟨hfile, hmode, hword⟩ := guard_keys kind s hs
  simp only [guardedKeys, List.mem_append, List.mem_singleton] at hkey
  rcases hkey with (hkey | hkey) | hkey
  · exact .inl ⟨hkey, hfile.mp hkey⟩
  · exact .inr (.inl ⟨hkey, hmode.mp hkey⟩)
  · exact .inr (.inr ⟨hkey, hword.mp hkey⟩)

end Setting

namespace Intake

/-! ## Lists of files -/

theorem isFileIndex_iff {v : Value} : isFileIndex v = true ↔ ∃ n : Nat, v.int? = some (n : Int) := by
  unfold isFileIndex
  cases v.int? with
  | none => simp
  | some m =>
    simp only [decide_eq_true_eq, Option.some.injEq]
    exact ⟨fun hm => ⟨m.toNat, (Int.toNat_of_nonneg hm).symm⟩, fun ⟨n, hn⟩ => hn ▸ Int.natCast_nonneg n⟩

theorem toFileIndices_ok {v kept : Value} : toFileIndices v = .ok kept ↔
    ∃ items, v.toItems = .ok items ∧ (∀ item ∈ items, isFileIndex item = true) ∧ kept = .list items := by
  unfold toFileIndices
  cases v.toItems with
  | error e => simp [bind, Except.bind]
  | ok items =>
    rw [ok_bind]
    cases hfind : items.find? fun item => !isFileIndex item with
    | none =>
      have hall : ∀ item ∈ items, isFileIndex item = true := by simpa using hfind
      constructor
      · intro h
        exact ⟨items, rfl, hall, (Except.ok.inj h).symm⟩
      · rintro ⟨items', hitems, -, rfl⟩
        cases hitems
        rfl
    | some item =>
      have hbad : isFileIndex item = false := by simpa using List.find?_some hfind
      constructor
      · intro h
        cases h
      · intro ⟨items', hitems, hall, _⟩
        cases hitems
        rw [hall item (List.mem_of_find?_eq_some hfind)] at hbad
        cases hbad

theorem indices_iff {items : List Value} : (∀ item ∈ items, isFileIndex item = true) ↔
    ∃ ns : List Nat, items.map Value.int? = ns.map fun n : Nat => some (n : Int) := by
  induction items with
  | nil => exact iff_of_true (by simp) ⟨[], rfl⟩
  | cons item items ih =>
    rw [List.forall_mem_cons, ih, isFileIndex_iff]
    constructor
    · intro ⟨⟨n, hn⟩, ns, hns⟩
      exact ⟨n :: ns, by rw [List.map_cons, List.map_cons, hn, hns]⟩
    · intro ⟨ns, hns⟩
      cases ns with
      | nil => cases hns
      | cons n ns =>
        obtain ⟨hn, hns⟩ := List.cons.inj hns
        exact ⟨⟨n, hn⟩, ns, hns⟩

theorem write_index {v : Value} {n : Int} (h : v.int? = some n) : Wire.write v = .ok (.int n) := by
  cases v with
  | int m =>
    cases h
    rfl
  | member m =>
    cases hcode : m.code with
    | number k =>
      simp only [Value.int?, hcode] at h
      rw [Wire.write, hcode, Option.some.inj h]
    | word s =>
      simp only [Value.int?, hcode] at h
      cases h
  | _ => cases h

theorem writeAll_indices : ∀ {items : List Value} {ns : List Nat},
    items.map Value.int? = (ns.map fun n : Nat => some (n : Int)) →
      Wire.writeAll items = .ok (ns.map fun n : Nat => .int n)
  | [], [], _ => rfl
  | item :: items, n :: ns, h => by
    obtain ⟨hn, hns⟩ := List.cons.inj h
    rw [Wire.writeAll, write_index hn, writeAll_indices hns]
    rfl

/-! ## Members of domains -/

theorem members_apart (domain : Domain) : ∀ m ∈ domain.members, ∀ m' ∈ domain.members,
    (Value.member m).same (.member m') = true → m = m' := by
  cases domain <;> decide +kernel

theorem toMember_ok {domain : Domain} {v : Value} {m : Member} :
    v.toMember domain = .ok m ↔ m ∈ domain.members ∧ (Value.member m).same v = true := by
  unfold Value.toMember
  cases hfind : domain.members.find? fun m' => (Value.member m').same v with
  | none =>
    have hnone := List.find?_eq_none.mp hfind
    constructor
    · intro h
      cases h
    · intro ⟨hm, hsame⟩
      exact absurd hsame (hnone m hm)
  | some m' =>
    have hm' := List.mem_of_find?_eq_some hfind
    have hsame' : (Value.member m').same v = true := by simpa using List.find?_some hfind
    constructor
    · intro h
      cases h
      exact ⟨hm', hsame'⟩
    · intro ⟨hm, hsame⟩
      have hmm : (Value.member m).same (.member m') = true :=
        Value.same_trans _ hsame (Value.same_symm _ rfl hsame')
      rw [members_apart domain m hm m' hm' hmm]

end Intake

namespace Setting

/-! ## What guards let through -/

section
variable {given : List Value} {w : Value}

theorem files_sent : (∃ v, Intake.fileIndices.take given = .ok v ∧ Wire.write v = .ok w) ↔
    ∃ items, ∃ ns : List Nat, (given.headD .null).toItems = .ok items ∧
      items.map Value.int? = (ns.map fun n : Nat => some (n : Int)) ∧ w = .list (ns.map fun n : Nat => .int n) := by
  constructor
  · intro ⟨kept, hkept, hw⟩
    obtain ⟨items, hitems, hall, rfl⟩ := Intake.toFileIndices_ok.mp hkept
    obtain ⟨ns, hns⟩ := Intake.indices_iff.mp hall
    rw [Wire.write, Intake.writeAll_indices hns] at hw
    exact ⟨items, ns, hitems, hns, (Except.ok.inj hw).symm⟩
  · intro ⟨items, ns, hitems, hns, hw⟩
    have hall := Intake.indices_iff.mpr ⟨ns, hns⟩
    refine ⟨.list items, Intake.toFileIndices_ok.mpr ⟨items, hitems, hall, rfl⟩, ?_⟩
    rw [Wire.write, Intake.writeAll_indices hns, hw]
    rfl

theorem member_sent {domain : Domain} : (∃ v, (Intake.member domain).take given = .ok v ∧ Wire.write v = .ok w) ↔
    ∃ m ∈ domain.members, (Value.member m).same (given.headD .null) = true ∧ Wire.write (.member m) = .ok w := by
  constructor
  · intro ⟨v, hv, hw⟩
    obtain ⟨m, hm, rfl⟩ := map_ok hv
    obtain ⟨hmem, hsame⟩ := Intake.toMember_ok.mp hm
    exact ⟨m, hmem, hsame, hw⟩
  · intro ⟨m, hmem, hsame, hw⟩
    have hm : (given.headD .null).toMember domain = .ok m := Intake.toMember_ok.mpr ⟨hmem, hsame⟩
    exact ⟨.member m, congrArg (Except.map Value.member) hm, hw⟩

theorem mode_sent {v : Value} : (∃ m ∈ Domain.mode.members, (Value.member m).same v = true ∧
    Wire.write (.member m) = .ok w) ↔ ∃ n ∈ [(0 : Int), 1, 2], (Value.int n).same v = true ∧ w = .int n := by
  have hsame : ∀ m : Mode, (Value.member (.mode m)).same v = (Value.int m.code).same v := by
    intro m
    rfl
  simp [Domain.members, Wire.write, Member.code, hsame, Mode.code, @eq_comm _ w]

theorem word_sent {v : Value} : (∃ m ∈ Domain.encryption.members, (Value.member m).same v = true ∧
    Wire.write (.member m) = .ok w) ↔
      ∃ s ∈ ["required", "preferred", "tolerated"], (Value.text s).same v = true ∧ w = .text s := by
  have hsame : ∀ e : Encryption, (Value.member (.encryption e)).same v = (Value.text e.word).same v := by
    intro e
    rfl
  simp [Domain.members, Wire.write, Member.code, hsame, Encryption.word, @eq_comm _ w]

end

section
variable {kind : ChangeKind} {s : Setting} (hs : s ∈ kind.settings) (hkey : s.label.wire ∈ guardedKeys)
  {given : List Value}
include hs

theorem takes_iff {w : Value} (hkey : s.label.wire ∈ guardedKeys) :
    (∃ v, s.intake.take given = .ok v ∧ Wire.write v = .ok w) ↔ Takes s.label.wire (given.headD .null) w := by
  constructor
  · intro h
    rcases guarded_cases hs hkey with ⟨hkey, hintake⟩ | ⟨hkey, hintake⟩ | ⟨hkey, hintake⟩
    · rw [hintake, files_sent] at h
      obtain ⟨items, ns, hitems, hns, rfl⟩ := h
      exact .files hkey hitems hns
    · rw [hintake, member_sent, mode_sent] at h
      obtain ⟨n, hn, hsame, rfl⟩ := h
      exact .mode hkey hn hsame
    · rw [hintake, member_sent, word_sent] at h
      obtain ⟨word, hmem, hsame, rfl⟩ := h
      rw [hkey]
      exact .encryption hmem hsame
  · intro h
    obtain ⟨hfile, hmode, hword⟩ := guard_keys kind s hs
    generalize s.label.wire = key at hfile hmode hword h
    cases h with
    | files hkey hitems hns =>
      rw [hfile.mp hkey, files_sent]
      exact ⟨_, _, hitems, hns, rfl⟩
    | mode hkey hn hsame =>
      rw [hmode.mp hkey, member_sent, mode_sent]
      exact ⟨_, hn, hsame, rfl⟩
    | encryption hmem hsame =>
      rw [hword.mp rfl, member_sent, word_sent]
      exact ⟨_, hmem, hsame, rfl⟩

include hkey

theorem guarded_written {v : Value} (h : s.intake.take given = .ok v) :
    v.isNull = false ∧ ∃ w, Wire.write v = .ok w := by
  have hmember : ∀ domain, (Intake.member domain).take given = .ok v →
      v.isNull = false ∧ ∃ w, Wire.write v = .ok w := by
    intro domain h
    obtain ⟨m, -, rfl⟩ := map_ok h
    obtain ⟨w, hw, -⟩ := Wire.write_member m
    exact ⟨rfl, w, hw⟩
  rcases guarded_cases hs hkey with ⟨-, hintake⟩ | ⟨-, hintake⟩ | ⟨-, hintake⟩
  · rw [hintake] at h
    obtain ⟨items, -, hall, rfl⟩ := Intake.toFileIndices_ok.mp h
    obtain ⟨ns, hns⟩ := Intake.indices_iff.mp hall
    exact ⟨rfl, _, by rw [Wire.write, Intake.writeAll_indices hns]; rfl⟩
  · rw [hintake] at h
    exact hmember _ h
  · rw [hintake] at h
    exact hmember _ h

end

end Setting

namespace ChangeSet

/-! ## The last call of a setting -/

def lastCall? (calls : List (String × List Value)) (part : String) : Option (List Value) :=
  (calls.reverse.find? fun call => call.1 = Request.operationName part).map Prod.snd

theorem operationName_inj {part part' : String} :
    Request.operationName part = Request.operationName part' ↔ part = part' := by
  constructor
  · intro h
    rw [← Request.drop_operationName part, h, Request.drop_operationName]
  · intro h
    rw [h]

theorem lastCall?_cons (part' : String) (given : List Value) (calls : List (String × List Value)) (part : String) :
    lastCall? ((Request.operationName part', given) :: calls) part =
      (lastCall? calls part).or (if part' = part then some given else none) := by
  unfold lastCall?
  rw [List.reverse_cons, List.find?_append, List.find?_singleton]
  simp only [operationName_inj, decide_eq_true_eq]
  cases calls.reverse.find? fun call => call.1 = Request.operationName part with
  | some call => rfl
  | none => by_cases h : part' = part <;> simp [h]

section
variable {kind : ChangeKind} {s : Setting} (hs : s ∈ kind.settings) {given : List Value} {w : Write}
include hs

theorem stores_setting : Stores kind given s.label.name w ↔
    ∃ v, s.intake.take given = .ok v ∧ w = .value s.label.name v := by
  constructor
  · intro h
    have hparts : ∀ part ∈ ["ids", "cookies_list", "cookies_map"], s.label.name ≠ part := by
      rintro part hpart rfl
      exact kind.names_not_parts _ hpart (List.mem_map.mpr ⟨s, hs, rfl⟩)
    simp only [List.forall_mem_cons] at hparts
    obtain ⟨hids, hlist, hmap, -⟩ := hparts
    generalize hname : s.label.name = name at h hids hlist hmap
    cases h with
    | ids _ => exact absurd rfl hids
    | cookieList _ _ => exact absurd rfl hlist
    | cookieMap _ _ => exact absurd rfl hmap
    | @setting s' v hs' hv =>
      obtain rfl := List.inj_on_of_nodup_map kind.names_nodup hs hs' hname
      exact ⟨v, hv, rfl⟩
  · intro ⟨v, hv, hw⟩
    rw [hw]
    exact .setting hs hv

theorem stores_other (hkey : s.label.wire ∈ Setting.guardedKeys) {part : String} (h : Stores kind given part w)
    (hpart : part ≠ s.label.name) : w.value? s.label.name = none := by
  have hcookies : ∀ s ∈ kind.settings, s.label.wire ∈ Setting.guardedKeys → "cookies" ≠ s.label.name := by
    cases kind <;> decide +kernel
  cases h with
  | ids _ => rfl
  | cookieList _ _ | cookieMap _ _ => exact if_neg (hcookies s hs hkey)
  | setting _ _ => exact if_neg hpart

theorem lastValue_called (hkey : s.label.wire ∈ Setting.guardedKeys) {calls : List (String × List Value)}
    {later : List Write} (h : StoresAll kind calls later) (ws : List Write) :
    (∀ g, lastCall? calls s.label.name = some g → s.intake.take g = .ok (lastValue (ws ++ later) s.label.name)) ∧
      (lastCall? calls s.label.name = none → lastValue (ws ++ later) s.label.name = lastValue ws s.label.name) := by
  induction h generalizing ws with
  | nil =>
    refine ⟨fun g hg => ?_, fun _ => ?_⟩
    · cases hg
    · rw [List.append_nil]
  | @cons call w calls later hfirst _ ih =>
    obtain ⟨operation, g⟩ := call
    obtain ⟨part, hoperation, hstores⟩ := hfirst
    obtain ⟨hcalled, hkept⟩ := ih (ws ++ [w])
    rw [List.append_assoc, List.singleton_append] at hcalled hkept
    rw [lastValue_append] at hkept
    obtain rfl : operation = Request.operationName part := hoperation
    rw [lastCall?_cons]
    by_cases hpart : part = s.label.name
    · rw [hpart] at hstores
      obtain ⟨v, hv, rfl⟩ := (stores_setting hs).mp hstores
      rw [if_pos hpart]
      cases hlast : lastCall? calls s.label.name with
      | some g' =>
        refine ⟨fun g'' hg => ?_, fun hnone => ?_⟩
        · cases hg
          exact hcalled g' hlast
        · cases hnone
      | none =>
        refine ⟨fun g'' hg => ?_, fun hnone => ?_⟩
        · cases hg
          rw [hkept hlast, hv]
          simp [Write.value?]
        · cases hnone
    · rw [stores_other hs hkey hstores hpart] at hkept
      rw [if_neg hpart, Option.or_none]
      exact ⟨hcalled, hkept⟩

end

/-! ## What is sent -/

theorem arguments_ok {c : ChangeSet} {sent : Value} (h : c.arguments = .ok sent) :
    ∃ es checked, Wire.writeFields c.values = .ok es ∧ (c.kind = .torrent → Identifier.checkAll c.ids = .ok checked) ∧
      sent = .mapping (es ++ idsEntry c.kind checked) := by
  have hfields : ∃ es, Wire.writeFields c.values = .ok es := by
    obtain ⟨es, hes, -⟩ := bind_ok h
    exact ⟨es, mapError_ok hes⟩
  obtain ⟨es, hes⟩ := hfields
  have hchecked : ∃ checked, c.kind = .torrent → Identifier.checkAll c.ids = .ok checked := by
    by_cases hkind : c.kind = .torrent
    · unfold arguments at h
      obtain ⟨es, -, h⟩ := bind_ok h
      simp only [hkind] at h
      obtain ⟨checked, hchecked, -⟩ := bind_ok h
      exact ⟨checked, fun _ => hchecked⟩
    · exact ⟨none, fun h => absurd h hkind⟩
  obtain ⟨checked, hchecked⟩ := hchecked
  rw [arguments_eq c hchecked, hes] at h
  exact ⟨es, checked, hes, hchecked, (Except.ok.inj h).symm⟩

theorem SentAs.setting_of_lookup {kind : ChangeKind} {ids : List Value} {last : String → Value}
    {checked : Option (List Value)} {es : List (Value × Value)} (h : SentAs kind ids last checked es) {key : String}
    {w : Value} (hkey : key ≠ "ids") (hw : Value.lookup? key es = some w) :
    ∃ s ∈ changedSettings kind last, s.label.wire = key := by
  obtain ⟨k, hk, hmem⟩ := Value.mem_of_lookup hw
  have hmem : k ∈ es.map Prod.fst := List.mem_map.mpr ⟨_, hmem, rfl⟩
  rw [h.keys, List.mem_append] at hmem
  rcases hmem with hmem | hmem
  · obtain ⟨s, hs, rfl⟩ := List.mem_map.mp hmem
    exact ⟨s, hs, Option.some.inj hk⟩
  · split at hmem
    · rw [List.mem_singleton.mp hmem] at hk
      exact absurd (Option.some.inj hk).symm hkey
    · cases hmem

/-- What stands under the key of a guarded setting: what its last call takes, or else the value given by name,
which nobody has looked at. -/
structure SentFor (given : List (String × Value)) (calls : List (String × List Value)) (s : Setting)
    (es : List (Value × Value)) : Prop where
  called : ∀ g, lastCall? calls s.label.name = some g →
    ∃ w, Setting.Takes s.label.wire (g.headD .null) w ∧ Value.lookup? s.label.wire es = some w
  unchecked : lastCall? calls s.label.name = none →
    (lastValue (named given) s.label.name = .null ∧ Value.lookup? s.label.wire es = none) ∨
    (lastValue (named given) s.label.name ≠ .null ∧
      ∃ w, Wire.write (lastValue (named given) s.label.name) = .ok w ∧ Value.lookup? s.label.wire es = some w)

theorem sentFor_of_sentAs {kind : ChangeKind} {ids : List Value} {given : List (String × Value)}
    {calls : List (String × List Value)} {later : List Write} {checked : Option (List Value)}
    {es : List (Value × Value)} (hlater : StoresAll kind calls later)
    (hes : SentAs kind ids (lastValue (named given ++ later)) checked es) {s : Setting} (hs : s ∈ kind.settings)
    (hkey : s.label.wire ∈ Setting.guardedKeys) : SentFor given calls s es := by
  obtain ⟨hcalled, hkept⟩ := lastValue_called hs hkey hlater (named given)
  have hheld : (lastValue (named given ++ later) s.label.name).isNull = false →
      ∃ w, Wire.write (lastValue (named given ++ later) s.label.name) = .ok w ∧
        Value.lookup? s.label.wire es = some w :=
    fun hheld => hes.values s (List.mem_filter.mpr ⟨hs, by simp [hheld]⟩)
  have hopen : (lastValue (named given ++ later) s.label.name).isNull = true →
      Value.lookup? s.label.wire es = none := by
    intro hnull
    cases hw : Value.lookup? s.label.wire es with
    | none => rfl
    | some w =>
      obtain ⟨s', hs', hwire⟩ := hes.setting_of_lookup (Setting.guarded_ne_ids hkey) hw
      obtain ⟨hmem, hchanged⟩ := List.mem_filter.mp hs'
      obtain rfl := List.inj_on_of_nodup_map (List.nodup_append.mp kind.wires_nodup).1 hmem hs hwire
      rw [hnull] at hchanged
      cases hchanged
  refine ⟨fun g hg => ?_, fun hnone => ?_⟩
  · obtain ⟨hnull, -⟩ := Setting.guarded_written hs hkey (hcalled g hg)
    obtain ⟨w, hw, hlookup⟩ := hheld hnull
    exact ⟨w, (Setting.takes_iff hs hkey).mp ⟨_, hcalled g hg, hw⟩, hlookup⟩
  · rw [hkept hnone] at hheld hopen
    by_cases hnull : lastValue (named given) s.label.name = .null
    · exact .inl ⟨hnull, hopen (by rw [hnull]; rfl)⟩
    · exact .inr ⟨hnull, hheld (by simpa using mt Value.isNull_eq_true.mp hnull)⟩

theorem call_guarded {c : ChangeSet} {s : Setting} (hs : s ∈ c.kind.settings)
    (hkey : s.label.wire ∈ Setting.guardedKeys) (g : List Value) :
    (∃ r, (Request.change c).call (Request.operationName s.label.name) g = .ok r) ↔
      ∃ w, Setting.Takes s.label.wire (g.headD .null) w := by
  constructor
  · intro ⟨r, hr⟩
    obtain ⟨part, hpart, hset⟩ := Request.call_ok.mp hr
    rw [← operationName_inj.mp hpart] at hset
    obtain ⟨w, hw, -⟩ := set_change_ok.mp hset
    obtain ⟨v, hv, -⟩ := (stores_setting hs).mp hw
    obtain ⟨-, w, hw⟩ := Setting.guarded_written hs hkey hv
    exact ⟨w, (Setting.takes_iff hs hkey).mp ⟨v, hv, hw⟩⟩
  · intro ⟨w, hw⟩
    obtain ⟨v, hv, -⟩ := (Setting.takes_iff hs hkey).mpr hw
    have hstores : Stores c.kind g s.label.name (.value s.label.name v) := .setting hs hv
    exact ⟨_, Request.call_ok.mpr ⟨_, rfl, set_change_ok.mpr ⟨_, hstores, rfl⟩⟩⟩

/-- The value given by name is none, or one that may be sent. -/
def KeywordAdmitted (given : List (String × Value)) (s : Setting) : Prop :=
  lastValue (named given) s.label.name = .null ∨
    ∃ w, Wire.write (lastValue (named given) s.label.name) = .ok w ∧ Setting.Admits s.label.wire w

theorem SentFor.admitted_iff {given : List (String × Value)} {calls : List (String × List Value)} {s : Setting}
    {es : List (Value × Value)} (h : SentFor given calls s es) :
    (∀ w, Value.lookup? s.label.wire es = some w → Setting.Admits s.label.wire w) ↔
      (lastCall? calls s.label.name = none → KeywordAdmitted given s) := by
  cases hlast : lastCall? calls s.label.name with
  | some g =>
    obtain ⟨w, htakes, hlookup⟩ := h.called g hlast
    refine iff_of_true (fun w' hw' => ?_) fun hnone => ?_
    · cases hw'.symm.trans hlookup
      exact htakes.admits
    · cases hnone
  | none =>
    rcases h.unchecked hlast with ⟨hnull, hlookup⟩ | ⟨hheld, w, hw, hlookup⟩
    · refine iff_of_true (fun w hw => ?_) fun _ => .inl hnull
      rw [hlookup] at hw
      cases hw
    · constructor
      · intro hall _
        exact .inr ⟨w, hw, hall w hlookup⟩
      · intro hkeyword w' hw'
        cases hw'.symm.trans hlookup
        rcases hkeyword rfl with hnull | ⟨w'', hw'', hadmits⟩
        · exact absurd hnull hheld
        · cases hw.symm.trans hw''
          exact hadmits

/-- A setter of a guarded setting takes the values of its domain and no other. What is sent under the guarded keys
is of their domains exactly if that holds of the values given by name that no setter has replaced. -/
theorem guarded_settings_sent {kind : ChangeKind} {ids : List Value} {given : List (String × Value)} {made : ChangeSet}
    {calls : List (String × List Value)} {r : Request} (hmade : make kind ids given = .ok made)
    (hcalls : (Request.change made).callAll calls = .ok r) :
    (∀ s ∈ kind.settings, s.label.wire ∈ Setting.guardedKeys → ∀ g,
      (∃ r', r.call (Request.operationName s.label.name) g = .ok r') ↔
        ∃ w, Setting.Takes s.label.wire (g.headD .null) w) ∧
    ∀ sent, r.arguments = .ok sent → ∃ es, sent = .mapping es ∧
      (∀ s ∈ kind.settings, s.label.wire ∈ Setting.guardedKeys → SentFor given calls s es) ∧
      ((∀ key ∈ Setting.guardedKeys, ∀ w, Value.lookup? key es = some w → Setting.Admits key w) ↔
        ∀ s ∈ kind.settings, s.label.wire ∈ Setting.guardedKeys → lastCall? calls s.label.name = none →
          KeywordAdmitted given s) := by
  obtain rfl := make_ok hmade
  obtain ⟨later, hlater, rfl⟩ := callAll_ok.mp hcalls
  refine ⟨fun s hs hkey g => call_guarded hs hkey g, fun sent hsent => ?_⟩
  obtain ⟨es, checked, hes, hchecked, rfl⟩ := arguments_ok hsent
  have hsentAs := sentAs_of_written hchecked hes
  have hsentFor := fun s hs hkey => sentFor_of_sentAs hlater hsentAs (s := s) hs hkey
  refine ⟨_, rfl, hsentFor, ?_⟩
  constructor
  · intro h s hs hkey
    exact (hsentFor s hs hkey).admitted_iff.mp (h _ hkey)
  · intro h key hkey w hw
    obtain ⟨s, hs, rfl⟩ := hsentAs.setting_of_lookup (Setting.guarded_ne_ids hkey) hw
    have hs := (List.mem_filter.mp hs).1
    exact (hsentFor s hs hkey).admitted_iff.mpr (h s hs hkey) w hw

/-- An encryption that does not exist and is replaced before it is sent. -/
theorem guarded_settings_sent_replaced : ∃ made r es, make .session [] [("encryption", .text "none")] = .ok made ∧
    (Request.change made).callAll [("with_encryption", [.text "preferred"])] = .ok r ∧
    r.arguments = .ok (.mapping es) ∧
    ∃ w, Setting.Takes "encryption" (.text "preferred") w ∧ Value.lookup? "encryption" es = some w := by
  have hsetting : (⟨⟨"encryption", "encryption"⟩, .member .encryption⟩ : Setting) ∈ ChangeKind.session.settings :=
    List.mem_of_getElem? (i := 14) rfl
  have hlater : StoresAll .session [("with_encryption", [.text "preferred"])]
      [.value "encryption" (.member (.encryption .preferred))] :=
    .cons ⟨"encryption", rfl, .setting hsetting rfl⟩ .nil
  have hcalls := hlater.callAll [] (named [("encryption", .text "none")])
  have hmade : make .session [] [("encryption", .text "none")] =
      .ok (settled .session [] (named [("encryption", .text "none")])) := rfl
  obtain ⟨es, hes, hsentFor, -⟩ := (guarded_settings_sent hmade hcalls).2 _ rfl
  have hlast : lastCall? [("with_encryption", [.text "preferred"])] "encryption" = some [.text "preferred"] :=
    lastCall?_cons "encryption" _ [] _
  exact ⟨_, _, es, hmade, hcalls, congrArg Except.ok hes, (hsentFor _ hsetting (by decide)).called _ hlast⟩

/-- An index that no setter takes is sent when it is given by name. -/
theorem unchecked_index_sent : ∃ made, make .torrent [.int 1] [("files_wanted", .list [.int (-1)])] = .ok made ∧
    (Request.change made).arguments =
      .ok (Value.ofFields [("files-wanted", .list [.int (-1)]), ("ids", .list [.int 1])]) ∧
    ¬ ∀ (kind : ChangeKind) (ids : List Value) (given : List (String × Value)) (made : ChangeSet)
      (calls : List (String × List Value)) (r : Request) (es : List (Value × Value)), make kind ids given = .ok made →
        (Request.change made).callAll calls = .ok r → r.arguments = .ok (.mapping es) →
        ∀ key ∈ Setting.guardedKeys, ∀ w, Value.lookup? key es = some w → Setting.Admits key w := by
  refine ⟨_, rfl, rfl, fun h => ?_⟩
  have hadmits := h .torrent [.int 1] [("files_wanted", .list [.int (-1)])] _ [] _ _ rfl rfl rfl "files-wanted"
    (by decide) (.list [.int (-1)]) rfl
  obtain ⟨n, hn⟩ := hadmits.indices rfl _ List.mem_cons_self
  cases hn

end ChangeSet

end TorrentRemote
