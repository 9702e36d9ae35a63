import Mathlib.Data.List.Nodup
import TorrentRemote.Envelope
import TorrentRemote.Proofs.Value.Tree
import TorrentRemote.Proofs.Wire
import TorrentRemote.Request.Named

/-!
# What a change set has come to

Making a change set and setting its parts store values one after another. What is sent depends on nothing
but the value that each setting has been given last, and on the last identifiers: `ChangeSet.sends_last_values`.
-/

namespace TorrentRemote

/-! ## Tables of settings -/

namespace ChangeKind

def names (kind : ChangeKind) : List String :=
  kind.settings.map fun s => s.label.name

def wires (kind : ChangeKind) : List String :=
  kind.settings.map fun s => s.label.wire

theorem names_nodup (kind : ChangeKind) : kind.names.Nodup := by
  cases kind <;> decide +kernel

/-- No two settings go by one name on the wire, and none by that of the identifiers. -/
theorem wires_nodup (kind : ChangeKind) : (kind.wires ++ ["ids"]).Nodup := by
  cases kind <;> decide +kernel

theorem names_not_parts (kind : ChangeKind) : ∀ part ∈ ["ids", "cookies_list", "cookies_map"], part ∉ kind.names := by
  cases kind <;> decide +kernel

end ChangeKind

namespace ChangeSet

theorem setting_eq_some {c : ChangeSet} {name : String} {s : Setting} :
    c.setting? name = some s ↔ s ∈ c.kind.settings ∧ s.label.name = name := by
  unfold setting?
  constructor
  · intro h
    exact ⟨List.mem_of_find?_eq_some h, by simpa using List.find?_some h⟩
  · rintro ⟨hs, rfl⟩
    cases h : c.kind.settings.find? fun s' => s'.label.name = s.label.name with
    | none => simpa using List.find?_eq_none.mp h s hs
    | some s' =>
      have hname : s'.label.name = s.label.name := by simpa using List.find?_some h
      exact congrArg some (List.inj_on_of_nodup_map c.kind.names_nodup (List.mem_of_find?_eq_some h) hs hname)

/-! ## What is stored -/

/-- What a step in the making of a change set stores. -/
inductive Write where
  | ids (given : List Value)
  | value (name : String) (v : Value)

namespace Write

def field : Write → Option String
  | .ids _ => none
  | .value name _ => some name

def apply (w : Write) (c : ChangeSet) : ChangeSet :=
  match w with
  | .ids given => { c with ids := given }
  | .value name v => c.set name v

end Write

section
variable {c c' : ChangeSet} {given : List Value}

theorem withIds_ok : c.withIds given = .ok c' ↔ c.kind = .torrent ∧ c' = (Write.ids given).apply c := by
  unfold withIds
  cases hkind : c.kind with
  | torrent => simp [Write.apply, hkind, eq_comm]
  | session | newTorrent => simp

theorem withCookies_ok {pairs : List (Value × Value)} : c.withCookies pairs = .ok c' ↔
    Value.entriesHaveText pairs = true ∧ c' = (Write.value "cookies" (.text (cookieText pairs))).apply c := by
  unfold withCookies
  cases Value.entriesHaveText pairs <;> simp [Write.apply, eq_comm]

theorem withCookieList_ok : c.withCookieList given = .ok c' ↔
    ∃ pairs, pairUp? given = some pairs ∧ Value.entriesHaveText pairs = true ∧
      c' = (Write.value "cookies" (.text (cookieText pairs))).apply c := by
  unfold withCookieList
  cases pairUp? given <;> simp [withCookies_ok]

theorem withCookieMap_ok {cookies : Value} : c.withCookieMap cookies = .ok c' ↔
    ∃ entries, cookies = .mapping entries ∧ Value.entriesHaveText entries = true ∧
      c' = (Write.value "cookies" (.text (cookieText entries))).apply c := by
  unfold withCookieMap
  cases cookies <;> simp [withCookies_ok]

theorem write_ok {name : String} {s : Setting} (hs : c.setting? name = some s) : c.write name given = .ok c' ↔
    ∃ v, s.intake.take given = .ok v ∧ c' = (Write.value name v).apply c := by
  rw [write, hs]
  constructor
  · intro h
    obtain ⟨v, hv, rfl⟩ := map_ok h
    exact ⟨v, hv, rfl⟩
  · rintro ⟨v, hv, rfl⟩
    simp only [hv]
    rfl

end

/-- What is stored when a part is set to the values given. -/
inductive Stores (kind : ChangeKind) (given : List Value) : String → Write → Prop
  | ids : kind = .torrent → Stores kind given "ids" (.ids given)
  | cookieList {pairs : List (Value × Value)} : kind = .newTorrent → pairUp? given = some pairs →
      Value.entriesHaveText pairs = true →
      Stores kind given "cookies_list" (.value "cookies" (.text (cookieText pairs)))
  | cookieMap {entries : List (Value × Value)} : kind = .newTorrent → given.headD .null = .mapping entries →
      Value.entriesHaveText entries = true →
      Stores kind given "cookies_map" (.value "cookies" (.text (cookieText entries)))
  | setting {s : Setting} {v : Value} : s ∈ kind.settings → s.intake.take given = .ok v →
      Stores kind given s.label.name (.value s.label.name v)

section
variable {c : ChangeSet} {part : String} {given : List Value} {w : Write} {r : Request}

theorem Stores.set (h : Stores c.kind given part w) :
    (Request.change c).set part given = .ok (.change (w.apply c)) := by
  unfold Request.set
  cases h with
  | ids hkind =>
    dsimp only
    rw [if_pos rfl, withIds_ok.mpr ⟨hkind, rfl⟩]
    rfl
  | cookieList hkind hpairs htext =>
    dsimp only
    rw [if_neg (by decide), if_pos ⟨rfl, hkind⟩, withCookieList_ok.mpr ⟨_, hpairs, htext, rfl⟩]
    rfl
  | cookieMap hkind hentries htext =>
    dsimp only
    rw [if_neg (by decide), if_neg (by simp), if_pos ⟨rfl, hkind⟩, withCookieMap_ok.mpr ⟨_, hentries, htext, rfl⟩]
    rfl
  | @setting s v hs hv =>
    have hname : s.label.name ∈ c.kind.names := List.mem_map.mpr ⟨s, hs, rfl⟩
    have hpart : ∀ part ∈ ["ids", "cookies_list", "cookies_map"], s.label.name ≠ part := by
      rintro part hpart rfl
      exact c.kind.names_not_parts _ hpart hname
    simp only [List.forall_mem_cons] at hpart
    obtain ⟨hids, hlist, hmap, -⟩ := hpart
    have hsetting : c.setting? s.label.name = some s := setting_eq_some.mpr ⟨hs, rfl⟩
    have hwrite := (write_ok hsetting).mpr ⟨v, hv, rfl⟩
    simp only [hids, hlist, hmap, hsetting, hwrite, false_and, if_false, Option.isSome_some, if_true]
    rfl

theorem stores_of_set (h : (Request.change c).set part given = .ok r) :
    ∃ w, Stores c.kind given part w ∧ r = .change (w.apply c) := by
  unfold Request.set at h
  dsimp only at h
  split at h
  · next hpart =>
    obtain ⟨c', hc', rfl⟩ := map_ok h
    obtain ⟨hkind, rfl⟩ := withIds_ok.mp hc'
    exact ⟨_, hpart ▸ .ids hkind, rfl⟩
  split at h
  · next hpart =>
    obtain ⟨rfl, hkind⟩ := hpart
    obtain ⟨c', hc', rfl⟩ := map_ok h
    obtain ⟨pairs, hpairs, htext, rfl⟩ := withCookieList_ok.mp hc'
    exact ⟨_, .cookieList hkind hpairs htext, rfl⟩
  split at h
  · next hpart =>
    obtain ⟨rfl, hkind⟩ := hpart
    obtain ⟨c', hc', rfl⟩ := map_ok h
    obtain ⟨entries, hentries, htext, rfl⟩ := withCookieMap_ok.mp hc'
    exact ⟨_, .cookieMap hkind hentries htext, rfl⟩
  split at h
  · next hsome =>
    obtain ⟨s, hs⟩ := Option.isSome_iff_exists.mp hsome
    obtain ⟨c', hc', rfl⟩ := map_ok h
    obtain ⟨v, hv, rfl⟩ := (write_ok hs).mp hc'
    obtain ⟨hmem, rfl⟩ := setting_eq_some.mp hs
    exact ⟨_, .setting hmem hv, rfl⟩
  · cases h

/-- Setting a part stores what the part stands for, and there is no other way to succeed. -/
theorem set_change_ok : (Request.change c).set part given = .ok r ↔
    ∃ w, Stores c.kind given part w ∧ r = .change (w.apply c) := by
  constructor
  · exact stores_of_set
  · rintro ⟨w, hw, rfl⟩
    exact hw.set

end

end ChangeSet

/-! ## Operations by name -/

namespace Request

theorem drop_operationName (part : String) :
    ((operationName part).drop (operationName "").length).toString = part := by
  apply String.toList_inj.mp
  rw [String.Slice.toString_eq, String.toList_copy_drop, operationName, operationName, String.append_empty,
    String.toList_append, ← String.length_toList, List.drop_left]

theorem call_operationName (r : Request) (part : String) (given : List Value) :
    r.call (operationName part) given = r.set part given := by
  have hstart : (operationName part).startsWith (operationName "") = true := by
    apply String.startsWith_string_iff.mpr
    rw [operationName, operationName, String.append_empty, String.toList_append]
    exact List.prefix_append _ _
  unfold call
  dsimp only
  rw [if_pos hstart, drop_operationName]

theorem call_ok {r r' : Request} {operation : String} {given : List Value} : r.call operation given = .ok r' ↔
    ∃ part, operation = operationName part ∧ r.set part given = .ok r' := by
  constructor
  · intro h
    unfold call at h
    dsimp only at h
    split at h
    · next hstart =>
      obtain ⟨tail, htail⟩ := String.startsWith_string_iff.mp hstart
      have hpart : operation = operationName (String.ofList tail) := by
        apply String.toList_inj.mp
        rw [← htail, operationName, operationName, String.append_empty, String.toList_append]
        exact congrArg _ String.toList_ofList.symm
      rw [hpart, drop_operationName] at h
      exact ⟨_, hpart, h⟩
    · cases h
  · rintro ⟨part, rfl, h⟩
    rw [call_operationName, h]

end Request

namespace ChangeSet

/-! ## Last values -/

namespace Write

def value? (name : String) : Write → Option Value
  | .ids _ => none
  | .value field v => if field = name then some v else none

def ids? : Write → Option (List Value)
  | .ids given => some given
  | .value _ _ => none

end Write

/-- The value that a setting has been given last, or null. -/
def lastValue (ws : List Write) (name : String) : Value :=
  (ws.reverse.findSome? (Write.value? name)).getD .null

/-- The identifiers that have been given last, those at the start included. -/
def lastIds (ids : List Value) (ws : List Write) : List Value :=
  (ws.reverse.findSome? Write.ids?).getD ids

theorem lastValue_append (ws : List Write) (w : Write) (name : String) :
    lastValue (ws ++ [w]) name = (w.value? name).getD (lastValue ws name) := by
  unfold lastValue
  rw [List.reverse_append, List.reverse_singleton, List.singleton_append, List.findSome?_cons]
  cases w.value? name <;> rfl

theorem lastIds_append (ids : List Value) (ws : List Write) (w : Write) :
    lastIds ids (ws ++ [w]) = w.ids?.getD (lastIds ids ws) := by
  unfold lastIds
  rw [List.reverse_append, List.reverse_singleton, List.singleton_append, List.findSome?_cons]
  cases w.ids? <;> rfl

/-- The change set that some writes leave: it remembers nothing but the last of them. -/
def settled (kind : ChangeKind) (ids : List Value) (ws : List Write) : ChangeSet :=
  ⟨kind, lastIds ids ws, kind.settings.map fun s => (s.label, lastValue ws s.label.name)⟩

theorem apply_settled (kind : ChangeKind) (ids : List Value) (ws : List Write) (w : Write) :
    w.apply (settled kind ids ws) = settled kind ids (ws ++ [w]) := by
  cases w with
  | ids given => simp [settled, Write.apply, lastIds_append, lastValue_append, Write.ids?, Write.value?]
  | value name v =>
    have hput : put name v (kind.settings.map fun s => (s.label, lastValue ws s.label.name)) =
        kind.settings.map fun s => (s.label, lastValue (ws ++ [.value name v]) s.label.name) := by
      rw [put, List.map_map]
      apply List.map_congr_left
      intro s _
      by_cases h : s.label.name = name
      · simp [lastValue_append, Write.value?, h]
      · have hne : name ≠ s.label.name := fun heq => h heq.symm
        simp [lastValue_append, Write.value?, h, hne]
    simp only [settled, Write.apply, set, hput, lastIds_append, Write.ids?, Option.getD_none]

theorem settled_foldl (kind : ChangeKind) (ids : List Value) (later ws : List Write) :
    later.foldl (fun c w => w.apply c) (settled kind ids ws) = settled kind ids (ws ++ later) := by
  induction later generalizing ws with
  | nil => simp
  | cons w later ih => simp [apply_settled, ih]

def named (given : List (String × Value)) : List Write :=
  given.map fun g => .value g.1 g.2

theorem make_ok {kind : ChangeKind} {ids : List Value} {given : List (String × Value)} {c : ChangeSet}
    (h : make kind ids given = .ok c) : c = settled kind ids (named given) := by
  have hempty : settled kind ids [] = { empty kind with ids } := rfl
  have hfold := settled_foldl kind ids (named given) []
  rw [hempty, List.nil_append, named, List.foldl_map] at hfold
  unfold make at h
  dsimp only at h
  split at h
  · cases h
    exact hfold
  · cases h

def StoresAll (kind : ChangeKind) : List (String × List Value) → List Write → Prop :=
  List.Forall₂ fun call w => ∃ part, call.1 = Request.operationName part ∧ Stores kind call.2 part w

theorem callAll_ok {kind : ChangeKind} {ids : List Value} {r : Request} : ∀ {calls : List (String × List Value)}
    {ws : List Write}, (Request.change (settled kind ids ws)).callAll calls = .ok r ↔
      ∃ later, StoresAll kind calls later ∧ r = .change (settled kind ids (ws ++ later))
  | [], ws => by
    rw [Request.callAll]
    constructor
    · intro h
      cases h
      exact ⟨[], .nil, by rw [List.append_nil]⟩
    · rintro ⟨later, hlater, rfl⟩
      cases hlater
      rw [List.append_nil]
  | (operation, given) :: calls, ws => by
    rw [Request.callAll]
    constructor
    · intro h
      obtain ⟨r', hcall, hrest⟩ := bind_ok h
      obtain ⟨part, hpart, hset⟩ := Request.call_ok.mp hcall
      obtain ⟨w, hw, rfl⟩ := set_change_ok.mp hset
      rw [apply_settled] at hrest
      obtain ⟨later, hlater, rfl⟩ := callAll_ok.mp hrest
      refine ⟨w :: later, .cons ⟨part, hpart, hw⟩ hlater, ?_⟩
      rw [List.append_assoc, List.singleton_append]
    · rintro ⟨later, hlater, rfl⟩
      cases hlater with
      | @cons _ w _ later hfirst hlater =>
        obtain ⟨part, hpart, hw⟩ := hfirst
        have hcall : (Request.change (settled kind ids ws)).call operation given =
            .ok (.change (settled kind ids (ws ++ [w]))) := by
          rw [← apply_settled]
          exact Request.call_ok.mpr ⟨part, hpart, set_change_ok.mpr ⟨w, hw, rfl⟩⟩
        rw [hcall]
        refine callAll_ok.mpr ⟨later, hlater, ?_⟩
        rw [List.append_assoc, List.singleton_append]

theorem StoresAll.callAll {kind : ChangeKind} {calls : List (String × List Value)} {later : List Write}
    (h : StoresAll kind calls later) (ids : List Value) (ws : List Write) :
    (Request.change (settled kind ids ws)).callAll calls = .ok (.change (settled kind ids (ws ++ later))) :=
  callAll_ok.mpr ⟨later, h, rfl⟩

/-! ## Two writes -/

section
variable {w w' : Write}

theorem apply_comm (h : w.field ≠ w'.field) (c : ChangeSet) : w'.apply (w.apply c) = w.apply (w'.apply c) := by
  cases w with
  | ids given =>
    cases w' with
    | ids given' => exact absurd rfl h
    | value name' v' => rfl
  | value name v =>
    cases w' with
    | ids given' => rfl
    | value name' v' =>
      have hne : name ≠ name' := fun heq => h (congrArg some heq)
      have hput : put name' v' (put name v c.values) = put name v (put name' v' c.values) := by
        simp only [put, List.map_map]
        apply List.map_congr_left
        rintro ⟨label, old⟩ -
        by_cases hname : label.name = name <;> by_cases hname' : label.name = name' <;> simp_all
      simp only [Write.apply, set, hput]

theorem apply_replaced (h : w.field = w'.field) (c : ChangeSet) : w'.apply (w.apply c) = w'.apply c := by
  cases w with
  | ids given =>
    cases w' with
    | ids given' => rfl
    | value name' v' => cases h
  | value name v =>
    cases w' with
    | ids given' => cases h
    | value name' v' =>
      obtain rfl : name = name' := Option.some.inj h
      have hput : put name v' (put name v c.values) = put name v' c.values := by
        simp only [put, List.map_map]
        apply List.map_congr_left
        rintro ⟨label, old⟩ -
        by_cases hname : label.name = name <;> simp [hname]
      simp only [Write.apply, set, hput]

theorem apply_kind (w : Write) (c : ChangeSet) : (w.apply c).kind = c.kind := by
  cases w <;> rfl

end

/-- Setting a part makes the write that the values given stand for. Parts that write to different settings can
be set in either order, and of parts that write to the same setting the later one counts. -/
structure SetsApart (c : ChangeSet) : Prop where
  set : ∀ {part given r}, (Request.change c).set part given = .ok r ↔
    ∃ w, Stores c.kind given part w ∧ r = .change (w.apply c)
  commute : ∀ {part part' given given' w w'}, Stores c.kind given part w → Stores c.kind given' part' w' →
    w.field ≠ w'.field → ((Request.change c).set part given).bind (fun r => r.set part' given') =
      ((Request.change c).set part' given').bind fun r => r.set part given
  replace : ∀ {part part' given given' w w'}, Stores c.kind given part w → Stores c.kind given' part' w' →
    w.field = w'.field → ((Request.change c).set part given).bind (fun r => r.set part' given') =
      (Request.change c).set part' given'
  repeated : ∀ {part given r}, (Request.change c).set part given = .ok r → r.set part given = .ok r

theorem sets_apart (c : ChangeSet) : c.SetsApart := by
  have htwo : ∀ {part part' given given' w w'}, Stores c.kind given part w → Stores c.kind given' part' w' →
      ((Request.change c).set part given).bind (fun r => r.set part' given') =
        .ok (.change (w'.apply (w.apply c))) := by
    intro part part' given given' w w' hw hw'
    rw [hw.set]
    rw [← apply_kind w c] at hw'
    exact hw'.set
  refine ⟨set_change_ok, fun hw hw' hne => ?_, fun hw hw' heq => ?_, fun {part given r} h => ?_⟩
  · rw [htwo hw hw', htwo hw' hw, apply_comm hne]
  · rw [htwo hw hw', hw'.set, apply_replaced heq]
  · obtain ⟨w, hw, rfl⟩ := stores_of_set h
    have htwice := htwo hw hw
    rw [hw.set, apply_replaced rfl] at htwice
    exact htwice

/-! ## What is sent -/

def changedSettings (kind : ChangeKind) (last : String → Value) : List Setting :=
  kind.settings.filter fun s => !(last s.label.name).isNull

/-- The entries under which last values are sent, and the identifiers behind them. -/
structure SentAs (kind : ChangeKind) (ids : List Value) (last : String → Value) (checked : Option (List Value))
    (es : List (Value × Value)) : Prop where
  keys : es.map Prod.fst = ((changedSettings kind last).map fun s => .text s.label.wire) ++
    if kind = .torrent ∧ ids ≠ [] then [.text "ids"] else []
  distinct : (es.map Prod.fst).Nodup
  values : ∀ s ∈ changedSettings kind last, ∃ w, Wire.write (last s.label.name) = .ok w ∧
    Value.lookup? s.label.wire es = some w
  ids : kind = .torrent → Value.lookup? "ids" es = checked.map .list

/-- What is sent of a change set in which each setting has a value last. -/
structure Sends (kind : ChangeKind) (ids : List Value) (last : String → Value) (c : ChangeSet) : Prop where
  changed : c.changedNames = (changedSettings kind last).map fun s => s.label.name
  sent : ∀ {checked}, (kind = .torrent → Identifier.checkAll ids = .ok checked) →
    (∀ s ∈ kind.settings, ¬ Wire.Unwritable (last s.label.name)) →
    ∃ es, c.arguments = .ok (.mapping es) ∧ SentAs kind ids last checked es
  unwritten : ∀ s ∈ kind.settings, Wire.Unwritable (last s.label.name) →
    c.arguments = .error (.writing .beforeCalendar)

theorem checkAll_ok {ids : List Value} {checked : Option (List Value)} (h : Identifier.checkAll ids = .ok checked) :
    checked.isSome = true ↔ ids ≠ [] := by
  cases ids with
  | nil =>
    cases h
    simp
  | cons v vs =>
    obtain ⟨vs', -, rfl⟩ := map_ok h
    simp

theorem settled_wires (kind : ChangeKind) (ids : List Value) (ws : List Write) :
    ((settled kind ids ws).values.map fun f => f.1.wire) = kind.wires := by
  rw [settled, List.map_map]
  rfl

theorem settled_changed (kind : ChangeKind) (ids : List Value) (ws : List Write) :
    (settled kind ids ws).changes =
      (changedSettings kind (lastValue ws)).map fun s => (s.label, lastValue ws s.label.name) := by
  rw [changes, settled, List.filter_map]
  rfl

theorem settled_keys {kind : ChangeKind} {ids : List Value} {ws : List Write} {es : List (Value × Value)}
    (h : Wire.writeFields (settled kind ids ws).values = .ok es) :
    es.map Prod.fst = ((changedSettings kind (lastValue ws)).map fun s => s.label.wire).map .text := by
  have hchanged := settled_changed kind ids ws
  rw [changes] at hchanged
  rw [Wire.writeFields_keys h, hchanged, List.map_map, List.map_map]
  rfl

theorem changedSettings_wires (kind : ChangeKind) (last : String → Value) :
    ((changedSettings kind last).map fun s => s.label.wire).Sublist kind.wires :=
  List.filter_sublist.map _

def idsEntry (kind : ChangeKind) (checked : Option (List Value)) : List (Value × Value) :=
  if kind = .torrent then (checked.map fun ids => (.text "ids", .list ids)).toList else []

theorem arguments_eq (c : ChangeSet) {checked : Option (List Value)}
    (h : c.kind = .torrent → Identifier.checkAll c.ids = .ok checked) : c.arguments =
      ((Wire.writeFields c.values).mapError .writing).map fun es => .mapping (es ++ idsEntry c.kind checked) := by
  have hother : ∀ es, Value.mapping es = .mapping (es ++ []) := fun es => by rw [List.append_nil]
  unfold arguments
  cases Wire.writeFields c.values with
  | error e => rfl
  | ok es =>
    cases hkind : c.kind with
    | torrent =>
      simp only [h hkind]
      rfl
    | session => exact congrArg Except.ok (hother es)
    | newTorrent => exact congrArg Except.ok (hother es)

theorem idsEntry_keys (kind : ChangeKind) {ids : List Value} {checked : Option (List Value)}
    (h : kind = .torrent → Identifier.checkAll ids = .ok checked) :
    (idsEntry kind checked).map Prod.fst = if kind = .torrent ∧ ids ≠ [] then [.text "ids"] else [] := by
  unfold idsEntry
  by_cases hkind : kind = .torrent
  · have hsome := checkAll_ok (h hkind)
    cases checked with
    | none => simp_all
    | some ids' => simp_all
  · simp [hkind]

theorem sentAs_of_written {kind : ChangeKind} {ids : List Value} {ws : List Write} {checked : Option (List Value)}
    {es : List (Value × Value)} (hids : kind = .torrent → Identifier.checkAll (lastIds ids ws) = .ok checked)
    (hes : Wire.writeFields (settled kind ids ws).values = .ok es) :
    SentAs kind (lastIds ids ws) (lastValue ws) checked (es ++ idsEntry kind checked) := by
  have hnodup := kind.wires_nodup
  have hwires : ((settled kind ids ws).values.map fun f => f.1.wire).Nodup := by
    rw [settled_wires]
    exact (List.nodup_append.mp hnodup).1
  have hkeys := settled_keys hes
  have hsub := changedSettings_wires kind (lastValue ws)
  have hother : Value.lookup? "ids" es = none := by
    apply Value.lookup_none
    intro k hk htext
    rw [hkeys] at hk
    obtain ⟨wire, hwire, rfl⟩ := List.mem_map.mp hk
    obtain rfl : wire = "ids" := Option.some.inj htext
    exact (List.nodup_append.mp hnodup).2.2 _ (hsub.subset hwire) _ List.mem_cons_self rfl
  refine ⟨?_, ?_, fun s hs => ?_, fun hkind => ?_⟩
  · rw [List.map_append, hkeys, idsEntry_keys kind hids, List.map_map]
    rfl
  · rw [List.map_append, hkeys, idsEntry_keys kind hids]
    split
    · have htexts := Value.texts_nodup (hnodup.sublist (hsub.append (List.Sublist.refl ["ids"])))
      rwa [List.map_append] at htexts
    · rw [List.append_nil]
      exact Value.texts_nodup ((List.nodup_append.mp hnodup).1.sublist hsub)
  · obtain ⟨hmem, hheld⟩ := List.mem_filter.mp hs
    have hvalue : (s.label, lastValue ws s.label.name) ∈ (settled kind ids ws).values := List.mem_map.mpr ⟨s, hmem, rfl⟩
    obtain ⟨w, hw, hlookup⟩ := Wire.writeFields_lookup hwires hes hvalue (by simpa using hheld)
    exact ⟨w, hw, by rw [Value.lookup_append, hlookup, Option.some_or]⟩
  · rw [Value.lookup_append, hother, Option.none_or, idsEntry, if_pos hkind]
    cases checked <;> rfl

theorem settled_sends (kind : ChangeKind) (ids : List Value) (ws : List Write) :
    Sends kind (lastIds ids ws) (lastValue ws) (settled kind ids ws) := by
  refine ⟨?_, fun {checked} hids hwritable => ?_, fun s hs hun => ?_⟩
  · rw [changedNames, settled_changed, List.map_map]
    rfl
  · obtain ⟨es, hes⟩ : ∃ es, Wire.writeFields (settled kind ids ws).values = .ok es := by
      apply Wire.writeFields_ok
      intro f hf
      obtain ⟨s, hs, rfl⟩ := List.mem_map.mp hf
      exact Wire.write_ok_iff.mpr (hwritable s hs)
    have harguments := arguments_eq (settled kind ids ws) hids
    rw [hes] at harguments
    exact ⟨_, harguments, sentAs_of_written hids hes⟩
  · have hfields : Wire.writeFields (settled kind ids ws).values = .error .beforeCalendar :=
      Wire.writeFields_error (List.mem_map.mpr ⟨s, hs, rfl⟩) hun.write_error
    rw [arguments, hfields]
    rfl

end ChangeSet

def Request.body (r : Request) (tag : Int) : Except Failure String := do
  let arguments ← r.arguments
  Envelope.encode r.method arguments (.int tag)

namespace ChangeSet

theorem settled_congr {kind : ChangeKind} {ids ids' : List Value} {ws ws' : List Write}
    (hids : lastIds ids' ws' = lastIds ids ws)
    (hvalues : ∀ s ∈ kind.settings, lastValue ws' s.label.name = lastValue ws s.label.name) :
    settled kind ids' ws' = settled kind ids ws := by
  have hmap : (kind.settings.map fun s => (s.label, lastValue ws' s.label.name)) =
      kind.settings.map fun s => (s.label, lastValue ws s.label.name) :=
    List.map_congr_left fun s hs => by rw [hvalues s hs]
  rw [settled, settled, hids, hmap]

theorem sends_last_values {kind : ChangeKind} {ids : List Value} {given : List (String × Value)} {made : ChangeSet}
    {calls : List (String × List Value)} {r : Request} (hmade : make kind ids given = .ok made)
    (hcalls : (Request.change made).callAll calls = .ok r) :
    (∃ later, StoresAll kind calls later) ∧ ∀ later, StoresAll kind calls later → ∃ c, r = .change c ∧ c.kind = kind ∧
      Sends kind (lastIds ids (named given ++ later)) (lastValue (named given ++ later)) c ∧ c.SetsApart ∧
      ∀ {ids' given' made' calls' r' later'}, make kind ids' given' = .ok made' →
        (Request.change made').callAll calls' = .ok r' → StoresAll kind calls' later' →
        lastIds ids' (named given' ++ later') = lastIds ids (named given ++ later) →
        (∀ s ∈ kind.settings, lastValue (named given' ++ later') s.label.name =
          lastValue (named given ++ later) s.label.name) →
        r' = r ∧ ∀ tag, r'.body tag = r.body tag := by
  -- where the calls end depends on the last values alone, and not on the way there
  have hsettled : ∀ {ids given made calls r later}, make kind ids given = .ok made →
      (Request.change made).callAll calls = .ok r → StoresAll kind calls later →
        r = .change (settled kind ids (named given ++ later)) := by
    intro ids given made calls r later hmade hcalls hlater
    obtain rfl := make_ok hmade
    rw [hlater.callAll] at hcalls
    exact (Except.ok.inj hcalls).symm
  constructor
  · obtain rfl := make_ok hmade
    obtain ⟨later, hlater, -⟩ := callAll_ok.mp hcalls
    exact ⟨later, hlater⟩
  intro later hlater
  refine ⟨_, hsettled hmade hcalls hlater, rfl, settled_sends kind ids _, sets_apart _, ?_⟩
  intro ids' given' made' calls' r' later' hmade' hcalls' hlater' hids hvalues
  have hsame : r' = r := by
    rw [hsettled hmade hcalls hlater, hsettled hmade' hcalls' hlater', settled_congr hids hvalues]
  exact ⟨hsame, fun tag => by rw [hsame]⟩

/-- A location that is set and taken back, a limit of zero and a list without labels. -/
theorem sends_last_values_sample : ∃ made r c es,
    make .torrent [] [("location", .text "/a"), ("download_limit", .int 0)] = .ok made ∧
    (Request.change made).callAll [("with_labels", [.list []]), ("with_location", [.null]), ("with_ids", [.int 7])] =
      .ok r ∧ r = .change c ∧ c.changedNames = ["download_limit", "labels"] ∧ c.arguments = .ok (.mapping es) ∧
    es.map Prod.fst = [.text "downloadLimit", .text "labels", .text "ids"] := by
  have hmade : make .torrent [] [("location", .text "/a"), ("download_limit", .int 0)] =
      .ok (settled .torrent [] (named [("location", .text "/a"), ("download_limit", .int 0)])) := by rfl
  have hlater : StoresAll .torrent [("with_labels", [.list []]), ("with_location", [.null]), ("with_ids", [.int 7])]
      [.value "labels" (.list []), .value "location" .null, .ids [.int 7]] := by
    refine .cons ⟨"labels", rfl, ?_⟩ (.cons ⟨"location", rfl, ?_⟩ (.cons ⟨"ids", rfl, .ids rfl⟩ .nil))
    · exact .setting (s := ⟨⟨"labels", "labels"⟩, .copied⟩) (by simp [ChangeKind.settings, Setting.ofTorrent]) rfl
    · exact .setting (s := .plain "location" "location") (by simp [ChangeKind.settings, Setting.ofTorrent]) rfl
  have hcalls := hlater.callAll [] (named [("location", .text "/a"), ("download_limit", .int 0)])
  obtain ⟨c, hc, -, hsends, -⟩ := (sends_last_values hmade hcalls).2 _ hlater
  have hwritten : ∀ s ∈ ChangeKind.torrent.settings, (Wire.write (lastValue
      (named [("location", .text "/a"), ("download_limit", .int 0)] ++
        [.value "labels" (.list []), .value "location" .null, .ids [.int 7]]) s.label.name)).isOk = true := by
    decide +kernel
  obtain ⟨es, harguments, hes⟩ := hsends.sent (fun _ => rfl) fun s hs hun => by
    have hok := hwritten s hs
    rw [hun.write_error] at hok
    cases hok
  exact ⟨_, _, c, es, hmade, hcalls, hc, hsends.changed, harguments, hes.keys⟩

end ChangeSet

end TorrentRemote
