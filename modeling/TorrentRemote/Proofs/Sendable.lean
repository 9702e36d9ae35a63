import TorrentRemote.Proofs.Json.Uncarried
import TorrentRemote.Proofs.Model.Instance
import TorrentRemote.Proofs.Value.Equivalence
import TorrentRemote.Proofs.Wire.Outline

/-!
# Values that can be sent

Plain data, the scalars that have a wire form, decoded instances, and lists, tuples and mappings of them have a
wire form that is plain data of the same outline, and JSON carries it exactly if there is no number in the value
that JSON cannot carry (`Value.sendable_sent`).
-/

namespace TorrentRemote

/-! ## Counts of seconds -/

namespace Binary64

theorem truncate_lt {x : Binary64} {n : Int} (h : x.truncate? = some n) : n.natAbs < units topRank := by
  unfold truncate? at h
  split at h
  · next hfinite =>
    cases h
    cases x with
    | nan mark => cases hfinite
    | ranked negative rank =>
      rw [Int.natAbs_tdiv, Int.natAbs_natCast]
      exact Nat.lt_of_le_of_lt (Nat.div_le_self _ _) ((isFinite_iff negative rank).mp hfinite)
  · cases h

/-- The exponents are variables because the powers are too large to be evaluated. -/
theorem two_pow_le_ten_pow {a b c : Nat} (h : a + b ≤ c) : 2 ^ a * 2 ^ b ≤ 10 ^ c :=
  calc 2 ^ a * 2 ^ b = 2 ^ (a + b) := (Nat.pow_add 2 a b).symm
    _ ≤ 10 ^ (a + b) := Nat.pow_le_pow_left (by decide) _
    _ ≤ 10 ^ c := Nat.pow_le_pow_right (by decide) h

theorem units_topRank_le : units topRank ≤ 10 ^ Numeral.digitLimit := by
  have hrank : topRank = 2046 * binade + binade := by
    unfold topRank
    omega
  have hbinade : binade = 2 ^ 52 := rfl
  have hscale : ∀ k, 52 + k ≤ Numeral.digitLimit → binade * 2 ^ k ≤ 10 ^ Numeral.digitLimit := by
    intro k hk
    rw [hbinade]
    exact two_pow_le_ten_pow hk
  rw [hrank, units_of_digits 2046 (Nat.le_refl _) (by decide)]
  exact hscale 2046 (by decide)

end Binary64

theorem wholeSeconds_hasDigits (micros : Int) : Value.HasDigits (wholeSeconds micros) := by
  unfold wholeSeconds
  cases h : (Binary64.ofRatio (micros < 0) micros.natAbs microsPerSecond.natAbs).truncate? with
  | none => decide
  | some n =>
    have hlt := Nat.lt_of_lt_of_le (Binary64.truncate_lt h) Binary64.units_topRank_le
    exact (Nat.length_toDigits_le_iff (by decide) (by decide)).mpr hlt

namespace Value

/-! ## Numbers that JSON cannot carry -/

/-- Somewhere in the value there is a part with a property; keys do not count. -/
inductive HasPart (p : Value → Prop) : Value → Prop
  | here {v : Value} : p v → HasPart p v
  | item {v : Value} {vs : List Value} : v ∈ vs → HasPart p v → HasPart p (.list vs)
  | component {v : Value} {vs : List Value} : v ∈ vs → HasPart p v → HasPart p (.tuple vs)
  | entry {e : Value × Value} {es : List (Value × Value)} : e ∈ es → HasPart p e.2 → HasPart p (.mapping es)
  | field {model : String} {f : Label × Value} {fs : List (Label × Value)} : f ∈ fs → HasPart p f.2 →
      HasPart p (.record model fs)

/-- A float that is not finite, or an integer of too many digits. -/
def UncarriedNumber : Value → Prop
  | .int n => ¬ HasDigits n
  | .float x => x.isFinite = false
  | _ => False

/-- What a value is written as, and when JSON carries that. -/
structure Encoded (v w : Value) : Prop where
  written : Wire.write v = .ok w
  plain : w.IsPlain
  carried : Json.Uncarried w ↔ v.HasPart UncarriedNumber

section
variable {p : Value → Prop}

theorem hasPart_scalar {v : Value} {form : Option Value} (h : v.outline = .scalar form) : HasPart p v ↔ p v := by
  constructor
  · intro hpart
    cases hpart with
    | here hp => exact hp
    | item _ _ | component _ _ | entry _ _ | field _ _ => cases h
  · exact .here

theorem hasPart_list {vs : List Value} (h : ¬ p (.list vs)) : HasPart p (.list vs) ↔ ∃ v ∈ vs, HasPart p v :=
  ⟨fun | .here hp => absurd hp h | .item hv hpart => ⟨_, hv, hpart⟩, fun ⟨_, hv, hpart⟩ => .item hv hpart⟩

theorem hasPart_record {model : String} {fs : List (Label × Value)} (h : ¬ p (.record model fs)) :
    HasPart p (.record model fs) ↔ ∃ f ∈ fs, HasPart p f.2 :=
  ⟨fun | .here hp => absurd hp h | .field hf hpart => ⟨_, hf, hpart⟩, fun ⟨_, hf, hpart⟩ => .field hf hpart⟩

theorem hasPart_ofFields {fields : List (String × Value)} (h : ¬ p (ofFields fields)) :
    HasPart p (ofFields fields) ↔ ∃ f ∈ fields, HasPart p f.2 := by
  constructor
  · intro hpart
    cases hpart with
    | here hp => exact absurd hp h
    | entry he hpart =>
      obtain ⟨f, hf, rfl⟩ := List.mem_map.mp he
      exact ⟨f, hf, hpart⟩
  · intro ⟨f, hf, hpart⟩
    exact .entry (List.mem_map.mpr ⟨f, hf, rfl⟩) hpart

end

/-! ## Scalars -/

section
variable {v w : Value}

theorem uncarried_leaf (h : PlainLeaf v) : Json.Uncarried v ↔ UncarriedNumber v := by
  cases v with
  | int n =>
    refine ⟨fun h => ?_, .int⟩
    cases h with
    | int hn => exact hn
  | float x =>
    refine ⟨fun h => ?_, .float⟩
    cases h with
    | float hx => exact hx
  | null | bool _ | text _ =>
    refine iff_of_false (fun h => ?_) id
    cases h
  | _ => cases h

theorem scalar_encoded (hwritten : Wire.write v = .ok w) (hw : PlainLeaf w)
    (hnumber : UncarriedNumber w ↔ UncarriedNumber v) : Encoded v w where
  written := hwritten
  plain := .leaf hw
  carried := by
    have hscalar : w.outline = .scalar (some w) := by
      cases w <;> first | rfl | cases hw
    rw [uncarried_leaf hw, hnumber, hasPart_scalar (Wire.write_outline hwritten ▸ hscalar)]

theorem leaf_encoded (h : PlainLeaf v) : Encoded v v :=
  scalar_encoded (Wire.write_plain (.leaf h)) h Iff.rfl

theorem member_encoded (m : Member) : ∃ w, Encoded (.member m) w := by
  cases hcode : m.code with
  | number n =>
    have hdigits := Json.member_hasDigits hcode
    exact ⟨.int n, scalar_encoded (by rw [Wire.write, hcode]) trivial (iff_of_false (not_not.mpr hdigits) id)⟩
  | word s => exact ⟨.text s, scalar_encoded (by rw [Wire.write, hcode]) trivial Iff.rfl⟩

theorem time_encoded {m : Moment} (h : m.toSeconds? ≠ none) : ∃ w, Encoded (.time m) w := by
  have hdigits : ∀ n, m.toSeconds? = some n → HasDigits n := by
    intro n hn
    unfold Moment.toSeconds? at hn
    split at hn
    · cases hn
    · cases hn
      exact wholeSeconds_hasDigits _
  obtain ⟨n, hn⟩ := Option.ne_none_iff_exists'.mp h
  exact ⟨.int n, scalar_encoded (by rw [Wire.write, hn]) trivial (iff_of_false (not_not.mpr (hdigits n hn)) id)⟩

theorem duration_encoded (d : Duration) : Encoded (.duration d) (.int d.toSeconds) :=
  scalar_encoded rfl trivial (iff_of_false (not_not.mpr (wholeSeconds_hasDigits _)) id)

theorem bytes_encoded (bs : List UInt8) : Encoded (.bytes bs) (.text (Text.Base64.encode bs)) :=
  scalar_encoded rfl trivial Iff.rfl

end

/-! ## Values that hold others -/

section
variable {α β : Type} {R : α → β → Prop}

theorem forall₂_exists : ∀ {xs : List α}, (∀ x ∈ xs, ∃ y, R x y) → ∃ ys, List.Forall₂ R xs ys
  | [], _ => ⟨[], .nil⟩
  | x :: xs, h => by
    obtain ⟨y, hy⟩ := h x List.mem_cons_self
    obtain ⟨ys, hys⟩ := forall₂_exists fun x' hx => h x' (List.mem_cons_of_mem x hx)
    exact ⟨y :: ys, .cons hy hys⟩

theorem forall₂_exists_iff {p : α → Prop} {q : β → Prop} {xs : List α} {ys : List β} (h : List.Forall₂ R xs ys)
    (hR : ∀ x y, R x y → (p x ↔ q y)) : (∃ x ∈ xs, p x) ↔ ∃ y ∈ ys, q y := by
  induction h with
  | nil => simp
  | cons hxy _ ih => simp only [List.mem_cons, exists_eq_or_imp, hR _ _ hxy, ih]

theorem forall₂_mem {p : β → Prop} {xs : List α} {ys : List β} (h : List.Forall₂ R xs ys)
    (hR : ∀ x y, R x y → p y) : ∀ y ∈ ys, p y := by
  induction h with
  | nil => simp
  | cons hxy _ ih => exact List.forall_mem_cons.mpr ⟨hR _ _ hxy, ih⟩

end

theorem writeAll_encoded {vs ws : List Value} (h : List.Forall₂ Encoded vs ws) : Wire.writeAll vs = .ok ws := by
  induction h with
  | nil => rfl
  | cons hw _ ih =>
    rw [Wire.writeAll, hw.written, ih]
    rfl

theorem items_encoded {vs : List Value} (h : ∀ v ∈ vs, ∃ w, Encoded v w) : ∃ ws, Wire.writeAll vs = .ok ws ∧
    (Value.list ws).IsPlain ∧ (Json.Uncarried (.list ws) ↔ ∃ v ∈ vs, v.HasPart UncarriedNumber) := by
  obtain ⟨ws, hws⟩ := forall₂_exists h
  refine ⟨ws, writeAll_encoded hws, .list (forall₂_mem hws fun _ _ hw => hw.plain), ?_⟩
  rw [Json.uncarried_list]
  exact (forall₂_exists_iff hws fun _ _ hw => hw.carried.symm).symm

theorem list_encoded {vs : List Value} (h : ∀ v ∈ vs, ∃ w, Encoded v w) : ∃ w, Encoded (.list vs) w := by
  obtain ⟨ws, hws, hplain, hcarried⟩ := items_encoded h
  refine ⟨.list ws, ?_, hplain, ?_⟩
  · rw [Wire.write, hws]
    rfl
  · rw [hcarried, hasPart_list id]

def EncodedField (f g : String × Value) : Prop :=
  g.1 = f.1 ∧ Encoded f.2 g.2

section
variable {fields out : List (String × Value)} (h : List.Forall₂ EncodedField fields out)
include h

theorem keys_encoded : out.map Prod.fst = fields.map Prod.fst := by
  induction h with
  | nil => rfl
  | cons hf _ ih => rw [List.map_cons, List.map_cons, hf.1, ih]

theorem writeEntries_encoded : Wire.writeEntries (fields.map fun f => (.text f.1, f.2)) =
    .ok (out.map fun g => (.text g.1, g.2)) := by
  induction h with
  | nil => rfl
  | cons hf _ ih =>
    rw [List.map_cons, List.map_cons, Wire.writeEntries, hf.2.written, ih, hf.1]
    rfl

end

theorem mapping_encoded {fields : List (String × Value)} (hn : (fields.map Prod.fst).Nodup)
    (h : ∀ f ∈ fields, ∃ w, Encoded f.2 w) : ∃ w, Encoded (ofFields fields) w := by
  have hfield : ∀ f ∈ fields, ∃ g, EncodedField f g := by
    intro f hf
    obtain ⟨w, hw⟩ := h f hf
    exact ⟨(f.1, w), rfl, hw⟩
  obtain ⟨out, hout⟩ := forall₂_exists hfield
  refine ⟨ofFields out, ?_, .mapping (keys_encoded hout ▸ hn) (forall₂_mem hout fun _ _ hf => hf.2.plain), ?_⟩
  · rw [ofFields, Wire.write, writeEntries_encoded hout]
    rfl
  · rw [Json.uncarried_ofFields, hasPart_ofFields id]
    exact (forall₂_exists_iff hout fun _ _ hf => hf.2.carried.symm).symm

/-- A field that is left out has no part in the wire form, but there is no number in it either. -/
theorem hasPart_heldFields {fs : List (Label × Value)} : (∃ f ∈ heldFields fs, HasPart UncarriedNumber f.2) ↔
    ∃ f ∈ fs, HasPart UncarriedNumber f.2 := by
  constructor
  · intro ⟨f, hf, hpart⟩
    obtain ⟨g, hg, -, rfl⟩ := mem_heldFields.mp hf
    exact ⟨g, hg, hpart⟩
  · intro ⟨f, hf, hpart⟩
    refine ⟨_, mem_heldFields.mpr ⟨f, hf, ?_, rfl⟩, hpart⟩
    cases hnull : f.2 with
    | null =>
      rw [hnull, hasPart_scalar rfl] at hpart
      exact hpart.elim
    | _ => rfl

theorem record_encoded {model : String} {fs : List (Label × Value)} (hn : (fs.map fun f => f.1.wire).Nodup)
    (h : ∀ f ∈ fs, ∃ w, Encoded f.2 w) : ∃ w, Encoded (.record model fs) w := by
  have hkeys : ((heldFields fs).map Prod.fst).Nodup := by
    rw [heldFields, List.map_map]
    exact hn.sublist (List.filter_sublist.map _)
  have hheld : ∀ f ∈ heldFields fs, ∃ w, Encoded f.2 w := by
    intro f hf
    obtain ⟨g, hg, -, rfl⟩ := mem_heldFields.mp hf
    exact h g hg
  obtain ⟨w, hw⟩ := mapping_encoded hkeys hheld
  refine ⟨w, ?_, hw.plain, ?_⟩
  · rw [Wire.write, Wire.writeFields_eq, ← hw.written, ofFields, Wire.write]
  · rw [hw.carried, hasPart_ofFields id, hasPart_record id, hasPart_heldFields]

theorem plain_encoded {v : Value} (h : v.IsPlain) : ∃ w, Encoded v w := by
  unfold IsPlain at h
  induction h with
  | leaf h => exact ⟨_, leaf_encoded h⟩
  | list _ ih => exact list_encoded ih
  | mapping hn _ ih => exact mapping_encoded hn ih

end Value

/-! ## Decoded instances -/

namespace Kind
open Value

mutual

/-- Whether no two fields of a record have the same name on the wire. -/
def hasDistinctWires : Kind → Bool
  | .listOf kind => kind.hasDistinctWires
  | .listOrEmpty kind => kind.hasDistinctWires
  | .record _ fields => decide (fields.map fun f => f.1.wire).Nodup && allHaveDistinctWires fields
  | _ => true

def allHaveDistinctWires : List (Label × Kind) → Bool
  | [] => true
  | (_, kind) :: rest => kind.hasDistinctWires && allHaveDistinctWires rest

end

theorem items_read_encoded {kind : Kind} {v r : Value}
    (hitem : ∀ {v r : Value}, v.IsPlain → kind.read v = .ok r → ∃ w, Encoded r w) (hv : v.IsPlain)
    (h : (Kind.listOf kind).read v = .ok r) : ∃ w, Encoded r w := by
  obtain ⟨vs, rs, rfl, hrs, rfl⟩ := read_list_ok h
  refine list_encoded fun r hr => ?_
  obtain ⟨v, hmem, hread⟩ := mapM_ok hrs r hr
  exact hitem (hv.items v hmem) hread

mutual

theorem read_encoded : ∀ (kind : Kind) {v r : Value}, kind.hasDistinctWires = true → v.IsPlain → kind.read v = .ok r →
    ∃ w, Encoded r w
  | .integer, v, r, _, hv, h => by
    cases readInteger_typed hv h
    exact plain_encoded hv
  | .number, v, r, _, hv, h => by
    cases readNumber_typed hv h <;> exact ⟨_, leaf_encoded trivial⟩
  | .text, v, r, _, hv, h => by
    cases readText_typed hv h
    exact plain_encoded hv
  | .content, v, r, _, hv, h => by
    cases readContent_typed hv h
    exact ⟨_, bytes_encoded _⟩
  | .flag, v, r, _, hv, h => by
    cases readFlag_typed hv h <;> exact ⟨_, leaf_encoded trivial⟩
  | .time, v, r, _, hv, h => by
    rcases readTime_typed hv h with ⟨-, rfl⟩ | htyped
    · exact ⟨_, leaf_encoded trivial⟩
    · cases htyped with
      | time _ hm => exact time_encoded (by simp [Wire.ofSeconds_toSeconds hm])
  | .duration, v, r, _, hv, h => by
    cases readDuration_typed hv h
    exact ⟨_, duration_encoded _⟩
  | .member domain, v, r, _, hv, h => by
    cases readMember_typed hv h
    exact member_encoded _
  | .any, v, r, _, hv, h => by
    cases h
    exact plain_encoded hv
  | .listOf kind, v, r, hk, hv, h => items_read_encoded (read_encoded kind hk) hv h
  | .listOrEmpty kind, v, r, hk, hv, h => by
    rw [read_listOrEmpty_eq] at h
    exact items_read_encoded (read_encoded kind hk) hv h
  | .record model fields, v, r, hk, hv, h => by
    obtain ⟨es, fs, rfl, hfs, rfl⟩ := read_record_ok h
    simp only [hasDistinctWires, Bool.and_eq_true, decide_eq_true_eq] at hk
    have hlabels := congrArg (List.map Label.wire) (readFields_labels hfs)
    rw [List.map_map, List.map_map] at hlabels
    refine record_encoded ?_ (readFields_encoded fields hk.2 (fun _ _ => hv.lookup) hfs)
    rw [show (fs.map fun f => f.1.wire) = fields.map fun f => f.1.wire from hlabels]
    exact hk.1

theorem readFields_encoded : ∀ (fields : List (Label × Kind)) {es : List (Value × Value)} {fs : List (Label × Value)},
    allHaveDistinctWires fields = true → (∀ key v, Value.lookup? key es = some v → v.IsPlain) →
    readFields fields es = .ok fs → ∀ f ∈ fs, ∃ w, Encoded f.2 w
  | [], es, fs, _, _, h => by
    cases h
    simp
  | (label, kind) :: rest, es, fs, hk, hes, h => by
    simp only [allHaveDistinctWires, Bool.and_eq_true] at hk
    rw [readFields_cons] at h
    obtain ⟨r, hr, h⟩ := bind_ok h
    obtain ⟨rs, hrs, h⟩ := bind_ok h
    cases h
    refine List.forall_mem_cons.mpr ⟨?_, readFields_encoded rest hk.2 hes hrs⟩
    rcases readField_cases label kind es with ⟨-, hread⟩ | ⟨-, hread⟩ | ⟨v, hx, -, hread⟩
    · have habsent : kind.absent.IsPlain := by
        cases kind <;> first | exact .leaf trivial | exact .list (by simp)
      rw [hread] at hr
      cases hr
      exact plain_encoded habsent
    · rw [hread] at hr
      cases hr
      exact ⟨_, leaf_encoded trivial⟩
    · rw [hread] at hr
      exact read_encoded kind hk.1 (hes _ v hx) hr

end

end Kind

theorem Model.hasDistinctWires : ∀ m ∈ Model.all, m.kind.hasDistinctWires = true := by
  decide +kernel

namespace Value

/-! ## Everything that can be sent -/

/-- What becomes of a value on its way into the body of a request. -/
structure Sent (v w : Value) : Prop where
  written : Wire.write v = .ok w
  plain : w.IsPlain
  outline : w.outline = v.outline
  again : Wire.write w = .ok w
  carried : ∀ (method : String) (tag : Int), method ≠ "" → HasDigits tag →
    ((∃ body, Envelope.encode method w (.int tag) = .ok body) ↔ ¬ v.HasPart UncarriedNumber)

theorem Encoded.sent {v w : Value} (h : Encoded v w) : Sent v w where
  written := h.written
  plain := h.plain
  outline := Wire.write_outline h.written
  again := Wire.write_plain h.plain
  carried := by
    intro method tag hmethod htag
    rw [← h.carried]
    constructor
    · intro ⟨body, hbody⟩ huncarried
      obtain ⟨e, he⟩ := @Envelope.encode_uncarried method w tag hmethod (.inl huncarried)
      rw [hbody] at he
      cases he
    · intro hcarried
      exact Envelope.encode_carried hmethod hcarried htag

/-- A member in a tuple, a time at the start of 1970 two hours east, bytes and an instance, under three keys. -/
def sampleArguments (found : Value) : Value :=
  ofFields [("limits", .tuple [.member (.mode .single), .float (.nan 0)]),
    ("when", .list [.time ⟨0, some ⟨7200000000⟩⟩, .bytes [1, 2]]), ("found", found)]

end Value

end TorrentRemote
