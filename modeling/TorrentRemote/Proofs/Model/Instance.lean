import TorrentRemote.Proofs.Model.RoundTrip

/-!
# Typed instances

`Kind.Typed` says which value of its type a field has for what stands on the wire, down to the last field of the
last item of a list. An instance that is read from JSON is exactly what its model types (`Model.read_iff_typed`).
-/

namespace TorrentRemote

def Code.value : Code → Value
  | .number n => .int n
  | .word s => .text s

namespace Kind

mutual

/-- The value of the kind that is read from a wire value. A time that is zero has none. -/
inductive Typed : Kind → Value → Value → Prop
  | integer {n : Int} : Typed .integer (.int n) (.int n)
  | number {x : Binary64} : Typed .number (.float x) (.float x)
  | wholeNumber {n : Int} {x : Binary64} : Binary64.ofInt? n = some x → Typed .number (.int n) (.float x)
  | text {s : String} : Typed .text (.text s) (.text s)
  | content {s : String} {bs : List UInt8} : Text.Base64.decode s = .ok bs → Typed .content (.text s) (.bytes bs)
  | flag {b : Bool} : Typed .flag (.bool b) (.bool b)
  | wholeFlag {n : Int} : Typed .flag (.int n) (.bool (n ≠ 0))
  | time {n : Int} {m : Moment} : n ≠ 0 → Moment.ofSeconds? n = some m → Typed .time (.int n) (.time m)
  | duration {n : Int} {d : Duration} : Duration.ofSeconds? n = some d → Typed .duration (.int n) (.duration d)
  | member {domain : Domain} {m : Member} : m ∈ domain.members → Typed (.member domain) m.code.value (.member m)
  | list {kind : Kind} {ws rs : List Value} : TypedItems kind ws rs → Typed (.listOf kind) (.list ws) (.list rs)
  | record {model : String} {fields : List (Label × Kind)} {es : List (Value × Value)} {fs : List (Label × Value)} :
      TypedFields es fields fs → Typed (.record model fields) (.mapping es) (.record model fs)

inductive TypedItems : Kind → List Value → List Value → Prop
  | nil {kind : Kind} : TypedItems kind [] []
  | cons {kind : Kind} {w r : Value} {ws rs : List Value} : Typed kind w r → TypedItems kind ws rs →
      TypedItems kind (w :: ws) (r :: rs)

/-- A field is left open if the entries lack it or have null for it, and a time also if it is zero. -/
inductive TypedFields : List (Value × Value) → List (Label × Kind) → List (Label × Value) → Prop
  | nil {es : List (Value × Value)} : TypedFields es [] []
  | missing {es : List (Value × Value)} {label : Label} {kind : Kind} {fields : List (Label × Kind)}
      {fs : List (Label × Value)} : Value.lookup? label.wire es = none → TypedFields es fields fs →
      TypedFields es ((label, kind) :: fields) ((label, .null) :: fs)
  | null {es : List (Value × Value)} {label : Label} {kind : Kind} {fields : List (Label × Kind)}
      {fs : List (Label × Value)} : Value.lookup? label.wire es = some .null → TypedFields es fields fs →
      TypedFields es ((label, kind) :: fields) ((label, .null) :: fs)
  | noTime {es : List (Value × Value)} {label : Label} {fields : List (Label × Kind)} {fs : List (Label × Value)} :
      Value.lookup? label.wire es = some (.int 0) → TypedFields es fields fs →
      TypedFields es ((label, .time) :: fields) ((label, .null) :: fs)
  | held {es : List (Value × Value)} {label : Label} {kind : Kind} {fields : List (Label × Kind)}
      {fs : List (Label × Value)} {w r : Value} : Value.lookup? label.wire es = some w → Typed kind w r →
      TypedFields es fields fs → TypedFields es ((label, kind) :: fields) ((label, r) :: fs)

end

end Kind

theorem Member.isCodedBy_value (m : Member) : m.IsCodedBy m.code.value := by
  unfold IsCodedBy
  cases h : m.code <;> rfl

theorem Member.IsCodedBy.eq_value {m : Member} {v : Value} (hv : v.IsPlain) (h : m.IsCodedBy v) : v = m.code.value := by
  unfold IsCodedBy at h
  cases hcode : m.code with
  | number n =>
    rw [hcode] at h
    exact hv.of_int h
  | word s =>
    rw [hcode] at h
    exact hv.of_text h

namespace Kind

/-! ## Scalars -/

section
variable {v r : Value} (hv : v.IsPlain)
include hv

theorem readInteger_typed (h : readInteger v = .ok r) : Typed .integer v r := by
  unfold readInteger at h
  split at h
  · next hint =>
    cases h
    obtain ⟨n, hn⟩ := Option.isSome_iff_exists.mp hint
    rw [hv.of_int hn]
    exact .integer
  · cases h

theorem readNumber_typed (h : readNumber v = .ok r) : Typed .number v r := by
  rw [readNumber_eq] at h
  rcases readNumberBy_cases h with ⟨x, rfl, rfl⟩ | ⟨n, x, hn, hx, rfl⟩
  · exact .number
  · rw [hv.of_int hn]
    exact .wholeNumber hx

theorem readText_typed (h : readText v = .ok r) : Typed .text v r := by
  unfold readText at h
  split at h
  · next htext =>
    cases h
    obtain ⟨s, hs⟩ := Option.isSome_iff_exists.mp htext
    rw [hv.of_text hs]
    exact .text
  · cases h

theorem readContent_typed (h : readContent v = .ok r) : Typed .content v r := by
  unfold readContent at h
  split at h
  · cases h
  · next s hs =>
    split at h
    · next bs hd =>
      cases h
      rw [hv.of_text hs]
      exact .content hd
    · cases h
    · cases h

theorem readFlag_typed (h : readFlag v = .ok r) : Typed .flag v r := by
  obtain ⟨b, hb, rfl⟩ := map_ok h
  unfold Wire.readFlag at hb
  split at hb
  · cases hb
    exact .flag
  · split at hb
    · next n hn =>
      cases hb
      rw [hv.of_int hn]
      exact .wholeFlag
    · cases hb

theorem readTime_typed (h : readTime v = .ok r) : v = .int 0 ∧ r = .null ∨ Typed .time v r := by
  unfold readTime at h
  split at h
  · next m hm =>
    cases h
    obtain ⟨n, hne, hn, hseconds⟩ := Wire.readTime_ok hm
    rw [hv.of_int hn]
    exact .inr (.time hne hseconds)
  · next hnone =>
    cases h
    rw [hv.of_int (Wire.readTime_none hnone)]
    exact .inl ⟨rfl, rfl⟩
  · cases h

theorem readDuration_typed (h : readDuration v = .ok r) : Typed .duration v r := by
  obtain ⟨d, hd, rfl⟩ := map_ok h
  obtain ⟨n, hn, hseconds⟩ := Wire.readDuration_ok hd
  rw [hv.of_int hn]
  exact .duration hseconds

theorem readMember_typed {domain : Domain} (h : readMember domain v = .ok r) : Typed (.member domain) v r := by
  obtain ⟨m, hm, rfl⟩ := map_ok h
  obtain ⟨hmem, hcoded⟩ := Wire.readMember_ok.mp hm
  rw [hcoded.eq_value hv]
  exact .member hmem

end

/-! ## Lists and records -/

theorem typedItems_of_read {kind : Kind} : ∀ {vs rs : List Value},
    (∀ v ∈ vs, ∀ r, kind.read v = .ok r → Typed kind v r) → vs.mapM kind.read = .ok rs → TypedItems kind vs rs
  | [], rs, _, h => by
    cases h
    exact .nil
  | v :: vs, rs, hitem, h => by
    rw [List.mapM_cons] at h
    obtain ⟨r, hr, h⟩ := bind_ok h
    obtain ⟨rs', hrs, h⟩ := bind_ok h
    cases h
    have htail := typedItems_of_read (fun w hw => hitem w (List.mem_cons_of_mem _ hw)) hrs
    exact .cons (hitem v List.mem_cons_self r hr) htail

mutual

/-- Only a time that is zero is read as none. -/
theorem read_typed : ∀ (kind : Kind) {v r : Value}, kind.isLossless = true → v.IsPlain → kind.read v = .ok r →
    (kind = .time ∧ v = .int 0 ∧ r = .null) ∨ Typed kind v r
  | .integer, v, r, _, hv, h => .inr (readInteger_typed hv h)
  | .number, v, r, _, hv, h => .inr (readNumber_typed hv h)
  | .text, v, r, _, hv, h => .inr (readText_typed hv h)
  | .content, v, r, _, hv, h => .inr (readContent_typed hv h)
  | .flag, v, r, _, hv, h => .inr (readFlag_typed hv h)
  | .time, v, r, _, hv, h => (readTime_typed hv h).imp_left fun hzero => ⟨rfl, hzero⟩
  | .duration, v, r, _, hv, h => .inr (readDuration_typed hv h)
  | .member domain, v, r, _, hv, h => .inr (readMember_typed hv h)
  | .any, _, _, hk, _, _ => by cases hk
  | .listOrEmpty _, _, _, hk, _, _ => by cases hk
  | .listOf kind, v, r, hk, hv, h => by
    obtain ⟨vs, rs, rfl, hrs, rfl⟩ := read_list_ok h
    refine .inr (.list (typedItems_of_read (fun w hw x hx => ?_) hrs))
    rcases read_typed kind (lossless_list.mp hk).2 (hv.items w hw) hx with ⟨rfl, -⟩ | htyped
    · cases (lossless_list.mp hk).1
    · exact htyped
  | .record model fields, v, r, hk, hv, h => by
    obtain ⟨es, fs, rfl, hfs, rfl⟩ := read_record_ok h
    exact .inr (.record (readFields_typed fields (lossless_record hk).2 (fun _ _ => hv.lookup) hfs))

theorem readFields_typed : ∀ (fields : List (Label × Kind)) {es : List (Value × Value)} {fs : List (Label × Value)},
    allLossless fields = true → (∀ key v, Value.lookup? key es = some v → v.IsPlain) → readFields fields es = .ok fs →
    TypedFields es fields fs
  | [], es, fs, _, _, h => by
    cases h
    exact .nil
  | (label, kind) :: rest, es, fs, hk, hes, h => by
    have hlossless := lossless_cons hk
    rw [readFields_cons] at h
    obtain ⟨r, hr, h⟩ := bind_ok h
    obtain ⟨rs, hrs, h⟩ := bind_ok h
    cases h
    have hrest := readFields_typed rest hlossless.2 hes hrs
    rcases readField_cases label kind es with ⟨hx, hread⟩ | ⟨hx, hread⟩ | ⟨w, hx, -, hread⟩
    · rw [hread, absent_of_lossless hlossless.1] at hr
      cases hr
      exact .missing hx hrest
    · rw [hread] at hr
      cases hr
      exact .null hx hrest
    · rw [hread] at hr
      rcases read_typed kind hlossless.1 (hes _ w hx) hr with ⟨rfl, rfl, rfl⟩ | htyped
      · exact .noTime hx hrest
      · exact .held hx htyped hrest

end

/-! ## Typed values are read -/

theorem readNumberBy_int {round : Int → Option Binary64} {n : Int} {x : Binary64} (h : round n = some x) :
    readNumberBy round (.int n) = .ok (.float x) := by
  have hint : (Value.int n).int? = some n := rfl
  unfold readNumberBy
  simp only [hint, h]

theorem Typed.wire_not_null {kind : Kind} {w r : Value} (h : Typed kind w r) : w.isNull = false := by
  cases h with
  | @member _ m => cases hcode : m.code <;> rfl
  | _ => rfl

mutual

theorem Typed.read_eq : ∀ {kind : Kind} {w r : Value}, kind.isLossless = true → Typed kind w r → kind.read w = .ok r
  | _, _, _, _, .integer => rfl
  | _, _, _, _, .number => rfl
  | _, _, _, _, .wholeNumber hx => by rw [read, readNumber_eq, readNumberBy_int hx]
  | _, _, _, _, .text => rfl
  | _, .text s, _, _, .content hd => by
    have htext : (Value.text s).text? = some s := rfl
    simp only [read, readContent, htext, hd]
  | _, _, _, _, .flag => rfl
  | _, _, _, _, .wholeFlag => rfl
  | _, _, _, _, .time hn hm => by rw [read, readTime, Wire.readTime_int hn hm]
  | _, _, _, _, .duration hd => by
    rw [read, readDuration, Wire.readDuration_int hd]
    rfl
  | _, _, .member m, _, .member hm => by
    rw [read, readMember, Wire.readMember_ok.mpr ⟨hm, m.isCodedBy_value⟩]
    rfl
  | .listOf kind, .list ws, .list rs, hk, .list hitems => by
    rw [read_list, hitems.read_eq (lossless_list.mp hk).2]
    rfl
  | .record model fields, .mapping es, .record _ fs, hk, .record hfields => by
    rw [read_record, hfields.read_eq (lossless_record hk).2]
    rfl

theorem TypedItems.read_eq : ∀ {kind : Kind} {ws rs : List Value}, kind.isLossless = true → TypedItems kind ws rs →
    ws.mapM kind.read = .ok rs
  | _, _, _, _, .nil => rfl
  | _, _, _, hk, .cons hw hws => by
    rw [List.mapM_cons, hw.read_eq hk, hws.read_eq hk]
    rfl

theorem TypedFields.read_eq : ∀ {es : List (Value × Value)} {fields : List (Label × Kind)}
    {fs : List (Label × Value)}, allLossless fields = true → TypedFields es fields fs → readFields fields es = .ok fs
  | _, _, _, _, .nil => rfl
  | es, (label, kind) :: fields, (_, .null) :: fs, hk, .missing hx hrest => by
    rw [readFields_cons, readField_absent hx, absent_of_lossless (lossless_cons hk).1,
      hrest.read_eq (lossless_cons hk).2]
    rfl
  | es, (label, kind) :: fields, (_, .null) :: fs, hk, .null hx hrest => by
    rw [readFields_cons, readField, hx, hrest.read_eq (lossless_cons hk).2]
    rfl
  | es, (label, .time) :: fields, (_, .null) :: fs, hk, .noTime hx hrest => by
    rw [readFields_cons, readField_present hx rfl, hrest.read_eq (lossless_cons hk).2]
    rfl
  | es, (label, kind) :: fields, (_, r) :: fs, hk, .held hx hw hrest => by
    rw [readFields_cons, readField_present hx hw.wire_not_null, hw.read_eq (lossless_cons hk).1,
      hrest.read_eq (lossless_cons hk).2]
    rfl

end

end Kind

namespace Model

/-- What a JSON value is read as is the instance that the model types for it, and there is none if it types none. -/
theorem read_iff_typed {m : Model} (hm : m ∈ all) (hname : m.name ≠ torrentGetResponse.name) {v r : Value}
    (hv : v.IsPlain) : m.read v = .ok r ↔ m.kind.Typed v r := by
  have hlossless := isLossless m hm hname
  constructor
  · intro h
    rcases Kind.read_typed m.kind hlossless hv h with ⟨htime, -⟩ | htyped
    · cases htime
    · exact htyped
  · exact Kind.Typed.read_eq hlossless

theorem read_iff_typed_sample : ∃ r, torrent.read (Value.ofFields sampleFields) = .ok r ∧
    torrent.kind.Typed (Value.ofFields sampleFields) r := by
  have hok : (torrent.read (Value.ofFields sampleFields)).isOk = true := by decide +kernel
  cases hr : torrent.read (Value.ofFields sampleFields) with
  | error e =>
    rw [hr] at hok
    cases hok
  | ok r => exact ⟨r, rfl, (read_iff_typed (by simp [all]) (by decide) sample_isPlain).mp hr⟩

end Model

end TorrentRemote
