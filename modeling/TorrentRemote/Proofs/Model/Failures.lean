import Mathlib.Algebra.Group.Int.Defs
import TorrentRemote.Model.Catalog
import TorrentRemote.Proofs.Model.Reader
import TorrentRemote.Proofs.Value.Shown
import TorrentRemote.Proofs.Wire

/-!
# What reading a model comes to

A value gives an instance of a model exactly when none of its parts is flawed. An error is that of a
flawed part, and it is one of the three that the client has for values that are no instance, but for two
kinds of flaws: an integer in the place of a number that is beyond the binary ones, and a text in the
place of content that is not ASCII (`Model.read_outcome`, `unreadable_parts_escape`). A part without a text
is not reported either, but no JSON value has one.
-/

namespace TorrentRemote

namespace Kind

/-- When a value is read as a kind, the part `w` of it is read as `k`. -/
inductive Part (k : Kind) (w : Value) : Kind → Value → Prop
  | self : Part k w k w
  | item {kind : Kind} {vs : List Value} {v : Value} : v ∈ vs → Part k w kind v →
      Part k w (.listOf kind) (.list vs)
  | itemOrEmpty {kind : Kind} {vs : List Value} {v : Value} : v ∈ vs → Part k w kind v →
      Part k w (.listOrEmpty kind) (.list vs)
  | field {model : String} {fields : List (Label × Kind)} {es : List (Value × Value)} {label : Label} {kind : Kind}
      {v : Value} : (label, kind) ∈ fields → Value.lookup? label.wire es = some v → v.isNull = false →
      Part k w kind v → Part k w (.record model fields) (.mapping es)

theorem Part.isJson {k kind : Kind} {w v : Value} (h : Part k w kind v) : v.IsJson → w.IsJson := by
  induction h with
  | self => exact id
  | item hmem _ ih | itemOrEmpty hmem _ ih => exact fun hv => ih (hv.items hmem)
  | field _ hlookup _ _ ih => exact fun hv => ih (hv.lookup hlookup)

/-- Why a value itself, whatever its parts are, cannot be read as a kind. -/
inductive Flaw (v : Value) : Kind → Failure → Prop
  | integer : v.int? = none → Flaw v .integer (expected "integer" v)
  | number : v.int? = none → (∀ x, v ≠ .float x) → Flaw v .number (expected "number" v)
  | text : v.text? = none → Flaw v .text (expected "string" v)
  | contentText : v.text? = none → Flaw v .content (expected "string" v)
  | content {s : String} {e : Text.Base64.DecodeError} : v.text? = some s → Text.Base64.decode s = .error e →
      e ≠ .notAscii → Flaw v .content (.client (.badResponse ("Invalid base64 value: " ++ e.message)))
  | flag : v.int? = none → (∀ b, v ≠ .bool b) → Flaw v .flag (.about v (.scalar (some .flag) v))
  | time : (∀ n, v.int? = some n → n ≠ 0 ∧ Moment.ofSeconds? n = none) →
      Flaw v .time (.about v (.scalar (some .time) v))
  | duration : (∀ n, v.int? = some n → Duration.ofSeconds? n = none) →
      Flaw v .duration (.about v (.scalar (some .duration) v))
  | member {domain : Domain} : (∀ m ∈ domain.members, ¬ m.IsCodedBy v) →
      Flaw v (.member domain) (.about v (.enumerated (some domain) v))
  | array {kind : Kind} : (∀ vs, v ≠ .list vs) → Flaw v (.listOf kind) (expected "array" v)
  | arrayOrEmpty {kind : Kind} : (∀ vs, v ≠ .list vs) → Flaw v (.listOrEmpty kind) (expected "array" v)
  | object {model : String} {fields : List (Label × Kind)} : (∀ es, v ≠ .mapping es) →
      Flaw v (.record model fields) (expected ("object for " ++ model) v)
  | tooLarge {n : Int} : v.int? = some n → Binary64.ofInt? n = none → Flaw v .number .integerTooLarge
  | notAscii {s : String} : v.text? = some s → Text.Base64.decode s = .error .notAscii →
      Flaw v .content (.base64 .notAscii)

/-! ## Flawed values are refused -/

theorem readNumberBy_expected (round : Int → Option Binary64) {v : Value} (hv : v.int? = none)
    (hfloat : ∀ x, v ≠ .float x) : readNumberBy round v = .error (expected "number" v) := by
  unfold readNumberBy
  split
  · exact absurd rfl (hfloat _)
  · rw [hv]

theorem readNumberBy_tooLarge {round : Int → Option Binary64} {v : Value} {n : Int} (hv : v.int? = some n)
    (hn : round n = none) : readNumberBy round v = .error .integerTooLarge := by
  unfold readNumberBy
  split
  · cases hv
  · simp only [hv, hn]

theorem Flaw.read_error {k : Kind} {v : Value} {e : Failure} (h : Flaw v k e) : k.read v = .error e := by
  cases h with
  | integer hv => simp [read, readInteger, hv]
  | number hv hfloat => rw [read, readNumber_eq, readNumberBy_expected _ hv hfloat]
  | text hv => simp [read, readText, hv]
  | contentText hv => simp [read, readContent, hv]
  | @content s e hv hd hne =>
    rw [read, readContent]
    simp only [hv, hd]
  | flag hv hb =>
    rw [read, readFlag, Wire.readFlag_error.mpr ⟨rfl, hv, hb⟩]
    rfl
  | time hv => simp [read, readTime, Wire.readTime_error.mpr ⟨rfl, hv⟩]
  | duration hv =>
    rw [read, readDuration, Wire.readDuration_error.mpr ⟨rfl, hv⟩]
    rfl
  | member hv =>
    rw [read, readMember, Wire.readMember_error.mpr ⟨rfl, hv⟩]
    rfl
  | array hv =>
    rw [read, items_error hv]
    rfl
  | arrayOrEmpty hv =>
    rw [read, items_error hv]
    rfl
  | object hv =>
    rw [read, entries_error hv]
    rfl
  | tooLarge hv hn => rw [read, readNumber_eq, readNumberBy_tooLarge hv hn]
  | notAscii hv hd =>
    rw [read, readContent]
    simp only [hv, hd]

/-! ## Refused values are flawed -/

section
variable {v : Value} {e : Failure}

theorem readInteger_flaw (h : readInteger v = .error e) : Flaw v .integer e := by
  unfold readInteger at h
  split at h
  · cases h
  · next hv =>
    cases h
    exact .integer (by simpa using hv)

theorem readNumberBy_error {round : Int → Option Binary64} (h : readNumberBy round v = .error e) :
    (v.int? = none ∧ (∀ x, v ≠ .float x) ∧ e = expected "number" v) ∨
      ∃ n, v.int? = some n ∧ round n = none ∧ e = .integerTooLarge := by
  unfold readNumberBy at h
  split at h
  · cases h
  · next hfloat =>
    split at h
    · next hv =>
      cases h
      exact .inl ⟨hv, hfloat, rfl⟩
    · next n hv =>
      split at h
      · cases h
      · next hn =>
        cases h
        exact .inr ⟨n, hv, hn, rfl⟩

theorem readNumber_flaw (h : readNumber v = .error e) : Flaw v .number e := by
  rw [readNumber_eq] at h
  rcases readNumberBy_error h with ⟨hv, hfloat, rfl⟩ | ⟨n, hv, hn, rfl⟩
  · exact .number hv hfloat
  · exact .tooLarge hv hn

theorem readText_flaw (h : readText v = .error e) : Flaw v .text e := by
  unfold readText at h
  split at h
  · cases h
  · next hv =>
    cases h
    exact .text (by simpa using hv)

theorem readContent_flaw (h : readContent v = .error e) : Flaw v .content e := by
  unfold readContent at h
  split at h
  · next hv =>
    cases h
    exact .contentText hv
  · next s hv =>
    split at h
    · cases h
    · next hd =>
      cases h
      exact .notAscii hv hd
    · next e' hne hd =>
      cases h
      exact .content hv hd hne

theorem readFlag_flaw (h : readFlag v = .error e) : Flaw v .flag e := by
  obtain ⟨rfl, hv, hb⟩ := Wire.readFlag_error.mp (map_error h)
  exact .flag hv hb

theorem readTime_flaw (h : readTime v = .error e) : Flaw v .time e := by
  unfold readTime at h
  split at h
  · cases h
  · cases h
  · next e' he =>
    cases h
    obtain ⟨rfl, hv⟩ := Wire.readTime_error.mp he
    exact .time hv

theorem readDuration_flaw (h : readDuration v = .error e) : Flaw v .duration e := by
  obtain ⟨rfl, hv⟩ := Wire.readDuration_error.mp (map_error h)
  exact .duration hv

theorem readMember_flaw {domain : Domain} (h : readMember domain v = .error e) : Flaw v (.member domain) e := by
  obtain ⟨rfl, hv⟩ := Wire.readMember_error.mp (map_error h)
  exact .member hv

end

def Flawed (kind : Kind) (v : Value) (e : Failure) : Prop :=
  ∃ k w, Part k w kind v ∧ Flaw w k e

theorem Flaw.flawed {kind : Kind} {v : Value} {e : Failure} (h : Flaw v kind e) : Flawed kind v e :=
  ⟨kind, v, .self, h⟩

theorem flawed_of_flaw {kind : Kind} {v : Value} {e e' : Failure} (hflaw : Flaw v kind e')
    (h : kind.read v = .error e) :
    Flawed kind v e := by
  rw [hflaw.read_error] at h
  exact Except.error.inj h ▸ hflaw.flawed

mutual

theorem read_flawed : ∀ (kind : Kind) (v : Value) {e : Failure}, kind.read v = .error e → Flawed kind v e
  | .integer, v, e, h => (readInteger_flaw h).flawed
  | .number, v, e, h => (readNumber_flaw h).flawed
  | .text, v, e, h => (readText_flaw h).flawed
  | .content, v, e, h => (readContent_flaw h).flawed
  | .flag, v, e, h => (readFlag_flaw h).flawed
  | .time, v, e, h => (readTime_flaw h).flawed
  | .duration, v, e, h => (readDuration_flaw h).flawed
  | .member domain, v, e, h => (readMember_flaw h).flawed
  | .any, v, e, h => by cases h
  | .listOf kind, v, e, h => by
    by_cases hv : ∃ vs, v = .list vs
    · obtain ⟨vs, rfl⟩ := hv
      rw [read_list] at h
      obtain ⟨w, hw, h⟩ := mapM_error (map_error h)
      obtain ⟨k, u, hpart, hflaw⟩ := read_flawed kind w h
      exact ⟨k, u, .item hw hpart, hflaw⟩
    · exact flawed_of_flaw (.array fun vs hvs => hv ⟨vs, hvs⟩) h
  | .listOrEmpty kind, v, e, h => by
    by_cases hv : ∃ vs, v = .list vs
    · obtain ⟨vs, rfl⟩ := hv
      rw [read_listOrEmpty_eq, read_list] at h
      obtain ⟨w, hw, h⟩ := mapM_error (map_error h)
      obtain ⟨k, u, hpart, hflaw⟩ := read_flawed kind w h
      exact ⟨k, u, .itemOrEmpty hw hpart, hflaw⟩
    · exact flawed_of_flaw (.arrayOrEmpty fun vs hvs => hv ⟨vs, hvs⟩) h
  | .record model fields, v, e, h => by
    by_cases hv : ∃ es, v = .mapping es
    · obtain ⟨es, rfl⟩ := hv
      rw [read_record] at h
      obtain ⟨label, kind, hmem, w, hlookup, hnull, k, u, hpart, hflaw⟩ := readFields_flawed fields es (map_error h)
      exact ⟨k, u, .field hmem hlookup hnull hpart, hflaw⟩
    · exact flawed_of_flaw (.object fun es hes => hv ⟨es, hes⟩) h

theorem readFields_flawed : ∀ (fields : List (Label × Kind)) (es : List (Value × Value)) {e : Failure},
    readFields fields es = .error e → ∃ label kind, (label, kind) ∈ fields ∧
      ∃ v, Value.lookup? label.wire es = some v ∧ v.isNull = false ∧ Flawed kind v e
  | [], es, e, h => by cases h
  | (label, kind) :: rest, es, e, h => by
    rw [readFields_cons] at h
    rcases bind_error h with h | ⟨r, -, h⟩
    · rcases readField_cases label kind es with ⟨-, hr⟩ | ⟨-, hr⟩ | ⟨v, hlookup, hnull, hr⟩
      · rw [hr] at h
        cases h
      · rw [hr] at h
        cases h
      · rw [hr] at h
        exact ⟨label, kind, List.mem_cons_self, v, hlookup, hnull, read_flawed kind v h⟩
    · rcases bind_error h with h | ⟨rs, -, h⟩
      · obtain ⟨label', kind', hmem, hv⟩ := readFields_flawed rest es h
        exact ⟨label', kind', List.mem_cons_of_mem _ hmem, hv⟩
      · cases h

end

/-! ## Values without flaws are read -/

theorem Part.read_ok {k kind : Kind} {w v : Value} (hpart : Part k w kind v) :
    ∀ {r : Value}, kind.read v = .ok r → ∃ r', k.read w = .ok r' := by
  induction hpart with
  | self => exact fun h => ⟨_, h⟩
  | item hmem _ ih =>
    intro r h
    rw [read_list] at h
    obtain ⟨rs, hrs, -⟩ := map_ok h
    obtain ⟨r', -, hr'⟩ := mapM_ok_of_mem hrs _ hmem
    exact ih hr'
  | itemOrEmpty hmem _ ih =>
    intro r h
    rw [read_listOrEmpty_eq, read_list] at h
    obtain ⟨rs, hrs, -⟩ := map_ok h
    obtain ⟨r', -, hr'⟩ := mapM_ok_of_mem hrs _ hmem
    exact ih hr'
  | field hmem hlookup hnull _ ih =>
    intro r h
    rw [read_record] at h
    obtain ⟨fs, hfs, -⟩ := map_ok h
    obtain ⟨r', hr', -⟩ := readFields_ok_of_mem hfs hmem
    rw [readField_present hlookup hnull] at hr'
    exact ih hr'

theorem not_flawed_of_read {kind : Kind} {v r : Value} (h : kind.read v = .ok r) (e : Failure) : ¬ Flawed kind v e := by
  rintro ⟨k, w, hpart, hflaw⟩
  obtain ⟨r', hr'⟩ := hpart.read_ok h
  rw [hflaw.read_error] at hr'
  cases hr'

end Kind

/-! ## Errors for values that are no instance -/

namespace ClientError

/-- The error is a special case of one of the three that are made for values that are no instance. -/
def IsRefusal (e : ClientError) : Prop :=
  .invalidResponse ∈ e.kind.ancestors ∨ .enumerated none ∈ e.kind.ancestors ∨ .scalar none ∈ e.kind.ancestors

theorem badResponse_isRefusal (message : String) : (badResponse message).IsRefusal :=
  .inl List.mem_cons_self

theorem enumerated_isRefusal (domain : Domain) (v : Value) : (enumerated (some domain) v).IsRefusal :=
  .inr (.inl (List.mem_cons_of_mem _ List.mem_cons_self))

theorem scalar_isRefusal (kind : ScalarKind) (v : Value) : (scalar (some kind) v).IsRefusal :=
  .inr (.inr (List.mem_cons_of_mem _ List.mem_cons_self))

end ClientError

namespace Model

/-- What reading a value as a model comes to. -/
inductive Outcome (m : Model) (v : Value) : Except Failure Value → Prop
  | instance {fields : List (Label × Value)} : fields.map Prod.fst = m.labels → (∀ e, ¬ m.kind.Flawed v e) →
      Outcome m v (.ok (.record m.name fields))
  | refused {e : ClientError} : e.IsRefusal → m.kind.Flawed v (.client e) → Outcome m v (.error (.client e))
  | unshown {k : Kind} {w : Value} : Kind.Part k w m.kind v → w.hasText = false → ¬ v.IsJson →
      Outcome m v (.error .integerTooLong)
  | tooLarge {w : Value} {n : Int} : Kind.Part .number w m.kind v → w.int? = some n → Binary64.ofInt? n = none →
      Outcome m v (.error .integerTooLarge)
  | notAscii {w : Value} {s : String} {c : Char} : Kind.Part .content w m.kind v → w.text? = some s → c ∈ s.toList →
      128 ≤ c.toNat → Outcome m v (.error (.base64 .notAscii))

section
variable {m : Model} {v w : Value} {k : Kind} (hpart : Kind.Part k w m.kind v)
include hpart

/-- An error that shows a part is made only if the part has a text, as those of a JSON value do. -/
theorem outcome_about {e : ClientError} (he : e.IsRefusal) (hflaw : Kind.Flaw w k (.about w e)) :
    Outcome m v (.error (.about w e)) := by
  have h : m.kind.Flawed v (.about w e) := ⟨k, w, hpart, hflaw⟩
  cases hw : w.hasText with
  | true =>
    rw [Failure.about, Failure.showing_shown hw] at h ⊢
    exact .refused he h
  | false =>
    rw [Failure.about, Failure.showing_unshown hw]
    refine .unshown hpart hw fun hjson => ?_
    rw [(hpart.isJson hjson).hasText] at hw
    cases hw

theorem outcome_of_flaw {e : Failure} (hflaw : Kind.Flaw w k e) : Outcome m v (.error e) := by
  have hexpected := ClientError.badResponse_isRefusal
  have hscalar := ClientError.scalar_isRefusal
  cases hflaw with
  | integer hw => exact outcome_about hpart (hexpected _) (.integer hw)
  | number hw hfloat => exact outcome_about hpart (hexpected _) (.number hw hfloat)
  | text hw => exact outcome_about hpart (hexpected _) (.text hw)
  | contentText hw => exact outcome_about hpart (hexpected _) (.contentText hw)
  | content hw hd hne => exact .refused (hexpected _) ⟨_, w, hpart, .content hw hd hne⟩
  | flag hw hb => exact outcome_about hpart (hscalar _ _) (.flag hw hb)
  | time hw => exact outcome_about hpart (hscalar _ _) (.time hw)
  | duration hw => exact outcome_about hpart (hscalar _ _) (.duration hw)
  | member hw => exact outcome_about hpart (ClientError.enumerated_isRefusal _ _) (.member hw)
  | array hw => exact outcome_about hpart (hexpected _) (.array hw)
  | arrayOrEmpty hw => exact outcome_about hpart (hexpected _) (.arrayOrEmpty hw)
  | object hw => exact outcome_about hpart (hexpected _) (.object hw)
  | tooLarge hw hn => exact .tooLarge hpart hw hn
  | notAscii hw hd =>
    obtain ⟨c, hc, hascii⟩ := Text.Base64.exists_of_notAscii hd
    exact .notAscii hpart hw hc hascii

end

theorem read_outcome (m : Model) (v : Value) : m.Outcome v (m.read v) := by
  unfold Model.read
  cases h : m.kind.read v with
  | ok r =>
    obtain ⟨es, fields, -, hfields, rfl⟩ := Kind.read_record_ok h
    exact .instance (Kind.readFields_labels hfields) (Kind.not_flawed_of_read h)
  | error e =>
    obtain ⟨k, w, hpart, hflaw⟩ := Kind.read_flawed m.kind v h
    exact outcome_of_flaw hpart hflaw

def isTooLarge : Except Failure Value → Bool
  | .error .integerTooLarge => true
  | _ => false

theorem isTooLarge_iff {r : Except Failure Value} : isTooLarge r = true ↔ r = .error .integerTooLarge := by
  unfold isTooLarge
  split <;> simp_all

/-- An integer that is too large for a binary number, and content that is not even ASCII. -/
theorem unreadable_parts_escape :
    torrent.read (Value.ofFields [("percentDone", .int (10 ^ 400))]) = .error .integerTooLarge ∧
    torrent.read (Value.ofFields [("pieces", .text "é")]) = .error (.base64 .notAscii) ∧
    ¬ ∀ m ∈ all, ∀ v : Value, v.IsJson → (∃ fields, m.read v = .ok (.record m.name fields)) ∨
      ∃ e : ClientError, e.IsRefusal ∧ m.read v = .error (.client e) := by
  have hpieces : torrent.read (Value.ofFields [("pieces", .text "é")]) = .error (.base64 .notAscii) := by rfl
  refine ⟨isTooLarge_iff.mp (by decide +kernel), hpieces, fun h => ?_⟩
  have hjson : (Value.ofFields [("pieces", .text "é")]).IsJson := by
    refine .mapping (by decide) fun f hf => ?_
    rw [List.mem_singleton.mp hf]
    exact .leaf ⟨trivial, nofun⟩
  rcases h torrent (by simp [all]) _ hjson with ⟨fields, hread⟩ | ⟨e, -, hread⟩
  · rw [hpieces] at hread
    cases hread
  · rw [hpieces] at hread
    cases hread

end Model

end TorrentRemote
