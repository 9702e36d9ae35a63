import TorrentRemote.Proofs.Except
import TorrentRemote.Proofs.Number.Whole
import TorrentRemote.Proofs.Text.Base64
import TorrentRemote.Proofs.Value.Tree
import TorrentRemote.Wire

/-!
# Values on the wire

What is read from a scalar is written as something that is read as the same again. A value has a wire form
unless there is a time in it that has no count of seconds (`Wire.write_ok_iff`).
-/

namespace TorrentRemote

/-! ## Members of domains -/

/-- The value is what the member is on the wire. -/
def Member.IsCodedBy (m : Member) (v : Value) : Prop :=
  match m.code with
  | .number n => v.int? = some n
  | .word s => v.text? = some s

theorem Domain.code_injective : ∀ domain : Domain, ∀ m ∈ domain.members, ∀ m' ∈ domain.members,
    m.code = m'.code → m = m' := by
  intro domain
  cases domain <;> decide

theorem Domain.member_eq_some {domain : Domain} {code : Code} {m : Member} :
    domain.member? code = some m ↔ m ∈ domain.members ∧ m.code = code := by
  unfold member?
  constructor
  · intro h
    exact ⟨List.mem_of_find?_eq_some h, by simpa using List.find?_some h⟩
  · rintro ⟨hm, rfl⟩
    cases h : domain.members.find? fun m' => m'.code = m.code with
    | none => simpa using List.find?_eq_none.mp h m hm
    | some m' =>
      have hcode : m'.code = m.code := by simpa using List.find?_some h
      rw [domain.code_injective m' (List.mem_of_find?_eq_some h) m hm hcode]

/-- Only encryption has words for codes. -/
theorem Domain.code_cases {domain : Domain} {m : Member} (hm : m ∈ domain.members) :
    (domain = .encryption ∧ ∃ s, m.code = .word s) ∨ (domain ≠ .encryption ∧ ∃ n, m.code = .number n) := by
  have hdomain : m.domain = domain := by
    revert m
    cases domain <;> decide
  subst hdomain
  cases m with
  | encryption e => exact .inl ⟨rfl, e.word, rfl⟩
  | status _ | priority _ | mode _ | state _ => exact .inr ⟨nofun, _, rfl⟩

namespace Wire

/-- What is looked for among the codes of a domain. -/
def code? (domain : Domain) (v : Value) : Option Code :=
  if domain = .encryption then v.text?.map .word else v.int?.map .number

theorem code_eq_some {domain : Domain} {m : Member} (hm : m ∈ domain.members) (v : Value) :
    code? domain v = some m.code ↔ m.IsCodedBy v := by
  unfold code? Member.IsCodedBy
  rcases domain.code_cases hm with ⟨hd, s, hs⟩ | ⟨hd, n, hn⟩
  · simp [hd, hs]
  · simp [hd, hn]

theorem readMember_eq (domain : Domain) (v : Value) : readMember domain v =
    match (code? domain v).bind domain.member? with
    | some m => .ok m
    | none => .error (.about v (.enumerated (some domain) v)) :=
  rfl

theorem readMember_ok {domain : Domain} {v : Value} {m : Member} :
    readMember domain v = .ok m ↔ m ∈ domain.members ∧ m.IsCodedBy v := by
  have hread : readMember domain v = .ok m ↔ (code? domain v).bind domain.member? = some m := by
    rw [readMember_eq]
    cases (code? domain v).bind domain.member? <;> simp
  rw [hread, Option.bind_eq_some_iff]
  simp only [Domain.member_eq_some]
  constructor
  · rintro ⟨code, hcode, hm, rfl⟩
    exact ⟨hm, (code_eq_some hm v).mp hcode⟩
  · rintro ⟨hm, hv⟩
    exact ⟨m.code, (code_eq_some hm v).mpr hv, hm, rfl⟩

theorem readMember_error {domain : Domain} {v : Value} {e : Failure} : readMember domain v = .error e ↔
    e = .about v (.enumerated (some domain) v) ∧ ∀ m ∈ domain.members, ¬ m.IsCodedBy v := by
  constructor
  · intro h
    have he : e = .about v (.enumerated (some domain) v) := by
      rw [readMember_eq] at h
      split at h
      · cases h
      · exact (Except.error.inj h).symm
    refine ⟨he, fun m hm hv => ?_⟩
    rw [readMember_ok.mpr ⟨hm, hv⟩] at h
    cases h
  · rintro ⟨rfl, hnone⟩
    cases h : readMember domain v with
    | ok m =>
      obtain ⟨hm, hv⟩ := readMember_ok.mp h
      exact absurd hv (hnone m hm)
    | error e =>
      rw [readMember_eq] at h
      split at h
      · cases h
      · exact h.symm

theorem write_member (m : Member) : ∃ w, write (.member m) = .ok w ∧ w.isNull = false ∧ m.IsCodedBy w := by
  unfold Member.IsCodedBy
  cases h : m.code with
  | number n => exact ⟨.int n, by rw [write, h], rfl, rfl⟩
  | word s => exact ⟨.text s, by rw [write, h], rfl, rfl⟩

/-! ## Times and durations -/

theorem ofSeconds_toSeconds {n : Int} {m : Moment} (h : Moment.ofSeconds? n = some m) : m.toSeconds? = some n := by
  unfold Moment.ofSeconds? at h
  split at h
  · next hrange =>
    cases h
    have hsmall : n.natAbs < 2 ^ 53 := by
      unfold Moment.firstSecond Moment.lastSecond secondsPerDay at hrange
      omega
    have hwall : ¬ n * microsPerSecond < (Moment.firstSecond + secondsPerDay) * microsPerSecond := by
      unfold microsPerSecond
      omega
    simp [Moment.toSeconds?, Moment.instant, hwall, wholeSeconds_mul hsmall]
  · cases h

theorem duration_toSeconds {n : Int} {d : Duration} (h : Duration.ofSeconds? n = some d) : d.toSeconds = n := by
  unfold Duration.ofSeconds? at h
  dsimp only at h
  split at h
  · next hrange =>
    cases h
    have hsmall : n.natAbs < 2 ^ 53 := by
      unfold Duration.mostDays secondsPerDay at hrange
      rw [Int.fdiv_eq_ediv_of_nonneg _ (by decide)] at hrange
      omega
    exact wholeSeconds_mul hsmall
  · cases h

theorem readTime_ok {v : Value} {m : Moment} (h : readTime v = .ok (some m)) :
    ∃ n, n ≠ 0 ∧ v.int? = some n ∧ Moment.ofSeconds? n = some m := by
  unfold readTime at h
  split at h
  · cases h
  · next n hn =>
    split at h
    · cases h
    · next hzero =>
      split at h
      · next m' hm =>
        cases h
        exact ⟨n, hzero, hn, hm⟩
      · cases h

theorem readTime_none {v : Value} (h : readTime v = .ok none) : v.int? = some 0 := by
  unfold readTime at h
  split at h
  · cases h
  · next n hn =>
    split at h
    · next hzero => rw [hn, hzero]
    · split at h <;> cases h

theorem readTime_int {n : Int} {m : Moment} (hn : n ≠ 0) (h : Moment.ofSeconds? n = some m) :
    readTime (.int n) = .ok (some m) := by
  have hint : (Value.int n).int? = some n := rfl
  unfold readTime
  simp only [hint, hn, if_false, h]

theorem readDuration_ok {v : Value} {d : Duration} (h : readDuration v = .ok d) :
    ∃ n, v.int? = some n ∧ Duration.ofSeconds? n = some d := by
  unfold readDuration at h
  split at h
  · next d' hd =>
    cases h
    exact Option.bind_eq_some_iff.mp hd
  · cases h

theorem readDuration_int {n : Int} {d : Duration} (h : Duration.ofSeconds? n = some d) :
    readDuration (.int n) = .ok d := by
  have hint : (Value.int n).int? = some n := rfl
  unfold readDuration
  simp only [hint, Option.bind_some, h]

/-! ## Refusals -/

section
variable {v : Value} {e : Failure}

theorem readTime_error : readTime v = .error e ↔
    e = .about v (.scalar (some .time) v) ∧ ∀ n, v.int? = some n → n ≠ 0 ∧ Moment.ofSeconds? n = none := by
  unfold readTime
  cases hv : v.int? with
  | none => simp [eq_comm]
  | some n =>
    by_cases hn : n = 0
    · simp [hn]
    · cases hm : Moment.ofSeconds? n with
      | none => simp [hn, hm, eq_comm]
      | some m => simp [hn, hm]

theorem readDuration_error : readDuration v = .error e ↔
    e = .about v (.scalar (some .duration) v) ∧ ∀ n, v.int? = some n → Duration.ofSeconds? n = none := by
  unfold readDuration
  cases hv : v.int? with
  | none => simp [eq_comm]
  | some n =>
    cases hd : Duration.ofSeconds? n with
    | none => simp [hd, eq_comm]
    | some d => simp [hd]

theorem readFlag_error : readFlag v = .error e ↔
    e = .about v (.scalar (some .flag) v) ∧ v.int? = none ∧ ∀ b, v ≠ .bool b := by
  unfold readFlag
  split
  · simp
  · next hb =>
    cases hv : v.int? with
    | none => simpa [hv, eq_comm] using fun _ => hb
    | some n => simp

end

/-! ## Fields that hold a value -/

theorem writeFields_open (label : Label) (rest : List (Label × Value)) :
    writeFields ((label, .null) :: rest) = writeFields rest := by
  rw [writeFields]

theorem writeFields_held {label : Label} {v w : Value} {rest : List (Label × Value)} {ws : List (Value × Value)}
    (hv : v.isNull = false) (hw : write v = .ok w) (hws : writeFields rest = .ok ws) :
    writeFields ((label, v) :: rest) = .ok ((.text label.wire, w) :: ws) := by
  rw [writeFields, hw, hws]
  · rfl
  · rintro rfl
    cases hv

theorem writeFields_keys : ∀ {fs : List (Label × Value)} {out : List (Value × Value)}, writeFields fs = .ok out →
    out.map Prod.fst = (fs.filter fun f => !f.2.isNull).map fun f => Value.text f.1.wire
  | [], out, h => by
    cases h
    rfl
  | (label, v) :: rest, out, h => by
    cases hv : v.isNull with
    | true =>
      rw [Value.isNull_eq_true.mp hv, writeFields_open] at h
      rw [writeFields_keys h, List.filter_cons_of_neg (by simp [hv])]
    | false =>
      rw [writeFields] at h
      · obtain ⟨w, -, h⟩ := bind_ok h
        obtain ⟨ws, hws, h⟩ := bind_ok h
        cases h
        rw [List.map_cons, writeFields_keys hws, List.filter_cons_of_pos (by simp [hv]), List.map_cons]
      · rintro rfl
        cases hv

theorem writeFields_distinct {fs : List (Label × Value)} {out : List (Value × Value)}
    (hn : (fs.map fun f => f.1.wire).Nodup) (h : writeFields fs = .ok out) : (out.map Prod.fst).Nodup := by
  have hheld : ((fs.filter fun f => !f.2.isNull).map fun f => f.1.wire).Nodup :=
    hn.sublist (List.filter_sublist.map _)
  have htexts := Value.texts_nodup hheld
  rw [List.map_map] at htexts
  rw [writeFields_keys h]
  exact htexts

theorem writeFields_ok : ∀ {fs : List (Label × Value)}, (∀ f ∈ fs, ∃ w, write f.2 = .ok w) →
    ∃ out, writeFields fs = .ok out
  | [], _ => ⟨[], rfl⟩
  | (label, v) :: rest, h => by
    obtain ⟨w, hw⟩ := h _ List.mem_cons_self
    obtain ⟨out, hout⟩ := writeFields_ok fun f hf => h f (List.mem_cons_of_mem _ hf)
    cases hv : v.isNull with
    | true => exact ⟨out, by rw [Value.isNull_eq_true.mp hv, writeFields_open, hout]⟩
    | false => exact ⟨_, writeFields_held hv hw hout⟩

/-- There is only one error, so that it does not matter which of several steps failed first. -/
theorem error_iff_fails {α : Type} {x : Except WriteError α} {e : WriteError} : x = .error e ↔ Fails x := by
  cases e
  constructor
  · intro h
    exact ⟨_, h⟩
  · rintro ⟨⟨⟩, h⟩
    exact h

theorem both_error {α β γ : Type} {x : Except WriteError α} {y : Except WriteError β} {f : α → β → γ} {e : WriteError} :
    (do let a ← x; let b ← y; return f a b) = .error e ↔ x = .error e ∨ y = .error e := by
  simp only [error_iff_fails]
  exact fails_bind fun a => fails_bind_pure

theorem writeFields_error {e : WriteError} : ∀ {fs : List (Label × Value)} {f : Label × Value}, f ∈ fs →
    write f.2 = .error e → writeFields fs = .error e
  | (label, v) :: rest, f, hf, h => by
    have hparts : write v = .error e ∨ writeFields rest = .error e := by
      rcases List.mem_cons.mp hf with rfl | hf
      · exact .inl h
      · exact .inr (writeFields_error hf h)
    cases hv : v.isNull with
    | true =>
      rw [Value.isNull_eq_true.mp hv] at hparts ⊢
      rw [writeFields_open]
      rcases hparts with hfirst | hrest
      · cases hfirst
      · exact hrest
    | false =>
      rw [writeFields]
      · exact both_error.mpr hparts
      · rintro rfl
        cases hv

theorem writeFields_lookup {label : Label} {v : Value} : ∀ {fs : List (Label × Value)} {out : List (Value × Value)},
    (fs.map fun f => f.1.wire).Nodup → writeFields fs = .ok out → (label, v) ∈ fs → v.isNull = false →
      ∃ w, write v = .ok w ∧ Value.lookup? label.wire out = some w
  | (label', v') :: rest, out, hn, h, hf, hheld => by
    obtain ⟨hfresh, hn⟩ := List.nodup_cons.mp hn
    cases hv : v'.isNull with
    | true =>
      rw [Value.isNull_eq_true.mp hv] at h hf
      rw [writeFields_open] at h
      rcases List.mem_cons.mp hf with hf | hf
      · cases hf
        cases hheld
      · exact writeFields_lookup hn h hf hheld
    | false =>
      rw [writeFields] at h
      · obtain ⟨w, hw, h⟩ := bind_ok h
        obtain ⟨ws, hws, h⟩ := bind_ok h
        cases h
        rcases List.mem_cons.mp hf with hf | hf
        · cases hf
          exact ⟨w, hw, Value.lookup_first _ _ _⟩
        · have hother : label'.wire ≠ label.wire := fun heq => hfresh (List.mem_map.mpr ⟨_, hf, heq.symm⟩)
          rw [Value.lookup_other hother]
          exact writeFields_lookup hn hws hf hheld
      · rintro rfl
        cases hv

/-! ## Plain values -/

theorem writeAll_self : ∀ {vs : List Value}, (∀ v ∈ vs, write v = .ok v) → writeAll vs = .ok vs
  | [], _ => rfl
  | v :: vs, h => by
    rw [writeAll, h v List.mem_cons_self, writeAll_self fun w hw => h w (List.mem_cons_of_mem _ hw)]
    rfl

theorem writeEntries_self : ∀ {es : List (Value × Value)}, (∀ e ∈ es, write e.2 = .ok e.2) → writeEntries es = .ok es
  | [], _ => rfl
  | (k, v) :: es, h => by
    rw [writeEntries, h _ List.mem_cons_self, writeEntries_self fun e he => h e (List.mem_cons_of_mem _ he)]
    rfl

theorem write_plain {v : Value} (h : v.IsPlain) : write v = .ok v := by
  unfold Value.IsPlain at h
  induction h with
  | @leaf v hleaf => cases v <;> first | rfl | cases hleaf
  | list _ ih =>
    rw [write, writeAll_self ih]
    rfl
  | mapping _ _ ih =>
    rw [Value.ofFields, write, writeEntries_self]
    · rfl
    · intro e he
      obtain ⟨f, hf, rfl⟩ := List.mem_map.mp he
      exact ih f hf

/-! ## Values with no wire form -/

/-- A time that has no count of seconds, or a value with such a time in it. -/
inductive Unwritable : Value → Prop
  | time {m : Moment} : m.toSeconds? = none → Unwritable (.time m)
  | list {v : Value} {vs : List Value} : v ∈ vs → Unwritable v → Unwritable (.list vs)
  | tuple {v : Value} {vs : List Value} : v ∈ vs → Unwritable v → Unwritable (.tuple vs)
  | mapping {e : Value × Value} {es : List (Value × Value)} : e ∈ es → Unwritable e.2 → Unwritable (.mapping es)
  | record {model : String} {f : Label × Value} {fs : List (Label × Value)} : f ∈ fs → Unwritable f.2 →
      Unwritable (.record model fs)

mutual

theorem unwritable_of_write : ∀ {v : Value} {e : WriteError}, write v = .error e → Unwritable v
  | .member m, e, h => by
    obtain ⟨w, hw, -, -⟩ := write_member m
    rw [hw] at h
    cases h
  | .time m, e, h => by
    rw [write] at h
    split at h
    · cases h
    · next hm => exact .time hm
  | .list vs, e, h => by
    rw [write] at h
    obtain ⟨v, hv, hun⟩ := unwritable_of_writeAll (map_error h)
    exact .list hv hun
  | .tuple vs, e, h => by
    rw [write] at h
    obtain ⟨v, hv, hun⟩ := unwritable_of_writeAll (map_error h)
    exact .tuple hv hun
  | .mapping es, e, h => by
    rw [write] at h
    obtain ⟨entry, hentry, hun⟩ := unwritable_of_writeEntries (map_error h)
    exact .mapping hentry hun
  | .record model fs, e, h => by
    rw [write] at h
    obtain ⟨f, hf, hun⟩ := unwritable_of_writeFields (map_error h)
    exact .record hf hun
  | .duration _, e, h | .bytes _, e, h | .buffer _, e, h | .null, e, h | .bool _, e, h | .int _, e, h
  | .float _, e, h | .text _, e, h | .object _, e, h => by cases h

theorem unwritable_of_writeAll : ∀ {vs : List Value} {e : WriteError}, writeAll vs = .error e →
    ∃ v ∈ vs, Unwritable v
  | [], e, h => by cases h
  | v :: vs, e, h => by
    rw [writeAll] at h
    rcases both_error.mp h with h | h
    · exact ⟨v, List.mem_cons_self, unwritable_of_write h⟩
    · obtain ⟨v', hv', hun⟩ := unwritable_of_writeAll h
      exact ⟨v', List.mem_cons_of_mem _ hv', hun⟩

theorem unwritable_of_writeEntries : ∀ {es : List (Value × Value)} {e : WriteError}, writeEntries es = .error e →
    ∃ entry ∈ es, Unwritable entry.2
  | [], e, h => by cases h
  | (k, v) :: es, e, h => by
    rw [writeEntries] at h
    rcases both_error.mp h with h | h
    · exact ⟨_, List.mem_cons_self, unwritable_of_write h⟩
    · obtain ⟨entry, hentry, hun⟩ := unwritable_of_writeEntries h
      exact ⟨entry, List.mem_cons_of_mem _ hentry, hun⟩

theorem unwritable_of_writeFields : ∀ {fs : List (Label × Value)} {e : WriteError}, writeFields fs = .error e →
    ∃ f ∈ fs, Unwritable f.2
  | [], e, h => by cases h
  | (label, v) :: fs, e, h => by
    have hlater : writeFields fs = .error e → ∃ f ∈ (label, v) :: fs, Unwritable f.2 := by
      intro h
      obtain ⟨f, hf, hun⟩ := unwritable_of_writeFields h
      exact ⟨f, List.mem_cons_of_mem _ hf, hun⟩
    cases hv : v.isNull with
    | true =>
      rw [Value.isNull_eq_true.mp hv, writeFields_open] at h
      exact hlater h
    | false =>
      rw [writeFields] at h
      · rcases both_error.mp h with h | h
        · exact ⟨_, List.mem_cons_self, unwritable_of_write h⟩
        · exact hlater h
      · rintro rfl
        cases hv

end

theorem writeAll_error {e : WriteError} : ∀ {vs : List Value} {v : Value}, v ∈ vs → write v = .error e →
    writeAll vs = .error e
  | v' :: vs, v, hv, h => by
    rw [writeAll]
    apply both_error.mpr
    rcases List.mem_cons.mp hv with rfl | hv
    · exact .inl h
    · exact .inr (writeAll_error hv h)

theorem writeEntries_error {e : WriteError} : ∀ {es : List (Value × Value)} {entry : Value × Value}, entry ∈ es →
    write entry.2 = .error e → writeEntries es = .error e
  | (k, v) :: es, entry, hentry, h => by
    rw [writeEntries]
    apply both_error.mpr
    rcases List.mem_cons.mp hentry with rfl | hentry
    · exact .inl h
    · exact .inr (writeEntries_error hentry h)

theorem Unwritable.write_error {v : Value} (h : Unwritable v) : write v = .error .beforeCalendar := by
  induction h with
  | time hm => rw [write, hm]
  | list hv _ ih =>
    rw [write, writeAll_error hv ih]
    rfl
  | tuple hv _ ih =>
    rw [write, writeAll_error hv ih]
    rfl
  | mapping he _ ih =>
    rw [write, writeEntries_error he ih]
    rfl
  | record hf _ ih =>
    rw [write, writeFields_error hf ih]
    rfl

theorem write_ok_iff {v : Value} : (∃ w, write v = .ok w) ↔ ¬ Unwritable v := by
  constructor
  · rintro ⟨w, hw⟩ hun
    rw [hun.write_error] at hw
    cases hw
  · intro hv
    cases h : write v with
    | ok w => exact ⟨w, rfl⟩
    | error e => exact absurd (unwritable_of_write h) hv

end Wire

end TorrentRemote
