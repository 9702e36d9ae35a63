import Mathlib.Data.List.DropRight
import TorrentRemote.Config.Load
import TorrentRemote.Proofs.Except

/-!
# What a configuration file says

A file says something of an option if it is well-formed and the option has a value that is neither empty nor
invalid: `Ini.Gives`. The options that are read from a file are what it says and nothing else (`ofFile_lookup`),
so that a file that is missing or not well-formed gives no options at all.
-/

namespace TorrentRemote.Config

/-! ## Trimmed texts -/

def IsTrimmed (s : String) : Prop :=
  (∀ c, s.toList.head? = some c → Text.isBlank c = false) ∧ ∀ c, s.toList.getLast? = some c → Text.isBlank c = false

theorem trim_isTrimmed (cs : List Char) : IsTrimmed (String.ofList (Text.trim cs)) := by
  have hprefix : Text.trim cs <+: cs.dropWhile Text.isBlank := List.rdropWhile_prefix _ _
  unfold IsTrimmed
  rw [String.toList_ofList]
  constructor
  · intro c hc
    obtain ⟨rest, hrest⟩ := hprefix
    have hfirst : (cs.dropWhile Text.isBlank).head? = some c := by
      rw [← hrest, List.head?_append, hc, Option.some_or]
    have hnot := List.head?_dropWhile_not Text.isBlank cs
    rwa [hfirst] at hnot
  · intro c hc
    have hne : Text.trim cs ≠ [] := by
      intro hnil
      rw [hnil] at hc
      cases hc
    have hlast := List.rdropWhile_last_not Text.isBlank (cs.dropWhile Text.isBlank) hne
    rw [List.getLast?_eq_some_getLast hne] at hc
    rw [← Option.some.inj hc]
    exact eq_false_of_ne_true hlast

/-! ## Options by their names -/

namespace Options

def value? (o : Options) (name : String) : Option Value :=
  match name with
  | "url" => o.url.map .text
  | "host" => o.host.map .text
  | "username" => o.username.map .text
  | "password" => o.password.map .text
  | "csrf" => o.token.map .text
  | "user_agent" => o.agent.map .text
  | "retries" => o.retries.map .int
  | "timeout" => o.timeout.map .float
  | "log_bodies" => o.logsBodies.map .bool
  | "credential_fallback" => o.fallback.map fun c => Connection.loginOf (some c)
  | _ => none

theorem lookup_named (o : Options) (name : String) : o.named.lookup name = o.value? name := by
  have hentry : ∀ (other : String) (v : Option Value), ((v.map fun v => (other, v)).toList).lookup name =
      if name = other then v else none := by
    intro other v
    cases v with
    | none => simp
    | some v =>
      by_cases h : name = other
      · simp [h]
      · simp [h, List.lookup_cons, beq_false_of_ne h]
  unfold value?
  split <;> simp only [named, List.lookup_append, hentry]
  case h_11 => simp_all
  all_goals simp

theorem value?_over (o base : Options) (name : String) :
    (o.over base).value? name = (o.value? name).or (base.value? name) := by
  unfold value?
  split <;> simp [Options.over, Option.map_or]

theorem value?_empty (name : String) : ({} : Options).value? name = none := by
  unfold value?
  split <;> rfl

end Options

/-! ## What a section gives -/

def textNames : List String := ["url", "host", "username", "password", "csrf", "user_agent"]

namespace Ini
variable (ini : Ini)

/-- The client's section has an option, which is not empty after its white space is taken off. -/
def Holds (option s : String) : Prop :=
  ∃ raw, ini.get? sectionName option = some raw ∧ s = String.ofList (Text.trim raw.toList) ∧ s ≠ ""

/-- The valid values. A switch is read from what its raw value stands for, and the password of the fallback login
may be missing. -/
inductive Gives : String → Value → Prop
  | text {name s : String} : name ∈ textNames → ini.Holds name s → Gives name (.text s)
  | retries {s : String} {n : Int} : ini.Holds "retries" s → Numeral.whole s = .ok n → 0 ≤ n → Gives "retries" (.int n)
  | timeout {s : String} {x : Binary64} : ini.Holds "timeout" s → Numeral.number s = .ok x →
      Gives "timeout" (.float x)
  | switch {s raw t : String} {b : Bool} : ini.Holds "log_bodies" s → ini.get? sectionName "log_bodies" = some raw →
      Interpolation.value ⟨sectionName, "log_bodies", raw, ini.get? sectionName⟩ = .ok t → readSwitch t = .ok b →
      Gives "log_bodies" (.bool b)
  | fallback {user password : String} : ini.Holds "fallback_username" user →
      (ini.Holds "fallback_password" password ∨ (∀ s, ¬ ini.Holds "fallback_password" s) ∧ password = "") →
      Gives "credential_fallback" (.tuple [.text user, .text password])

variable {ini} {option s : String}

theorem Holds.isTrimmed (h : ini.Holds option s) : IsTrimmed s := by
  obtain ⟨raw, -, rfl, -⟩ := h
  exact trim_isTrimmed raw.toList

theorem text?_iff : text? ini option = some s ↔ ini.Holds option s := by
  unfold text? Holds
  rw [Option.filter_eq_some_iff, Option.map_eq_some_iff]
  constructor
  · rintro ⟨⟨raw, hraw, rfl⟩, hne⟩
    refine ⟨raw, hraw, rfl, ?_⟩
    simpa using hne
  · rintro ⟨raw, hraw, rfl, hne⟩
    refine ⟨⟨raw, hraw, rfl⟩, ?_⟩
    simpa using hne

theorem text?_none : text? ini option = none ↔ ∀ s, ¬ ini.Holds option s := by
  simp only [← text?_iff]
  exact Option.eq_none_iff_forall_ne_some

theorem readOption_iff {α : Type} {read : String → Except String α} {a : α} :
    (readOption ini option read).1 = some a ↔ ∃ s, ini.Holds option s ∧ read s = .ok a := by
  simp only [← text?_iff]
  unfold readOption
  cases text? ini option with
  | none => simp
  | some s => cases h : read s <;> simp [h]

theorem readRetries_iff {n : Int} : readRetries s = .ok n ↔ Numeral.whole s = .ok n ∧ 0 ≤ n := by
  unfold readRetries
  cases h : Numeral.whole s with
  | error e =>
    constructor
    · intro hread
      cases hread
    · rintro ⟨⟨⟩, -⟩
  | ok m =>
    show (if m < 0 then .error (toString m) else .ok m : Except String Int) = .ok n ↔ _
    by_cases hm : m < 0
    · simp only [hm, if_true, reduceCtorEq, false_iff, Except.ok.injEq]
      omega
    · simp only [hm, if_false, Except.ok.injEq]
      omega

theorem readTimeout_iff {x : Binary64} : readTimeout s = .ok x ↔ Numeral.number s = .ok x := by
  unfold readTimeout
  cases Numeral.number s <;> simp [Except.mapError]

theorem switchOption_iff {b : Option Bool} {log : List Log.Record} (h : switchOption ini option = .ok (b, log))
    {value : Bool} : b = some value ↔ ∃ s raw t, ini.Holds option s ∧ ini.get? sectionName option = some raw ∧
      Interpolation.value ⟨sectionName, option, raw, ini.get? sectionName⟩ = .ok t ∧ readSwitch t = .ok value := by
  unfold switchOption at h
  cases htext : text? ini option with
  | none =>
    rw [htext] at h
    cases h
    simp [text?_none.mp htext]
  | some s =>
    rw [htext] at h
    obtain ⟨t, ht, h⟩ := bind_ok h
    obtain ⟨raw, hraw, -⟩ := text?_iff.mp htext
    rw [hraw, Option.getD_some] at ht
    constructor
    · rintro rfl
      cases hread : readSwitch t with
      | error message =>
        rw [hread] at h
        cases h
      | ok value' =>
        rw [hread] at h
        cases h
        exact ⟨s, raw, t, text?_iff.mp htext, hraw, ht, hread⟩
    · rintro ⟨s', raw', t', -, hraw', ht', hread⟩
      cases hraw.symm.trans hraw'
      cases ht.symm.trans ht'
      rw [hread] at h
      cases h
      rfl

theorem fallback_iff {c : Credentials} : fallback? ini = some c ↔ ini.Holds "fallback_username" c.user ∧
    (ini.Holds "fallback_password" c.password ∨
      (∀ s, ¬ ini.Holds "fallback_password" s) ∧ c.password = "") := by
  simp only [← text?_iff]
  unfold fallback?
  obtain ⟨user, password⟩ := c
  cases text? ini "fallback_username" with
  | none => simp
  | some user' => cases text? ini "fallback_password" <;> simp [eq_comm]

theorem optionsOf_value {o : Options} (hsection : ini.hasSection sectionName = true)
    (h : (optionsOf ini).1 = .ok o) {name : String} {v : Value} : o.value? name = some v ↔ ini.Gives name v := by
  unfold optionsOf at h
  rw [if_neg (by simp [hsection])] at h
  dsimp only at h
  split at h
  · cases h
  · next switch log hswitch =>
    cases h
    have htext : ∀ name, (text? ini name).map Value.text = some v ↔ ∃ s, ini.Holds name s ∧ Value.text s = v := by
      intro name
      simp only [← text?_iff, Option.map_eq_some_iff]
    constructor
    · intro hv
      unfold Options.value? at hv
      split at hv
      case h_1 | h_2 | h_3 | h_4 | h_5 | h_6 =>
        obtain ⟨s, hs, rfl⟩ := (htext _).mp hv
        exact .text (by decide) hs
      case h_7 =>
        obtain ⟨n, hn, rfl⟩ := Option.map_eq_some_iff.mp hv
        obtain ⟨s, hs, hread⟩ := readOption_iff.mp hn
        obtain ⟨hwhole, hle⟩ := readRetries_iff.mp hread
        exact .retries hs hwhole hle
      case h_8 =>
        obtain ⟨x, hx, rfl⟩ := Option.map_eq_some_iff.mp hv
        obtain ⟨s, hs, hread⟩ := readOption_iff.mp hx
        exact .timeout hs (readTimeout_iff.mp hread)
      case h_9 =>
        obtain ⟨b, hb, rfl⟩ := Option.map_eq_some_iff.mp hv
        obtain ⟨s, raw, t, hs, hraw, ht, hread⟩ := (switchOption_iff hswitch).mp hb
        exact .switch hs hraw ht hread
      case h_10 =>
        obtain ⟨c, hc, rfl⟩ := Option.map_eq_some_iff.mp hv
        obtain ⟨huser, hpassword⟩ := fallback_iff.mp hc
        exact .fallback huser hpassword
      case h_11 => cases hv
    · intro hv
      cases hv with
      | @text _ s hname hs =>
        have hs' := (htext _).mpr ⟨s, hs, rfl⟩
        simp only [textNames, List.mem_cons, List.not_mem_nil, or_false] at hname
        rcases hname with rfl | rfl | rfl | rfl | rfl | rfl <;> exact hs'
      | retries hs hn hle =>
        exact Option.map_eq_some_iff.mpr ⟨_, readOption_iff.mpr ⟨_, hs, readRetries_iff.mpr ⟨hn, hle⟩⟩, rfl⟩
      | timeout hs hx =>
        exact Option.map_eq_some_iff.mpr ⟨_, readOption_iff.mpr ⟨_, hs, readTimeout_iff.mpr hx⟩, rfl⟩
      | switch hs hraw ht hb =>
        exact Option.map_eq_some_iff.mpr ⟨_, (switchOption_iff hswitch).mpr ⟨_, _, _, hs, hraw, ht, hb⟩, rfl⟩
      | @fallback user password huser hpassword =>
        exact Option.map_eq_some_iff.mpr ⟨⟨user, password⟩, fallback_iff.mpr ⟨huser, hpassword⟩, rfl⟩

end Ini

/-! ## What a file says -/

/-- The file can be read, and it is a well-formed text in UTF-8. -/
def Parses (files : Files) (path : String) (ini : Ini) : Prop :=
  ∃ content cs, files.read path = .ok content ∧ Text.decodeFile Text.Utf8.strict content = (cs, none) ∧
    Ini.parse (Text.lines cs) = .ok ini

def Says (files : Files) (path name : String) (v : Value) : Prop :=
  ∃ ini, Parses files path ini ∧ ini.hasSection sectionName = true ∧ ini.Gives name v

section
variable {files : Files} {path : String} {o : Options}

theorem optionsOf_without_section {ini : Ini} (hsection : ini.hasSection sectionName = false) :
    (optionsOf ini).1 = .ok {} := by
  unfold optionsOf
  rw [if_pos (by simp [hsection])]

/-- A file that is loaded is well-formed and gives its options, or it gives none. -/
theorem ofFile_cases (h : (ofFile files path).1 = .ok o) :
    (∃ ini, Parses files path ini ∧ (optionsOf ini).1 = .ok o) ∨ (∀ ini, ¬ Parses files path ini) ∧ o = {} := by
  unfold ofFile at h
  split at h
  · next content hread =>
    obtain ⟨cs, error, hdecoded⟩ : ∃ cs error, Text.decodeFile Text.Utf8.strict content = (cs, error) := ⟨_, _, rfl⟩
    have hnone : (∀ ini, error = none → Ini.parse (Text.lines cs) ≠ .ok ini) → ∀ ini, ¬ Parses files path ini := by
      rintro hparse ini ⟨content', cs', hcontent, hdecoded', hini⟩
      cases hread.symm.trans hcontent
      cases hdecoded.symm.trans hdecoded'
      exact hparse ini rfl hini
    unfold ofContent at h
    rw [hdecoded] at h
    dsimp only at h
    -- content that is not all text loads only if a line before the bad place is malformed
    split at h
    · split at h
      · cases h
        exact .inr ⟨hnone nofun, rfl⟩
      · cases h
    · split at h
      · next e hparse =>
        cases h
        refine .inr ⟨hnone fun ini _ hini => ?_, rfl⟩
        rw [hparse] at hini
        cases hini
      · next ini hparse => exact .inl ⟨ini, ⟨content, cs, hread, hdecoded, hparse⟩, h⟩
  · cases h
  · next e hlong hread =>
    cases h
    refine .inr ⟨?_, rfl⟩
    rintro ini ⟨content, cs, hcontent, -⟩
    rw [hread] at hcontent
    cases hcontent

theorem ofFile_lookup (h : (ofFile files path).1 = .ok o) {name : String} {v : Value} :
    o.named.lookup name = some v ↔ Says files path name v := by
  rw [Options.lookup_named]
  rcases ofFile_cases h with ⟨ini, hini, ho⟩ | ⟨hnone, rfl⟩
  · have hunique : ∀ ini', Parses files path ini' → ini' = ini := by
      obtain ⟨content, cs, hread, hdecoded, hparse⟩ := hini
      rintro ini' ⟨content', cs', hread', hdecoded', hparse'⟩
      cases hread.symm.trans hread'
      cases hdecoded.symm.trans hdecoded'
      exact Except.ok.inj (hparse'.symm.trans hparse)
    by_cases hsection : ini.hasSection sectionName = true
    · rw [Ini.optionsOf_value hsection ho]
      constructor
      · intro hv
        exact ⟨ini, hini, hsection, hv⟩
      · rintro ⟨ini', hini', -, hv⟩
        rwa [hunique ini' hini'] at hv
    · rw [optionsOf_without_section (eq_false_of_ne_true hsection)] at ho
      cases ho
      rw [Options.value?_empty]
      constructor
      · intro hv
        cases hv
      · rintro ⟨ini', hini', hsection', -⟩
        rw [hunique ini' hini'] at hsection'
        exact absurd hsection' hsection
  · rw [Options.value?_empty]
    constructor
    · intro hv
      cases hv
    · rintro ⟨ini, hini, -⟩
      exact absurd hini (hnone ini)

end

/-! ## Sound options -/

/-- Texts are not empty and have no white space at their ends, retries are not negative, and a fallback login has a
user. -/
structure Options.IsSound (o : Options) : Prop where
  texts : ∀ name ∈ textNames, ∀ v, o.named.lookup name = some v → ∃ s, v = .text s ∧ s ≠ "" ∧ IsTrimmed s
  retries : ∀ v, o.named.lookup "retries" = some v → ∃ n, v = .int n ∧ 0 ≤ n
  fallback : ∀ v, o.named.lookup "credential_fallback" = some v →
    ∃ user password, v = .tuple [.text user, .text password] ∧ user ≠ ""

theorem ofFile_isSound {files : Files} {path : String} {o : Options} (h : (ofFile files path).1 = .ok o) :
    o.IsSound := by
  constructor
  · intro name hname v hv
    obtain ⟨ini, -, -, hgives⟩ := (ofFile_lookup h).mp hv
    cases hgives with
    | text _ hs =>
      have htrimmed := hs.isTrimmed
      obtain ⟨raw, -, -, hne⟩ := hs
      exact ⟨_, rfl, hne, htrimmed⟩
    | retries | timeout | switch | fallback => simp [textNames] at hname
  · intro v hv
    obtain ⟨ini, -, -, hgives⟩ := (ofFile_lookup h).mp hv
    generalize hname : "retries" = name at hgives
    cases hgives with
    | text htext _ => exact absurd (hname ▸ htext) (by decide)
    | retries _ _ hle => exact ⟨_, rfl, hle⟩
    | timeout | switch | fallback => exact absurd hname (by decide)
  · intro v hv
    obtain ⟨ini, -, -, hgives⟩ := (ofFile_lookup h).mp hv
    generalize hname : "credential_fallback" = name at hgives
    cases hgives with
    | text htext _ => exact absurd (hname ▸ htext) (by decide)
    | fallback huser _ =>
      obtain ⟨raw, -, -, hne⟩ := huser
      exact ⟨_, _, rfl, hne⟩
    | retries | timeout | switch => exact absurd hname (by decide)

theorem Options.lookup_over (o base : Options) (name : String) :
    (o.over base).named.lookup name = (o.named.lookup name).or (base.named.lookup name) := by
  simp only [lookup_named, value?_over]

theorem Options.IsSound.over {o base : Options} (ho : o.IsSound) (hbase : base.IsSound) : (o.over base).IsSound := by
  have hfrom : ∀ {name v}, (o.over base).named.lookup name = some v →
      o.named.lookup name = some v ∨ base.named.lookup name = some v := by
    intro name v hv
    rw [lookup_over, Option.or_eq_some_iff] at hv
    exact hv.imp_right And.right
  constructor
  · intro name hname v hv
    exact (hfrom hv).elim (ho.texts name hname v) (hbase.texts name hname v)
  · intro v hv
    exact (hfrom hv).elim (ho.retries v) (hbase.retries v)
  · intro v hv
    exact (hfrom hv).elim (ho.fallback v) (hbase.fallback v)

end TorrentRemote.Config
