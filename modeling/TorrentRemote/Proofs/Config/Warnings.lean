import TorrentRemote.Proofs.Config.Profiles
import TorrentRemote.Proofs.Text.Stream

/-!
# Warnings, and errors that get through

A value that is not valid is left out with a warning, and so is a file that is not well-formed. Three things end the
loading instead: a path that is too long, content that is not UTF-8, unless a line before that is malformed, and a
switch whose value cannot be made out (`load_outcome`).
-/

namespace TorrentRemote.Config

/-! ## Values that are refused -/

def checkedNames : List String := ["retries", "timeout", "log_bodies"]

namespace Ini
variable (ini : Ini)

def SwitchValue (result : Except InterpolationError String) : Prop :=
  ∃ s raw, ini.Holds "log_bodies" s ∧ ini.get? sectionName "log_bodies" = some raw ∧
    Interpolation.value ⟨sectionName, "log_bodies", raw, ini.get? sectionName⟩ = result

/-- An option has a value that is not valid, for a reason. -/
inductive Refuses : String → String → Prop
  | retries {s : String} {e : NumeralError} : ini.Holds "retries" s → Numeral.whole s = .error e →
      Refuses "retries" e.message
  | negative {s : String} {n : Int} : ini.Holds "retries" s → Numeral.whole s = .ok n → n < 0 →
      Refuses "retries" (toString n)
  | timeout {s : String} {e : NumeralError} : ini.Holds "timeout" s → Numeral.number s = .error e →
      Refuses "timeout" e.message
  | switch {t reason : String} : ini.SwitchValue (.ok t) → readSwitch t = .error reason →
      Refuses "log_bodies" reason

/-- One warning for each of some options that is refused. -/
inductive Warnings : List String → List Log.Record → Prop
  | nil : Warnings [] []
  | refused {option reason : String} {options : List String} {log : List Log.Record} : ini.Refuses option reason →
      Warnings options log → Warnings (option :: options) (invalid option reason :: log)
  | fine {option : String} {options : List String} {log : List Log.Record} : (∀ reason, ¬ ini.Refuses option reason) →
      Warnings options log → Warnings (option :: options) log

/-- The options are those given, and there is a warning for each that is refused: of each value that is not empty, it
is one or the other. -/
structure Accounted (o : Options) (log : List Log.Record) : Prop where
  given : ∀ name v, o.named.lookup name = some v ↔ ini.Gives name v
  warned : ini.Warnings checkedNames log
  settled : ∀ option ∈ checkedNames, ∀ s, ini.Holds option s →
    ((∃ v, ini.Gives option v) ↔ ∀ reason, ¬ ini.Refuses option reason)

variable {ini} {option reason s : String}

theorem Holds.unique {s' : String} (h : ini.Holds option s) (h' : ini.Holds option s') : s = s' :=
  Option.some.inj ((text?_iff.mpr h).symm.trans (text?_iff.mpr h'))

theorem SwitchValue.unique {r r' : Except InterpolationError String} (h : ini.SwitchValue r) (h' : ini.SwitchValue r') :
    r = r' := by
  obtain ⟨s, raw, -, hraw, rfl⟩ := h
  obtain ⟨s', raw', -, hraw', rfl⟩ := h'
  cases hraw.symm.trans hraw'
  rfl

theorem SwitchValue.exists_of_holds (h : ini.Holds "log_bodies" s) : ∃ r, ini.SwitchValue r := by
  obtain ⟨raw, hraw, htrimmed⟩ := h
  exact ⟨_, s, raw, ⟨raw, hraw, htrimmed⟩, hraw, rfl⟩

theorem readRetries_error : readRetries s = .error reason ↔
    (∃ e, Numeral.whole s = .error e ∧ e.message = reason) ∨
      ∃ n, Numeral.whole s = .ok n ∧ n < 0 ∧ toString n = reason := by
  unfold readRetries
  cases h : Numeral.whole s with
  | error e => simp [Except.mapError, bind, Except.bind]
  | ok n =>
    show (if n < 0 then .error (toString n) else .ok n : Except String Int) = .error reason ↔ _
    by_cases hn : n < 0 <;> simp [hn]

theorem readTimeout_error : readTimeout s = .error reason ↔ ∃ e, Numeral.number s = .error e ∧ e.message = reason := by
  unfold readTimeout
  cases Numeral.number s <;> simp [Except.mapError]

theorem refuses_retries : ini.Refuses "retries" reason ↔
    ∃ s, ini.Holds "retries" s ∧ readRetries s = .error reason := by
  constructor
  · intro h
    generalize hname : "retries" = name at h
    cases h with
    | retries hs he => exact ⟨_, hs, readRetries_error.mpr (.inl ⟨_, he, rfl⟩)⟩
    | negative hs hn hlt => exact ⟨_, hs, readRetries_error.mpr (.inr ⟨_, hn, hlt, rfl⟩)⟩
    | timeout | switch => exact absurd hname (by decide)
  · rintro ⟨s, hs, h⟩
    rcases readRetries_error.mp h with ⟨e, he, rfl⟩ | ⟨n, hn, hlt, rfl⟩
    · exact .retries hs he
    · exact .negative hs hn hlt

theorem refuses_timeout : ini.Refuses "timeout" reason ↔
    ∃ s, ini.Holds "timeout" s ∧ readTimeout s = .error reason := by
  constructor
  · intro h
    generalize hname : "timeout" = name at h
    cases h with
    | timeout hs he => exact ⟨_, hs, readTimeout_error.mpr ⟨_, he, rfl⟩⟩
    | retries | negative | switch => exact absurd hname (by decide)
  · rintro ⟨s, hs, h⟩
    obtain ⟨e, he, rfl⟩ := readTimeout_error.mp h
    exact .timeout hs he

theorem refuses_switch : ini.Refuses "log_bodies" reason ↔
    ∃ t, ini.SwitchValue (.ok t) ∧ readSwitch t = .error reason := by
  constructor
  · intro h
    generalize hname : "log_bodies" = name at h
    cases h with
    | switch ht he => exact ⟨_, ht, he⟩
    | retries | negative | timeout => exact absurd hname (by decide)
  · rintro ⟨t, ht, he⟩
    exact .switch ht he

/-! ## Reading the options -/

theorem mapped_iff {α : Type} (x : Option α) {f : α → Value} : (∃ v, x.map f = some v) ↔ ∃ a, x = some a := by
  cases x <;> simp

section
variable {α : Type} {read : String → Except String α}
  (hrefuses : ∀ reason, ini.Refuses option reason ↔ ∃ s, ini.Holds option s ∧ read s = .error reason)
include hrefuses

theorem warnings_readOption {options : List String} {log : List Log.Record} (h : ini.Warnings options log) :
    ini.Warnings (option :: options) ((readOption ini option read).2 ++ log) := by
  unfold readOption
  cases htext : text? ini option with
  | none =>
    refine .fine (fun reason hreason => ?_) h
    obtain ⟨s, hs, -⟩ := (hrefuses reason).mp hreason
    exact text?_none.mp htext s hs
  | some s =>
    have hs := text?_iff.mp htext
    cases hread : read s with
    | ok a =>
      simp only [hread]
      refine .fine (fun reason hreason => ?_) h
      obtain ⟨s', hs', he⟩ := (hrefuses reason).mp hreason
      rw [← hs.unique hs', hread] at he
      cases he
    | error reason =>
      simp only [hread]
      exact .refused ((hrefuses reason).mpr ⟨s, hs, hread⟩) h

theorem readOption_settled (hs : ini.Holds option s) :
    (∃ a, (readOption ini option read).1 = some a) ↔ ∀ reason, ¬ ini.Refuses option reason := by
  simp only [readOption_iff, hrefuses]
  constructor
  · rintro ⟨a, s', hs', ha⟩ reason ⟨s'', hs'', he⟩
    rw [hs'.unique hs'', he] at ha
    cases ha
  · intro hnone
    cases hread : read s with
    | ok a => exact ⟨a, s, hs, hread⟩
    | error reason => exact absurd ⟨s, hs, hread⟩ (hnone reason)

end

theorem switchOption_eq {r : Except InterpolationError String} (h : ini.SwitchValue r) :
    switchOption ini "log_bodies" = r.map fun t => readOption ini "log_bodies" fun _ => readSwitch t := by
  obtain ⟨s, raw, hs, hraw, rfl⟩ := h
  unfold switchOption readOption
  rw [text?_iff.mpr hs, hraw]
  dsimp only [Option.getD_some]
  cases Interpolation.value ⟨sectionName, "log_bodies", raw, ini.get? sectionName⟩ with
  | error e => rfl
  | ok t =>
    rw [ok_bind]
    cases hread : readSwitch t <;> simp only [Except.map, hread] <;> rfl

/-- The switch ends the reading, or it is read as any other option, from the value it stands for. -/
theorem switchOption_cases (ini : Ini) :
    (∃ e, ini.SwitchValue (.error e) ∧ switchOption ini "log_bodies" = .error e) ∨
    ∃ t, switchOption ini "log_bodies" = .ok (readOption ini "log_bodies" fun _ => readSwitch t) ∧
      ∀ reason, ini.Refuses "log_bodies" reason ↔ ∃ s, ini.Holds "log_bodies" s ∧ readSwitch t = .error reason := by
  by_cases hheld : ∃ s, ini.Holds "log_bodies" s
  · obtain ⟨s, hs⟩ := hheld
    obtain ⟨r, hr⟩ := SwitchValue.exists_of_holds hs
    cases r with
    | error e => exact .inl ⟨e, hr, switchOption_eq hr⟩
    | ok t =>
      refine .inr ⟨t, switchOption_eq hr, fun reason => refuses_switch.trans ?_⟩
      constructor
      · rintro ⟨t', ht', he⟩
        cases hr.unique ht'
        exact ⟨s, hs, he⟩
      · rintro ⟨s', -, he⟩
        exact ⟨t, hr, he⟩
  · have hnone : text? ini "log_bodies" = none := text?_none.mpr fun s hs => hheld ⟨s, hs⟩
    refine .inr ⟨"", ?_, fun reason => refuses_switch.trans (iff_of_false ?_ ?_)⟩
    · simp only [switchOption, readOption, hnone]
    · rintro ⟨t, ⟨s, raw, hs, -⟩, -⟩
      exact hheld ⟨s, hs⟩
    · rintro ⟨s, hs, -⟩
      exact hheld ⟨s, hs⟩

def numbersLog (ini : Ini) (log : List Log.Record) : List Log.Record :=
  (readOption ini "retries" readRetries).2 ++ ((readOption ini "timeout" readTimeout).2 ++ log)

theorem warnings_numbersLog {options : List String} {log : List Log.Record} (h : ini.Warnings options log) :
    ini.Warnings ("retries" :: "timeout" :: options) (numbersLog ini log) :=
  warnings_readOption (fun _ => refuses_retries) (warnings_readOption (fun _ => refuses_timeout) h)

section
variable (hsection : ini.hasSection sectionName = true)
include hsection

theorem optionsOf_unresolved {e : InterpolationError} (h : switchOption ini "log_bodies" = .error e) :
    optionsOf ini = (.error (.interpolation e), numbersLog ini []) := by
  unfold optionsOf numbersLog
  rw [if_neg (by simp [hsection])]
  simp only [h, List.append_nil]

theorem optionsOf_resolved {switch : Option Bool × List Log.Record}
    (h : switchOption ini "log_bodies" = .ok switch) :
    ∃ o, optionsOf ini = (.ok o, numbersLog ini switch.2) ∧
      o.retries = (readOption ini "retries" readRetries).1 ∧ o.timeout = (readOption ini "timeout" readTimeout).1 ∧
      o.logsBodies = switch.1 := by
  unfold optionsOf numbersLog
  rw [if_neg (by simp [hsection])]
  simp only [h, List.append_assoc]
  exact ⟨_, rfl, rfl, rfl, rfl⟩

theorem optionsOf_outcome :
    (∃ e log, ini.SwitchValue (.error e) ∧ ini.Warnings ["retries", "timeout"] log ∧
      optionsOf ini = (.error (.interpolation e), log)) ∨
    ∃ o log, optionsOf ini = (.ok o, log) ∧ ini.Accounted o log := by
  rcases switchOption_cases ini with ⟨e, he, hswitch⟩ | ⟨t, hswitch, hrefuses⟩
  · exact .inl ⟨e, _, he, warnings_numbersLog .nil, optionsOf_unresolved hsection hswitch⟩
  · obtain ⟨o, heq, hretries, htimeout, hbodies⟩ := optionsOf_resolved hsection hswitch
    have hgiven : ∀ name v, o.value? name = some v ↔ ini.Gives name v := fun name v =>
      optionsOf_value hsection (by rw [heq])
    have hwarned := warnings_readOption hrefuses .nil
    rw [List.append_nil] at hwarned
    refine .inr ⟨o, _, heq, fun name v => by rw [Options.lookup_named, hgiven], warnings_numbersLog hwarned, ?_⟩
    intro option hoption s hs
    simp only [checkedNames, List.mem_cons, List.not_mem_nil, or_false] at hoption
    simp only [← hgiven]
    rcases hoption with rfl | rfl | rfl
    · rw [← readOption_settled (fun _ => refuses_retries) hs, ← hretries]
      exact mapped_iff o.retries
    · rw [← readOption_settled (fun _ => refuses_timeout) hs, ← htimeout]
      exact mapped_iff o.timeout
    · rw [← readOption_settled hrefuses hs, ← hbodies]
      exact mapped_iff o.logsBodies

end

end Ini

/-! ## Files -/

section
variable (files : Files) (path : String)

/-- The file can be read, and it is the UTF-8 of a text. -/
def Contains (s : String) : Prop :=
  files.read path = .ok (Text.Utf8.encode s)

/-- The file is not well-formed. If it is not UTF-8, this is found in the lines before the place that is not. -/
inductive Malformed : IniError → Prop
  | text {s : String} {e : IniError} : Contains files path s → Ini.parse (Text.lines s.toList) = .error e → Malformed e
  | part {content : List UInt8} {cs : List Char} {error : Text.DecodeError} {e : IniError} :
      files.read path = .ok content → (∀ s, content ≠ Text.Utf8.encode s) →
      Text.decodeFile Text.Utf8.strict content = (cs, some error) →
      Ini.Progress.initial.readLines 1 (Text.completeLines cs) = .error e → Malformed e

/-- What a file gives, and what is logged. -/
inductive Outcome : Options → List Log.Record → Prop
  | unread : (∀ content, files.read path ≠ .ok content) → files.look path ≠ .error .nameTooLong → Outcome {} []
  | malformed {e : IniError} : Malformed files path e →
      Outcome {} [Log.warning ("Failed to parse config file " ++ path ++ ": " ++ e.message path)]
  | sectionless {s : String} {ini : Ini} : Contains files path s → Ini.parse (Text.lines s.toList) = .ok ini →
      ini.hasSection sectionName = false → Outcome {} []
  | accounted {s : String} {ini : Ini} {o : Options} {log : List Log.Record} : Contains files path s →
      Ini.parse (Text.lines s.toList) = .ok ini → ini.hasSection sectionName = true → ini.Accounted o log →
      Outcome o log

/-- An error that ends the loading when a file is read, and what is logged before it. -/
inductive Escapes : Failure → List Log.Record → Prop
  | tooLong : files.look path = .error .nameTooLong → Escapes (.file ⟨.nameTooLong, path⟩) []
  | undecodable {content : List UInt8} {cs : List Char} {error : Text.DecodeError} {p : Ini.Progress} :
      files.read path = .ok content → (∀ s, content ≠ Text.Utf8.encode s) →
      Text.decodeFile Text.Utf8.strict content = (cs, some error) →
      Ini.Progress.initial.readLines 1 (Text.completeLines cs) = .ok p → Escapes (.decoding error) []
  | unresolved {s : String} {ini : Ini} {e : InterpolationError} {log : List Log.Record} : Contains files path s →
      Ini.parse (Text.lines s.toList) = .ok ini → ini.hasSection sectionName = true → ini.SwitchValue (.error e) →
      ini.Warnings ["retries", "timeout"] log → Escapes (.interpolation e) log

variable {files path} {e : Failure} {o : Options} {log : List Log.Record}

theorem Escapes.not_client (h : Escapes files path e log) (c : ClientError) : e ≠ .client c := by
  cases h <;> nofun

theorem read_ok_exists {content : List UInt8} (h : files.read path = .ok content) : files.exists? path = .ok true := by
  unfold Files.read at h
  unfold Files.exists?
  split at h
  · next hlook => rw [hlook]
  · cases h
  · cases h

theorem Contains.decoded {s : String} {content : List UInt8} (h : Contains files path s)
    (hread : files.read path = .ok content) : Text.decodeFile Text.Utf8.strict content = (s.toList, none) := by
  cases hread.symm.trans h
  rw [Text.Utf8.decodeFile_iff, String.ofList_toList]

theorem Escapes.not_missing (h : Escapes files path e log) : files.exists? path ≠ .ok false := by
  cases h with
  | tooLong hlook =>
    unfold Files.exists?
    rw [hlook]
    nofun
  | undecodable hread _ _ _ | unresolved hread _ _ _ _ =>
    rw [read_ok_exists hread]
    nofun

theorem escapes_of_exists_error {e : FileError} (h : files.exists? path = .error e) :
    Escapes files path (.file e) [] := by
  unfold Files.exists? at h
  split at h
  · cases h
  · next hlook =>
    cases h
    exact .tooLong hlook
  · cases h

/-- Reading a file ends in an error that escapes, or it has an outcome. -/
inductive Reading (files : Files) (path : String) : Except Failure Options × List Log.Record → Prop
  | escaped {e : Failure} {log : List Log.Record} : Escapes files path e log → Reading files path (.error e, log)
  | done {o : Options} {log : List Log.Record} : Outcome files path o log → Reading files path (.ok o, log)

theorem ofContent_reading {content : List UInt8} (hread : files.read path = .ok content) :
    Reading files path (ofContent path content) := by
  obtain ⟨cs, error, hdecoded⟩ : ∃ cs error, Text.decodeFile Text.Utf8.strict content = (cs, error) := ⟨_, _, rfl⟩
  unfold ofContent
  rw [hdecoded]
  cases error with
  | some error =>
    have hnone : ∀ s, content ≠ Text.Utf8.encode s := by
      rintro s rfl
      have htext := Contains.decoded hread hread
      rw [hdecoded] at htext
      cases htext
    cases hlines : Ini.Progress.initial.readLines 1 (Text.completeLines cs) with
    | error e =>
      simp only [hlines]
      exact .done (.malformed (.part hread hnone hdecoded hlines))
    | ok p =>
      simp only [hlines]
      exact .escaped (.undecodable hread hnone hdecoded hlines)
  | none =>
    have hcontains : Contains files path (String.ofList cs) :=
      hread.trans (congrArg _ (Text.Utf8.decodeFile_iff.mp hdecoded))
    rw [← String.toList_ofList (l := cs)]
    cases hparse : Ini.parse (Text.lines (String.ofList cs).toList) with
    | error e =>
      simp only [hparse]
      exact .done (.malformed (.text hcontains hparse))
    | ok ini =>
      simp only [hparse]
      cases hsection : ini.hasSection sectionName with
      | false =>
        unfold optionsOf
        rw [if_pos (by simp [hsection])]
        exact .done (.sectionless hcontains hparse hsection)
      | true =>
        rcases Ini.optionsOf_outcome hsection with ⟨e, log, he, hwarned, heq⟩ | ⟨o, log, heq, haccounted⟩
        · rw [heq]
          exact .escaped (.unresolved hcontains hparse hsection he hwarned)
        · rw [heq]
          exact .done (.accounted hcontains hparse hsection haccounted)

theorem read_tooLong {e : FileError} (h : files.read path = .error e) :
    e.problem = .nameTooLong ↔ files.look path = .error .nameTooLong := by
  unfold Files.read at h
  split at h
  · cases h
  · next hlook =>
    cases h
    simp [hlook]
  · next hlook =>
    cases h
    simp [hlook]

theorem ofFile_reading (files : Files) (path : String) : Reading files path (ofFile files path) := by
  unfold ofFile
  split
  · next hread => exact ofContent_reading hread
  · next hread => exact .escaped (.tooLong ((read_tooLong hread).mp rfl))
  · next e hshort hread =>
    refine .done (.unread (fun content hcontent => ?_) fun hlook => ?_)
    · rw [hread] at hcontent
      cases hcontent
    · have hproblem := (read_tooLong hread).mpr hlook
      obtain ⟨problem, place⟩ := e
      cases hproblem
      exact hshort place rfl

theorem Escapes.ofFile_error (h : Escapes files path e log) : (ofFile files path).1 = .error e := by
  cases h with
  | tooLong hlook =>
    have hread : files.read path = .error ⟨.nameTooLong, path⟩ := by
      unfold Files.read
      rw [hlook]
    unfold ofFile
    rw [hread]
  | undecodable hread _ hdecoded hlines =>
    unfold ofFile ofContent
    rw [hread]
    simp only [hdecoded, hlines]
  | unresolved hcontains hparse hsection he _ =>
    have hdecoded := hcontains.decoded hcontains
    unfold ofFile ofContent
    rw [hcontains]
    simp only [hdecoded, hparse, Ini.optionsOf_unresolved hsection (Ini.switchOption_eq he)]

theorem ofFile_outcome (h : ofFile files path = (.ok o, log)) : Outcome files path o log := by
  have hreading := ofFile_reading files path
  rw [h] at hreading
  cases hreading with
  | done houtcome => exact houtcome

theorem ofFile_escapes (h : ofFile files path = (.error e, log)) : Escapes files path e log := by
  have hreading := ofFile_reading files path
  rw [h] at hreading
  cases hreading with
  | escaped he => exact he

theorem not_escapes_of_ok (h : ofFile files path = (.ok o, log)) (e : Failure) (more : List Log.Record) :
    ¬ Escapes files path e more := by
  intro he
  have herror := he.ofFile_error
  rw [h] at herror
  cases herror

end

/-! ## Loading -/

section
variable (files : Files) (profile : Option String)

/-- There are options, or the file of the profile is missing. -/
def Tolerated (result : Except Failure Options) : Prop :=
  (∃ o, result = .ok o) ∨
    IsNamed profile ∧ files.exists? (path files profile) = .ok false ∧ result = .error (notFound files profile)

/-- What comes of the base file and of the profile's over it, and what is logged on the way. -/
inductive Loaded : Except Failure Options × List Log.Record → Prop
  | base {o : Options} {log : List Log.Record} : ¬ IsNamed profile → Outcome files (path files none) o log →
      Loaded (.ok o, log)
  | layered {base upper : Options} {log more : List Log.Record} : IsNamed profile →
      Outcome files (path files none) base log → Outcome files (path files profile) upper more →
      Loaded (.ok (upper.over base), log ++ more)
  | missing {base : Options} {log : List Log.Record} : IsNamed profile → Outcome files (path files none) base log →
      files.exists? (path files profile) = .ok false → Loaded (.error (notFound files profile), log)
  | baseEscapes {e : Failure} {log : List Log.Record} : Escapes files (path files none) e log → Loaded (.error e, log)
  | profileEscapes {e : Failure} {base : Options} {log more : List Log.Record} : IsNamed profile →
      Outcome files (path files none) base log → Escapes files (path files profile) e more →
      Loaded (.error e, log ++ more)

variable {files profile}

/-! ## What loading tolerates -/

theorem escaped_not_tolerated {e : Failure} {path : String} {log : List Log.Record} (h : Escapes files path e log) :
    ¬ Tolerated files profile (.error e) := by
  rintro (⟨o, ho⟩ | ⟨-, -, he⟩)
  · cases ho
  · exact h.not_client _ (Except.error.inj he)

theorem layered_outcome {base : Options} {log : List Log.Record} (hnamed : IsNamed profile)
    (hbase : ofFile files (path files none) = (.ok base, log)) : Loaded files profile (load files profile) ∧
      (Tolerated files profile (load files profile).1 ↔ ∀ e more, ¬ Escapes files (path files profile) e more) := by
  have hdone := ofFile_outcome hbase
  rw [load_named hnamed hbase]
  cases hexists : files.exists? (path files profile) with
  | error e =>
    have he := escapes_of_exists_error hexists
    have hloaded := Loaded.profileEscapes hnamed hdone he
    rw [List.append_nil] at hloaded
    exact ⟨hloaded, iff_of_false (escaped_not_tolerated he) fun h => h _ _ he⟩
  | ok found =>
    cases found with
    | false =>
      have htolerated : Tolerated files profile (.error (notFound files profile)) := .inr ⟨hnamed, hexists, rfl⟩
      exact ⟨.missing hnamed hdone hexists, iff_of_true htolerated fun e more he => he.not_missing hexists⟩
    | true =>
      rcases hupper : ofFile files (path files profile) with ⟨e | upper, more⟩
      · have he := ofFile_escapes hupper
        exact ⟨.profileEscapes hnamed hdone he, iff_of_false (escaped_not_tolerated he) fun h => h e more he⟩
      · exact ⟨.layered hnamed hdone (ofFile_outcome hupper), iff_of_true (.inl ⟨_, rfl⟩) (not_escapes_of_ok hupper)⟩

/-- How loading ends. It is tolerated exactly if neither file has an error that escapes. -/
theorem load_outcome (files : Files) (profile : Option String) : Loaded files profile (load files profile) ∧
    (Tolerated files profile (load files profile).1 ↔
      (∀ e log, ¬ Escapes files (path files none) e log) ∧ ∀ e log, ¬ Escapes files (path files profile) e log) := by
  rcases hbase : ofFile files (path files none) with ⟨e | base, log⟩
  · have he := ofFile_escapes hbase
    rw [load_base_error hbase]
    exact ⟨.baseEscapes he, iff_of_false (escaped_not_tolerated he) fun h => h.1 e log he⟩
  · have hfine := not_escapes_of_ok hbase
    by_cases hnamed : IsNamed profile
    · obtain ⟨hloaded, htolerated⟩ := layered_outcome hnamed hbase
      exact ⟨hloaded, htolerated.trans (and_iff_right hfine).symm⟩
    · rw [load_unnamed hnamed, path_unnamed hnamed, hbase]
      exact ⟨.base hnamed (ofFile_outcome hbase), iff_of_true (.inl ⟨base, rfl⟩) ⟨hfine, hfine⟩⟩

end

/-! ## Files that end the loading -/

def baseFile (content : List UInt8) : Files where
  home := "/h"
  nodes := [(["h", "config", "torrentrpc", "torrentrpc.conf"], .file content)]

def switchError? : Except Failure Options → Option InterpolationError
  | .error (.interpolation e) => some e
  | _ => none

theorem eq_of_switchError {result : Except Failure Options} {e : InterpolationError}
    (h : switchError? result = some e) : result = .error (.interpolation e) := by
  unfold switchError? at h
  split at h
  · cases h
    rfl
  · cases h

/-- A byte that is in no text, and a switch that refers to an option that there is not. -/
theorem bad_files_escape : (load (baseFile [0xFF]) none).1 =
      .error (.decoding ⟨"utf-8", 0, 1, 0xFF, Text.Utf8.badStart⟩) ∧
    (load (baseFile (Text.Utf8.encode "[client]\nlog_bodies = %(x)s\n")) none).1 =
      .error (.interpolation (.unknownOption "log_bodies" "client" "x" "%(x)s")) ∧
    ¬ ∀ files profile, Tolerated files profile (load files profile).1 := by
  have hbytes : (load (baseFile [0xFF]) none).1 = .error (.decoding ⟨"utf-8", 0, 1, 0xFF, Text.Utf8.badStart⟩) := by
    rfl
  refine ⟨hbytes, eq_of_switchError (by decide +kernel), fun h => ?_⟩
  rcases h (baseFile [0xFF]) none with ⟨o, ho⟩ | ⟨⟨name, hname, -⟩, -⟩
  · rw [hbytes] at ho
    cases ho
  · cases hname

end TorrentRemote.Config
