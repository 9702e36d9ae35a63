import TorrentRemote.Client
import TorrentRemote.Proofs.Config.Options

/-!
# Profiles over the base file

The options of a profile go before those of the base file, name by name, and what a caller gives goes before both.
A client looks at its options by their names only, so that it is the same whichever way they were put together.
-/

namespace TorrentRemote

namespace Arguments

def strangers (a : Arguments) : List String :=
  (a.named.map Prod.fst).filter fun name => !Connection.optionNames.contains name

end Arguments

namespace Connection.Options
variable {a b : Arguments}

theorem ofArguments_congr (hlookup : ∀ name, a.named.lookup name = b.named.lookup name)
    (hstrangers : a.strangers = b.strangers) : ofArguments a = ofArguments b := by
  have hfirst : (a.named.map Prod.fst).find? (fun name => !optionNames.contains name) =
      (b.named.map Prod.fst).find? fun name => !optionNames.contains name := by
    rw [← List.head?_filter, ← List.head?_filter]
    exact congrArg List.head? hstrangers
  have hchecked : a.checkNames "Transport.__init__" optionNames = b.checkNames "Transport.__init__" optionNames := by
    unfold Arguments.checkNames
    rw [hfirst]
  have hget : ∀ name usual, a.get name usual = b.get name usual := by
    intro name usual
    unfold Arguments.get
    rw [hlookup]
  unfold ofArguments
  simp only [hchecked, hget]

end Connection.Options

namespace Config

namespace Options

theorem named_known (o : Options) {entry : String × Value} (h : entry ∈ o.named) :
    entry.1 ∈ Connection.optionNames := by
  have hname : ∀ {name : String} {v : Option Value}, entry ∈ (v.map fun v => (name, v)).toList → entry.1 = name := by
    intro name v hentry
    obtain ⟨w, -, rfl⟩ := Option.map_eq_some_iff.mp (Option.mem_toList.mp hentry)
    rfl
  simp only [named, List.mem_append] at h
  rcases h with ((((((((h | h) | h) | h) | h) | h) | h) | h) | h) | h <;> rw [hname h] <;> decide

theorem over_empty (o : Options) : ({} : Options).over o = o := by
  cases o
  simp [Options.over]

theorem over_self (o : Options) : o.over o = o := by
  cases o
  simp [Options.over]

structure AreOf (o : Options) (files : Files) (path : String) : Prop where
  lookup : ∀ name v, o.named.lookup name = some v ↔ Says files path name v
  malformed : (∀ ini, ¬ Parses files path ini) → o = {}
  sound : o.IsSound

end Options

section
variable {files : Files} {path : String} {o : Options}

theorem ofFile_areOf (h : (ofFile files path).1 = .ok o) : o.AreOf files path where
  lookup _ _ := ofFile_lookup h
  malformed := by
    intro hnone
    rcases ofFile_cases h with ⟨ini, hini, -⟩ | ⟨-, ho⟩
    · exact absurd hini (hnone ini)
    · exact ho
  sound := ofFile_isSound h

end

/-! ## Loading both files -/

def IsNamed (profile : Option String) : Prop :=
  ∃ name, profile = some name ∧ name ≠ ""

def notFound (files : Files) (profile : Option String) : Failure :=
  .client (.general ("Profile config not found: " ++ path files profile))

section
variable {files : Files} {profile : Option String}

theorem named_of_filter {name : String} (h : profile.filter (!·.isEmpty) = some name) :
    profile = some name ∧ IsNamed profile := by
  obtain ⟨hprofile, hname⟩ := Option.filter_eq_some_iff.mp h
  exact ⟨hprofile, name, hprofile, by simpa using hname⟩

theorem not_named_of_filter (h : profile.filter (!·.isEmpty) = none) : ¬ IsNamed profile := by
  rintro ⟨name, rfl, hname⟩
  simp [Option.filter, hname] at h

theorem path_unnamed (h : ¬ IsNamed profile) : path files profile = path files none := by
  unfold path fileName
  cases hprofile : profile.filter (!·.isEmpty) with
  | none => rfl
  | some name => exact absurd (named_of_filter hprofile).2 h

theorem load_unnamed (h : ¬ IsNamed profile) : load files profile = ofFile files (path files none) := by
  unfold load
  cases hprofile : profile.filter (!·.isEmpty) with
  | none => rcases ofFile files (path files none) with ⟨_ | _, log⟩ <;> rfl
  | some name => exact absurd (named_of_filter hprofile).2 h

theorem load_base_error {e : Failure} {log : List Log.Record} (h : ofFile files (path files none) = (.error e, log)) :
    load files profile = (.error e, log) := by
  unfold load
  rw [h]

theorem load_named {base : Options} {log : List Log.Record} (hnamed : IsNamed profile)
    (h : ofFile files (path files none) = (.ok base, log)) : load files profile =
      match files.exists? (path files profile) with
      | .error e => (.error (.file e), log)
      | .ok false => (.error (notFound files profile), log)
      | .ok true => ((ofFile files (path files profile)).1.map fun o => o.over base,
          log ++ (ofFile files (path files profile)).2) := by
  unfold load
  rw [h]
  cases hprofile : profile.filter (!·.isEmpty) with
  | none => exact absurd hnamed (not_named_of_filter hprofile)
  | some name =>
    obtain ⟨rfl, -⟩ := named_of_filter hprofile
    rfl

/-- Both files are loaded on their own. Without a profile the base file is taken for the profile's. -/
theorem load_ok {o : Options} (h : (load files profile).1 = .ok o) :
    ∃ base upper, (ofFile files (path files none)).1 = .ok base ∧ (ofFile files (path files profile)).1 = .ok upper ∧
      o = upper.over base := by
  rcases hbase : ofFile files (path files none) with ⟨e | base, log⟩
  · rw [load_base_error hbase] at h
    cases h
  · by_cases hnamed : IsNamed profile
    · rw [load_named hnamed hbase] at h
      split at h
      · cases h
      · cases h
      · obtain ⟨upper, hupper, ho⟩ := map_ok h
        exact ⟨base, upper, rfl, hupper, ho.symm⟩
    · -- the file is then the base file, which goes over itself
      rw [load_unnamed hnamed, hbase] at h
      cases h
      exact ⟨o, o, rfl, by rw [path_unnamed hnamed, hbase], o.over_self.symm⟩

end

/-- Arguments that give, name by name, what a caller gives that is not null, or else the profile's option, or else
that of the base file. -/
structure Layers (given : Arguments) (upper base : Options) (a : Arguments) : Prop where
  lookup : ∀ name, a.named.lookup name = ((given.named.filter fun g => !g.2.isNull).lookup name).or
    ((upper.named.lookup name).or (base.named.lookup name))
  strangers : a.strangers = ({ named := given.named.filter fun g => !g.2.isNull } : Arguments).strangers

theorem under_strangers (o : Options) (given : Arguments) :
    (o.under given).strangers =
      ({ named := given.named.filter fun g => !g.2.isNull } : Arguments).strangers := by
  have hnone : (o.named.map Prod.fst).filter (fun name => !Connection.optionNames.contains name) = [] := by
    rw [List.filter_eq_nil_iff]
    intro name hname
    obtain ⟨entry, hentry, rfl⟩ := List.mem_map.mp hname
    simpa using o.named_known hentry
  unfold Arguments.strangers Options.under
  rw [List.map_append, List.filter_append, hnone, List.append_nil]

theorem Layers.connect {given a : Arguments} {upper base : Options} (h : Layers given upper base a) (own : Bool)
    (script : List Connection.Exchange) :
    Client.connect ((upper.over base).under given) own script = Client.connect a own script := by
  unfold Client.connect
  rw [Connection.Options.ofArguments_congr]
  · intro name
    rw [h.lookup, Options.under, List.lookup_append, Options.lookup_over]
  · rw [h.strangers, under_strangers]

/-- A configuration that loads is the profile's file over the base file, both of them loaded on their own. A client
made from it, or the error that there is instead, is the one that the layers give. -/
theorem profile_over_base {files : Files} {profile : Option String} {o : Options}
    (h : (load files profile).1 = .ok o) :
    ∃ base upper, (ofFile files (path files none)).1 = .ok base ∧ base.AreOf files (path files none) ∧
      (ofFile files (path files profile)).1 = .ok upper ∧ upper.AreOf files (path files profile) ∧
      (∀ name, o.named.lookup name = (upper.named.lookup name).or (base.named.lookup name)) ∧
      (∀ name, (∀ v, ¬ Says files (path files profile) name v) →
        o.named.lookup name = base.named.lookup name) ∧
      ((∀ ini, ¬ Parses files (path files profile) ini) → o = base) ∧
      o.IsSound ∧
      ∀ given a own script, Layers given upper base a →
        ((Client.configure files profile given).1 >>= fun b => Client.connect b own script) =
          Client.connect a own script := by
  obtain ⟨base, upper, hbase, hupper, rfl⟩ := load_ok h
  have hbaseOf := ofFile_areOf hbase
  have hupperOf := ofFile_areOf hupper
  refine ⟨base, upper, hbase, hbaseOf, hupper, hupperOf, upper.lookup_over base, ?_, ?_, ?_, ?_⟩
  · intro name hnone
    have hmissing : upper.named.lookup name = none := by
      rw [Option.eq_none_iff_forall_ne_some]
      intro v hv
      exact hnone v ((hupperOf.lookup name v).mp hv)
    rw [upper.lookup_over base, hmissing, Option.none_or]
  · intro hmalformed
    rw [hupperOf.malformed hmalformed]
    exact base.over_empty
  · exact hupperOf.sound.over hbaseOf.sound
  · intro given a own script hlayers
    unfold Client.configure
    rw [← hlayers.connect own script]
    dsimp only
    rw [h]
    rfl

def sampleFiles : Files where
  home := "/h"
  nodes := [
    (["h", "config", "torrentrpc", "torrentrpc.conf"],
      .file (Text.Utf8.encode "[client]\nhost=a\nretries=2\n")),
    (["h", "config", "torrentrpc", "torrentrpc-p.conf"],
      .file (Text.Utf8.encode "[client]\nhost=\nretries=-1\ncsrf=t\n"))]

theorem sampleFiles_loads :
    (ofFile sampleFiles (path sampleFiles none)).1.toOption = some { host := some "a", retries := some 2 } ∧
      (ofFile sampleFiles (path sampleFiles (some "p"))).1.toOption = some { token := some "t" } ∧
      (load sampleFiles (some "p")).1.toOption = some { host := some "a", token := some "t", retries := some 2 } := by
  decide +kernel

theorem profile_over_base_sample : ∃ o base, (load sampleFiles (some "p")).1 = .ok o ∧
    (ofFile sampleFiles (path sampleFiles none)).1 = .ok base ∧ o.IsSound ∧
    o.named.lookup "host" = base.named.lookup "host" ∧
    ((Client.configure sampleFiles (some "p") { named := [("csrf", .text "u"), ("url", .null)] }).1 >>=
        fun b => Client.connect b true []) =
      Client.connect { named := [("retries", .int 2), ("csrf", .text "u"), ("host", .text "a")] } true [] := by
  obtain ⟨hbase', hupper', ho⟩ := sampleFiles_loads
  have hload := ok_of_toOption ho
  obtain ⟨base, upper, hbase, -, hupper, hupperOf, -, hkeeps, -, hsound, hclient⟩ := profile_over_base hload
  have hbase_eq := Except.ok.inj (hbase.symm.trans (ok_of_toOption hbase'))
  have hupper_eq := Except.ok.inj (hupper.symm.trans (ok_of_toOption hupper'))
  refine ⟨_, base, hload, hbase, hsound, hkeeps "host" ?_, hclient _ _ _ _ ?_⟩
  · intro v hv
    have hlookup := (hupperOf.lookup "host" v).mpr hv
    rw [hupper_eq] at hlookup
    cases hlookup
  · constructor
    · intro name
      rw [hbase_eq, hupper_eq]
      show List.lookup name [("retries", .int 2), ("csrf", .text "u"), ("host", .text "a")] =
        (List.lookup name [("csrf", Value.text "u")]).or
          ((List.lookup name [("csrf", .text "t")]).or (List.lookup name [("host", .text "a"), ("retries", .int 2)]))
      by_cases hretries : name = "retries"
      · rw [hretries]
        rfl
      · by_cases hcsrf : name = "csrf"
        · rw [hcsrf]
          rfl
        · simp only [List.lookup_cons, beq_false_of_ne hretries, beq_false_of_ne hcsrf, List.lookup_nil,
            Option.none_or]
    · rfl

end Config

end TorrentRemote
