import TorrentRemote.Config.Template
import TorrentRemote.Proofs.Config.Entries
import TorrentRemote.Proofs.Files.Directories

/-!
# Making the default configuration file

A file of comments, empty lines and options without values gives no options and no warning (`ofContent_vacant`), and
the template is such a file (`ofContent_template`). A fault of the file itself is the client's error, but what keeps the
directories on the way from being made is not (`creation_outcome`).
-/

namespace TorrentRemote.Config

/-! ## Options without values -/

namespace Ini

/-- The options that a line adds without a value, if that is all it does: none on a comment or on an empty line. -/
def vacantNames? (line : List Char) : Option (List String) :=
  if line.any fun c => c = '\n' || c = '\r' then none
  else
    match content (line ++ ['\n']) with
    | .comment | .blank => some []
    | .words text =>
      match sectionName? text, option? text with
      | none, some (name, value) =>
        if indentOf (line ++ ['\n']) = 0 ∧ name ≠ "" ∧ value = "" then some [name] else none
      | _, _ => none

def allVacant? : List (List Char) → Option (List String)
  | [] => some []
  | line :: lines => do return (← vacantNames? line) ++ (← allVacant? lines)

/-- Reading stands in the client's section, and no option there has a value. -/
def Progress.IsVacant (names : List String) (p : Progress) : Prop :=
  ∃ es option, p = Progress.within es option ∧ es.map Prod.fst = names ∧ ∀ e ∈ es, ∀ line ∈ e.2, line = ""

theorem vacantNames_ends {line : List Char} {names : List String} (h : vacantNames? line = some names) :
    ∀ c ∈ line, c ≠ '\n' ∧ c ≠ '\r' := by
  unfold vacantNames? at h
  split at h
  · cases h
  · next hends => simpa using hends

theorem vacantNames_cases {line : List Char} {names : List String} (h : vacantNames? line = some names) :
    (content (line ++ ['\n']) = .comment ∨ content (line ++ ['\n']) = .blank) ∧ names = [] ∨
    ∃ text name, content (line ++ ['\n']) = .words text ∧ sectionName? text = none ∧ option? text = some (name, "") ∧
      indentOf (line ++ ['\n']) = 0 ∧ name ≠ "" ∧ names = [name] := by
  unfold vacantNames? at h
  split at h
  · cases h
  · split at h
    · next hcontent => exact .inl ⟨.inl hcontent, (Option.some.inj h).symm⟩
    · next hcontent => exact .inl ⟨.inr hcontent, (Option.some.inj h).symm⟩
    · next text hcontent =>
      split at h
      · next name value hsection hoption =>
        split at h
        · next hall =>
          obtain ⟨hindent, hname, rfl⟩ := hall
          exact .inr ⟨text, name, hcontent, hsection, hoption, hindent, hname, (Option.some.inj h).symm⟩
        · cases h
      · cases h

theorem allVacant_cons {line : List Char} {lines : List (List Char)} {names : List String}
    (h : allVacant? (line :: lines) = some names) :
    ∃ first rest, vacantNames? line = some first ∧ allVacant? lines = some rest ∧ names = first ++ rest := by
  obtain ⟨first, hfirst, h⟩ := Option.bind_eq_some_iff.mp h
  obtain ⟨rest, hrest, h⟩ := Option.bind_eq_some_iff.mp h
  exact ⟨first, rest, hfirst, hrest, (Option.some.inj h).symm⟩

theorem allVacant_ends {lines : List (List Char)} {names : List String} (h : allVacant? lines = some names) :
    ∀ line ∈ lines, ∀ c ∈ line, c ≠ '\n' ∧ c ≠ '\r' := by
  induction lines generalizing names with
  | nil => nofun
  | cons line lines ih =>
    obtain ⟨first, rest, hfirst, hrest, rfl⟩ := allVacant_cons h
    exact List.forall_mem_cons.mpr ⟨vacantNames_ends hfirst, ih hrest⟩

/-! ### Before the header -/

theorem read_initial {line : List Char} (h : vacantNames? line = some []) (number : Nat) :
    Progress.initial.read number (line ++ ['\n']) = .ok Progress.initial := by
  rcases vacantNames_cases h with ⟨hcontent | hcontent, -⟩ | ⟨text, name, -, -, -, -, -, hnames⟩
  · unfold Progress.read
    rw [hcontent]
  · unfold Progress.read
    rw [hcontent]
    rfl
  · cases hnames

theorem readLines_skip {front : List (List Char)} (h : allVacant? front = some []) (rest : List (List Char))
    (number : Nat) :
    Progress.initial.readLines number (front.map (· ++ ['\n']) ++ rest) =
      Progress.initial.readLines (number + front.length) rest := by
  induction front generalizing number with
  | nil => rfl
  | cons line front ih =>
    obtain ⟨first, others, hfirst, hothers, hnames⟩ := allVacant_cons h
    obtain ⟨rfl, rfl⟩ := List.append_eq_nil_iff.mp hnames.symm
    rw [List.map_cons, List.cons_append, Progress.readLines, read_initial hfirst, ok_bind, ih hothers, List.length_cons,
      Nat.add_assoc, Nat.add_comm 1]

/-! ### In the section -/

theorem within_goOn (es : Entries) (option : Option String) :
    ∃ es', (Progress.within es option).goOn "" = .within es' option ∧
    es'.map Prod.fst = es.map Prod.fst ∧ ∀ e' ∈ es', ∃ e ∈ es, e'.2 = e.2 ∨ e'.2 = e.2 ++ [""] := by
  cases option with
  | none => exact ⟨es, rfl, rfl, fun e he => ⟨e, he, .inl rfl⟩⟩
  | some name =>
    refine ⟨extend name "" es, rfl, ?_, ?_⟩
    · unfold extend
      rw [List.map_map]
      refine List.map_congr_left fun e _ => ?_
      by_cases hname : e.1 = name <;> simp [hname]
    · unfold extend
      rw [List.forall_mem_map]
      intro e he
      by_cases hname : e.1 = name
      · exact ⟨e, he, .inr (by rw [if_pos hname])⟩
      · exact ⟨e, he, .inl (by rw [if_neg hname])⟩

theorem Progress.IsVacant.read {names more : List String} {p : Progress} (h : p.IsVacant names) {line : List Char}
    (hline : vacantNames? line = some more) (hnames : (names ++ more).Nodup) (number : Nat) :
    ∃ p', p.read number (line ++ ['\n']) = .ok p' ∧ p'.IsVacant (names ++ more) := by
  obtain ⟨es, option, rfl, rfl, hes⟩ := h
  rcases vacantNames_cases hline with ⟨hcontent | hcontent, rfl⟩ |
    ⟨text, name, hcontent, hsection, hoption, hindent, hname, rfl⟩
  · refine ⟨Progress.within es option, ?_, es, option, rfl, (List.append_nil _).symm, hes⟩
    unfold Progress.read
    rw [hcontent]
  · -- an empty line goes on with the value before it, which still has nothing but line ends
    obtain ⟨es', hgoOn, hfst, hlines⟩ := within_goOn es option
    refine ⟨Progress.within es' option, ?_, es', option, rfl, by rw [hfst, List.append_nil], ?_⟩
    · unfold Progress.read
      rw [hcontent]
      exact congrArg _ hgoOn
    · intro e' he' line hline
      obtain ⟨e, he, heq | heq⟩ := hlines e' he'
      · exact hes e he line (heq ▸ hline)
      · rw [heq, List.mem_append, List.mem_singleton] at hline
        exact hline.elim (hes e he line) id
  · have hnew : name ∉ es.map Prod.fst :=
      fun hmem => (List.nodup_append.mp hnames).2.2 name hmem name (List.mem_singleton_self name) rfl
    refine ⟨_, read_option hcontent hindent hsection hoption hname hnew option number, _, _, rfl, by simp, ?_⟩
    simp only [List.forall_mem_append, List.forall_mem_singleton]
    exact ⟨hes, trivial⟩

theorem Progress.IsVacant.readLines {names more : List String} {p : Progress} (h : p.IsVacant names)
    {lines : List (List Char)} (hlines : allVacant? lines = some more) (hnames : (names ++ more).Nodup) (number : Nat) :
    ∃ p', p.readLines number (lines.map (· ++ ['\n'])) = .ok p' ∧ p'.IsVacant (names ++ more) := by
  induction lines generalizing names more p number with
  | nil =>
    cases hlines
    exact ⟨p, rfl, by rwa [List.append_nil]⟩
  | cons line lines ih =>
    obtain ⟨first, rest, hfirst, hrest, rfl⟩ := allVacant_cons hlines
    rw [← List.append_assoc] at hnames
    obtain ⟨p₁, hread, hp₁⟩ := h.read hfirst (List.nodup_append.mp hnames).1 number
    obtain ⟨p₂, hreads, hp₂⟩ := ih hp₁ hrest hnames (number + 1)
    rw [List.append_assoc] at hp₂
    refine ⟨p₂, ?_, hp₂⟩
    rw [List.map_cons, Progress.readLines, hread, ok_bind, hreads]

theorem mem_intercalate_empty {lines : List String} (h : ∀ line ∈ lines, line = "") :
    ∀ c ∈ ("\n".intercalate lines).toList, c = '\n' := by
  induction lines with
  | nil => nofun
  | cons line lines ih =>
    obtain ⟨rfl, hlines⟩ := List.forall_mem_cons.mp h
    cases lines with
    | nil => simp
    | cons next lines =>
      rw [String.intercalate_cons_cons]
      simpa [String.toList_append] using ih hlines

theorem options_vacant {es : Entries} (h : ∀ e ∈ es, ∀ line ∈ e.2, line = "") :
    options es = (es.map Prod.fst).map fun name => (name, "") := by
  unfold options
  rw [List.map_map]
  refine List.map_congr_left fun e he => ?_
  have hblank : ∀ c ∈ ("\n".intercalate e.2).toList, Text.isBlank c = true := by
    intro c hc
    rw [mem_intercalate_empty (h e he) c hc]
    rfl
  have htrim := @Text.trimEnd_around [] _ hblank nofun
  rw [List.nil_append] at htrim
  show (e.1, String.ofList (Text.trimEnd Text.isBlank ("\n".intercalate e.2).toList)) = (e.1, "")
  rw [htrim]

theorem parse_vacant {front back : List (List Char)} {names : List String} (hfront : allVacant? front = some [])
    (hback : allVacant? back = some names) (hnames : names.Nodup) :
    parse ((front ++ header.toList :: back).map (· ++ ['\n'])) =
      .ok ⟨[], [(sectionName, names.map fun name => (name, ""))]⟩ := by
  have hstart : (Progress.within [] none).IsVacant [] := ⟨[], none, rfl, rfl, nofun⟩
  obtain ⟨p, hread, es, option, rfl, hfst, hes⟩ := hstart.readLines hback hnames (1 + front.length + 1)
  rw [List.nil_append] at hfst
  unfold parse
  rw [List.map_append, List.map_cons, readLines_skip hfront, Progress.readLines, read_header (.inr rfl), ok_bind, hread]
  show Except.ok (Ini.mk [] [(sectionName, options es)]) = _
  rw [options_vacant hes, hfst]

end Ini

/-! ## No options and no warning -/

theorem text_vacant (names : List String) (option : String) :
    text? ⟨[], [(sectionName, names.map fun name => (name, ""))]⟩ option = none := by
  have hget : Ini.get? ⟨[], [(sectionName, names.map fun name => (name, ""))]⟩ sectionName option =
      (names.map fun name => (name, "")).lookup option := Option.or_none
  unfold text?
  rw [hget]
  cases hlookup : (names.map fun name => (name, "")).lookup option with
  | none => rfl
  | some value =>
    obtain ⟨front, back, heq, -⟩ := List.lookup_eq_some_iff.mp hlookup
    obtain ⟨name, -, hname⟩ := List.mem_map.mp (heq ▸ List.mem_append_right front List.mem_cons_self)
    cases hname
    rfl

theorem optionsOf_vacant {ini : Ini} (hsection : ini.hasSection sectionName = true)
    (h : ∀ option, text? ini option = none) :
    optionsOf ini = (.ok {}, []) := by
  unfold optionsOf readOption switchOption fallback?
  simp only [h, hsection]
  rfl

def fileText (lines : List String) : String :=
  String.join (lines.map (· ++ "\n"))

theorem ofContent_vacant {front back names : List String} (hfront : Ini.allVacant? (front.map String.toList) = some [])
    (hback : Ini.allVacant? (back.map String.toList) = some names) (hnames : names.Nodup) (path : String) :
    ofContent path (Text.Utf8.encode (fileText (front ++ header :: back))) = (.ok {}, []) := by
  have hends : ∀ line ∈ (front ++ header :: back).map String.toList, ∀ c ∈ line, c ≠ '\n' ∧ c ≠ '\r' := by
    rw [List.map_append, List.map_cons, List.forall_mem_append, List.forall_mem_cons]
    exact ⟨Ini.allVacant_ends hfront, Text.forall_mem_of_all (by decide), Ini.allVacant_ends hback⟩
  have htext : fileText (front ++ header :: back) =
      String.ofList (((front ++ header :: back).map String.toList).flatMap (· ++ ['\n'])) := by
    rw [← String.toList_inj, String.toList_ofList, fileText, String.toList_join, List.flatMap_map, List.flatMap_map]
    simp only [String.toList_append]
    rfl
  unfold ofContent
  rw [htext, Text.Utf8.decodeFile_iff.mpr rfl]
  dsimp only
  rw [Text.lines_ended hends, List.map_append, List.map_cons, Ini.parse_vacant hfront hback hnames]
  exact optionsOf_vacant rfl (text_vacant names)

/-! ## The template -/

def templateNames : List String :=
  ["url", "host", "username", "password", "fallback_username", "fallback_password", "csrf", "retries", "timeout",
    "user_agent", "log_bodies"]

theorem templateLines_eq : templateLines = templateLines.take 3 ++ header :: templateLines.drop 4 := by
  rw [show header = "[client]" by decide]
  rfl

theorem templateLines_vacant : Ini.allVacant? ((templateLines.take 3).map String.toList) = some [] ∧
    Ini.allVacant? ((templateLines.drop 4).map String.toList) = some templateNames := by
  decide +kernel

theorem ofContent_template (path : String) : ofContent path (Text.Utf8.encode template) = (.ok {}, []) := by
  have hlines := ofContent_vacant templateLines_vacant.1 templateLines_vacant.2 (by decide) path
  rw [← templateLines_eq] at hlines
  exact hlines

/-! ## Making the file -/

def IsClean (names : List String) : Prop :=
  ∀ name ∈ names, '\x00' ∉ name.toList

theorem checkNames_ok {names : List String} (h : IsClean names) : checkNames names = .ok () := by
  have hnone : (names.any (·.contains '\x00')) = false := by simpa [IsClean, String.contains_char_eq] using h
  unfold checkNames
  rw [hnone]
  rfl

theorem checkNames_error {names : List String} (h : ¬ IsClean names) : checkNames names = .error .zeroInPath := by
  have hsome : (names.any (·.contains '\x00')) = true := by simpa [IsClean, String.contains_char_eq] using h
  unfold checkNames
  rw [hsome]
  rfl

def refusal (path : String) (problem : PathProblem) : Failure :=
  .client (.general ("Failed to create config file " ++ path ++ ": " ++ (FileError.mk problem path).message))

/-- What comes of making the default file at some steps below the home directory. -/
inductive Creation (files : Files) (below : List String) : Except Failure Files → Prop
  | created {grown : Files} : files.Grown grown → IsClean below → ¬ files.Obstructed below.dropLast →
      (grown.put (files.placeOf below) (.file (Text.Utf8.encode template))).read (files.pathOf below) =
        .ok (Text.Utf8.encode template) →
      Creation files below (.ok (grown.put (files.placeOf below) (.file (Text.Utf8.encode template))))
  | refused {problem : PathProblem} : problem ∈ [.isDirectory, .nameTooLong] → IsClean below →
      ¬ files.Obstructed below.dropLast → Creation files below (.error (refusal (files.pathOf below) problem))
  | escaped {e : FileError} {front : List String} : e.problem ∈ Files.obstacles → front <+: below.dropLast →
      e.path = files.pathOf front → IsClean below.dropLast → files.Obstructed below.dropLast →
      Creation files below (.error (.file e))
  | zero : ¬ IsClean below → Creation files below (.error .zeroInPath)

/-- The file at a path gives no options and no warning, or the error is the client's. -/
def CreatedOrRefused (path : String) : Except Failure Files → Prop
  | .ok files => ∃ o, ofFile files path = (.ok o, []) ∧ o.named = []
  | .error e => ∃ c, e = .client c

theorem Creation.createdOrRefused_iff {files : Files} {below : List String} {result : Except Failure Files}
    (h : Creation files below result) : CreatedOrRefused (files.pathOf below) result ↔
      IsClean below ∧ ¬ files.Obstructed below.dropLast := by
  cases h with
  | created _ hclean hclear hread =>
    refine iff_of_true ⟨{}, ?_, rfl⟩ ⟨hclean, hclear⟩
    unfold ofFile
    rw [hread]
    exact ofContent_template _
  | refused _ hclean hclear => exact iff_of_true ⟨_, rfl⟩ ⟨hclean, hclear⟩
  | escaped _ _ _ _ hobstructed => exact iff_of_false nofun fun h => h.2 hobstructed
  | zero hzero => exact iff_of_false nofun fun h => hzero h.1

theorem writeTemplate_creation {files : Files} (hhome : files.HasHome) (path : String) :
    Creation files (Files.steps path) (writeTemplate files path) := by
  unfold writeTemplate
  dsimp only
  by_cases hfront : IsClean (Files.steps path).dropLast
  · rw [checkNames_ok hfront, ok_bind]
    have hmade := Files.makeDirectories_outcome hhome fun step hstep =>
      Files.isStep_of_mem (List.dropLast_subset _ hstep) (hfront step hstep)
    generalize files.makeDirectories (Files.steps path).dropLast.reverse = made at hmade ⊢
    cases hmade with
    | failed hproblem hway hpath hobstructed => exact .escaped hproblem hway hpath hfront hobstructed
    | @made grown hgrown hlook hclear =>
      show Creation files _ (checkNames (Files.steps path) >>= fun _ => (grown.write _ _).mapError _)
      by_cases hclean : IsClean (Files.steps path)
      · rw [checkNames_ok hclean, ok_bind]
        have hwritten := Files.write_outcome (hgrown.hasHome hhome)
          (fun step hstep => Files.isStep_of_mem hstep (hclean step hstep))
          (by rw [Files.pathOf_congr hgrown.home, hlook]) (Text.Utf8.encode template)
        generalize grown.write (Files.steps path) (Text.Utf8.encode template) = written at hwritten ⊢
        cases hwritten with
        | written hread =>
          rw [Files.pathOf_congr hgrown.home] at hread
          rw [Files.placeOf_congr hgrown.home] at hread ⊢
          exact .created hgrown hclean hclear hread
        | refused hproblem =>
          rw [Files.pathOf_congr hgrown.home]
          exact .refused hproblem hclean hclear
      · rw [checkNames_error hclean]
        exact .zero hclean
  · rw [checkNames_error hfront]
    exact .zero fun hclean => hfront fun name hname => hclean name (List.dropLast_subset _ hname)

theorem creation_outcome {files : Files} (hhome : files.HasHome) (path : String) :
    Creation files (Files.steps path) (writeTemplate files path) ∧
      (CreatedOrRefused (files.pathOf (Files.steps path)) (writeTemplate files path) ↔
        IsClean (Files.steps path) ∧ ¬ files.Obstructed (Files.steps path).dropLast) := by
  have h := writeTemplate_creation hhome path
  exact ⟨h, h.createdOrRefused_iff⟩

def fileOnTheWay : Files where
  home := "/h"
  nodes := [(["h", "f"], .file [])]


theorem fileOnTheWay_hasHome : fileOnTheWay.HasHome :=
  ⟨rfl, rfl⟩

theorem creation_outcome_beside : fileOnTheWay.HasHome ∧
    CreatedOrRefused "/h/d/x.conf" (writeTemplate fileOnTheWay "d/x.conf") ∧
    ¬ CreatedOrRefused "/h/f/x.conf" (writeTemplate fileOnTheWay "f/x.conf") := by
  have hclean : ∀ name, '\x00' ∉ name.toList → IsClean [name, "x.conf"] := by
    intro name hname
    exact List.forall_mem_cons.mpr ⟨hname, List.forall_mem_singleton.mpr (by decide)⟩
  refine ⟨fileOnTheWay_hasHome, ?_, ?_⟩
  · refine (creation_outcome fileOnTheWay_hasHome "d/x.conf").2.mpr ⟨hclean "d" (by decide), ?_⟩
    rintro (hlong | hblocked)
    · exact absurd hlong (by decide)
    · rcases (Files.blocked_cons_iff []).mp hblocked with hlong | ⟨content, hfile⟩ | hlater
      · exact absurd hlong (by decide)
      · cases hfile
      · exact Files.not_blocked_nil hlater
  · intro h
    exact ((creation_outcome fileOnTheWay_hasHome "f/x.conf").2.mp h).2 (.inr (.file rfl))

/-- A file where a directory has to be. -/
theorem file_on_the_way_escapes : fileOnTheWay.HasHome ∧
    writeTemplate fileOnTheWay "f/x.conf" = .error (.file ⟨.exists, "/h/f"⟩) ∧
    ¬ ∀ (files : Files) (path : String), files.HasHome →
      CreatedOrRefused (files.pathOf (Files.steps path)) (writeTemplate files path) := by
  have hescapes : writeTemplate fileOnTheWay "f/x.conf" = .error (.file ⟨.exists, "/h/f"⟩) := by
    have hclean : IsClean (Files.steps "f/x.conf").dropLast := List.forall_mem_singleton.mpr (by decide)
    unfold writeTemplate
    dsimp only
    rw [checkNames_ok hclean]
    rfl
  refine ⟨fileOnTheWay_hasHome, hescapes, fun h => ?_⟩
  have hclaim := h fileOnTheWay "f/x.conf" fileOnTheWay_hasHome
  rw [hescapes] at hclaim
  obtain ⟨c, hc⟩ := hclaim
  cases hc

end TorrentRemote.Config
