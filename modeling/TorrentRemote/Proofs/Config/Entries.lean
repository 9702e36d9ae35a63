import TorrentRemote.Proofs.Config.Profiles
import TorrentRemote.Proofs.Text.Lines
import TorrentRemote.Proofs.Text.Stream

/-!
# Options written to a file

A file with the header of the client's section and a line for each of some options gives these options with their
texts as they stand, whatever marks of the format are in them: `entries_load`.
-/

namespace TorrentRemote.Config

/-! ## Lines of options -/

/-- A text that can stand as a value on one line: it is not empty, and no white space at its ends would be lost. -/
structure IsValue (s : String) : Prop where
  line : Text.IsLine s.toList
  trimmed : IsTrimmed s

def IsEntry (e : String × String) : Prop :=
  e.1 ∈ textNames ∧ IsValue e.2

def header : String := "[" ++ sectionName ++ "]"

def entryLine (e : String × String) : String :=
  e.1 ++ " = " ++ e.2

namespace Ini

/-- A name that is read back as it is, since nothing in it is a mark or white space. -/
structure IsPlainName (cs : List Char) : Prop where
  notEmpty : cs ≠ []
  lower : Text.lower cs = cs
  marks : ∀ c ∈ cs, isDelimiter c = false ∧ Text.isBlank c = false ∧ c ≠ '[' ∧ c ≠ '#' ∧ c ≠ ';'

theorem textNames_plain : ∀ name ∈ textNames, IsPlainName name.toList := by
  simp only [textNames, List.forall_mem_cons]
  refine ⟨?_, ?_, ?_, ?_, ?_, ?_, List.forall_mem_nil _⟩ <;>
    exact ⟨by decide, by decide, Text.forall_mem_of_all (by decide)⟩

theorem toList_entryLine (e : String × String) :
    (entryLine e).toList = e.1.toList ++ [' '] ++ '=' :: ([' '] ++ e.2.toList) := by
  simp [entryLine, String.toList_append]

section
variable {e : String × String} (he : IsEntry e)
include he

theorem entryLine_head : ∃ c rest, (entryLine e).toList = c :: rest ∧ c ∈ e.1.toList := by
  cases hname : e.1.toList with
  | nil => exact absurd hname (textNames_plain _ he.1).notEmpty
  | cons c rest =>
    rw [toList_entryLine, hname]
    exact ⟨c, _, rfl, List.mem_cons_self⟩

theorem isLine_entryLine : Text.IsLine (entryLine e).toList := by
  obtain ⟨c, rest, hline, -⟩ := entryLine_head he
  refine ⟨by rw [hline]; nofun, ?_⟩
  have hblank : ∀ c, Text.isBlank c = false → c ≠ '\n' ∧ c ≠ '\r' := by
    rintro c hc
    constructor <;> rintro rfl <;> cases hc
  rw [toList_entryLine]
  simp only [List.mem_append, List.mem_cons, List.not_mem_nil, or_false]
  rintro d ((hd | rfl) | rfl | rfl | hd)
  · exact hblank d ((textNames_plain _ he.1).marks d hd).2.1
  · decide
  · decide
  · decide
  · exact he.2.line.2 d hd

theorem trim_entryLine (stop : List Char) (hstop : ∀ c ∈ stop, Text.isBlank c = true) :
    Text.trim ((entryLine e).toList ++ stop) = (entryLine e).toList := by
  refine @Text.trim_around (entryLine e).toList [] stop hstop ?_ nofun ?_
  · intro c hc
    obtain ⟨d, hd⟩ := List.getLast?_isSome.mpr he.2.line.1 |> Option.isSome_iff_exists.mp
    rw [toList_entryLine, List.getLast?_append, List.getLast?_cons, List.getLast?_append, hd] at hc
    cases hc
    exact he.2.trimmed.2 _ hd
  · intro c hc
    obtain ⟨d, rest, hline, hd⟩ := entryLine_head he
    rw [hline] at hc
    cases hc
    exact ((textNames_plain _ he.1).marks c hd).2.1

theorem option_entryLine : option? (entryLine e).toList = some e := by
  obtain ⟨hnotEmpty, hlower, hmarks⟩ := textNames_plain _ he.1
  have hfront : ∀ c ∈ e.1.toList ++ [' '], (!isDelimiter c) = true := by
    simp only [List.mem_append, List.mem_singleton]
    rintro c (hc | rfl)
    · rw [(hmarks c hc).1]
      rfl
    · rfl
  have hname : Text.trimEnd Text.isBlank (e.1.toList ++ [' ']) = e.1.toList :=
    Text.trimEnd_around _ (by simp; rfl) fun c hc => (hmarks c (List.mem_of_getLast? hc)).2.1
  have hvalue := Text.trim_around [' '] [] nofun he.2.trimmed.2 (by simp; rfl) he.2.trimmed.1
  rw [List.append_nil] at hvalue
  unfold option?
  rw [toList_entryLine, List.dropWhile_append_of_pos hfront, List.takeWhile_append_of_pos hfront,
    List.dropWhile_cons_of_neg (by decide), List.takeWhile_cons_of_neg (by decide), List.append_nil]
  dsimp only
  rw [hname, hvalue, hlower, String.ofList_toList, String.ofList_toList]

end

/-! ## The section that is read -/

def Progress.within (es : Entries) (option : Option String) : Progress :=
  ⟨[], [(sectionName, es)], some sectionName, option, 0, []⟩

def kept (e : String × String) : String × List String :=
  (e.1, [e.2])

/-- The line of an entry as it stands in a file, with its end or without one. -/
def IsWhole (line : String) (whole : List Char) : Prop :=
  whole = line.toList ∨ whole = line.toList ++ ['\n']

theorem read_header {whole : List Char} (h : IsWhole header whole) (number : Nat) :
    Progress.initial.read number whole = .ok (Progress.within [] none) := by
  rcases h with rfl | rfl <;> rfl

theorem read_option {whole text : List Char} {name value : String} {es : Entries}
    (hcontent : content whole = .words text)
    (hindent : indentOf whole = 0) (hsection : sectionName? text = none) (hoption : option? text = some (name, value))
    (hname : name ≠ "") (hnew : name ∉ es.map Prod.fst) (option : Option String) (number : Nat) :
    (Progress.within es option).read number whole = .ok (Progress.within (es ++ [(name, [value])]) (some name)) := by
  have hempty : name.isEmpty = false := by simpa using hname
  have hlookup : es.lookup name = none := by
    rw [List.lookup_eq_none_iff]
    intro e he
    have hne : name ≠ e.1 := fun heq => hnew (heq ▸ List.mem_map_of_mem he)
    simpa using hne
  have hadd : (Progress.within es option).addOption number sectionName name value =
      .ok (Progress.within (es ++ [(name, [value])]) (some name)) := by
    have hentries : (Progress.within es option).entries sectionName = es := rfl
    unfold Progress.addOption
    rw [hentries, hlookup, hempty]
    rfl
  unfold Progress.read
  rw [hcontent]
  dsimp only
  rw [hindent, if_neg (by simp [Progress.within])]
  unfold Progress.startLine
  rw [hsection, hoption]
  show Progress.addOption (if name.isEmpty then _ else _) number sectionName name value = _
  rw [hempty]
  exact hadd

section
variable {e : String × String} (he : IsEntry e) {whole : List Char} (hwhole : IsWhole (entryLine e) whole)
include he

theorem sectionName_entryLine : sectionName? (entryLine e).toList = none := by
  obtain ⟨c, rest, hline, hc⟩ := entryLine_head he
  rw [hline]
  unfold sectionName?
  split
  · next heq =>
    cases heq
    exact absurd rfl ((textNames_plain _ he.1).marks _ hc).2.2.1
  · rfl

include hwhole

theorem content_entryLine : content whole = .words (entryLine e).toList := by
  have htrim : Text.trim whole = (entryLine e).toList := by
    rcases hwhole with rfl | rfl
    · have htrim := trim_entryLine he [] nofun
      rwa [List.append_nil] at htrim
    · exact trim_entryLine he _ (by simp; rfl)
  obtain ⟨c, rest, hline, hc⟩ := entryLine_head he
  obtain ⟨-, -, -, hhash, hsemicolon⟩ := (textNames_plain _ he.1).marks c hc
  unfold content
  rw [htrim, hline]
  simp [isComment, hhash, hsemicolon]

theorem indentOf_entryLine : indentOf whole = 0 := by
  obtain ⟨c, rest, hline, hc⟩ := entryLine_head he
  have hfirst : ∃ tail, whole = c :: tail := by
    rcases hwhole with rfl | rfl
    · exact ⟨rest, hline⟩
    · exact ⟨rest ++ ['\n'], by rw [hline]; rfl⟩
  obtain ⟨tail, rfl⟩ := hfirst
  rw [indentOf, List.takeWhile_cons_of_neg (by simp [((textNames_plain _ he.1).marks c hc).2.1])]
  rfl

theorem read_entryLine {es : Entries} (hnew : e.1 ∉ es.map Prod.fst) (option : Option String) (number : Nat) :
    (Progress.within es option).read number whole = .ok (Progress.within (es ++ [kept e]) (some e.1)) := by
  have hname : e.1 ≠ "" := by simpa using (textNames_plain _ he.1).notEmpty
  exact read_option (content_entryLine he hwhole) (indentOf_entryLine he hwhole) (sectionName_entryLine he)
    (option_entryLine he) hname hnew option number

end

theorem readLines_entries : ∀ {entries : List (String × String)} {wholes : List (List Char)} (es : Entries)
    (option : Option String) (number : Nat), (∀ e ∈ entries, IsEntry e) →
    List.Forall₂ IsWhole (entries.map entryLine) wholes → (es.map Prod.fst ++ entries.map Prod.fst).Nodup →
    ∃ last, (Progress.within es option).readLines number wholes = .ok (Progress.within (es ++ entries.map kept) last)
  | [], _, es, option, _, _, .nil, _ => ⟨option, by rw [List.map_nil, List.append_nil]; rfl⟩
  | e :: entries, _, es, option, number, he, .cons hwhole hwholes, hnames => by
    obtain ⟨he, hentries⟩ := List.forall_mem_cons.mp he
    have hnew : e.1 ∉ es.map Prod.fst :=
      fun hmem => (List.nodup_append.mp hnames).2.2 e.1 hmem e.1 List.mem_cons_self rfl
    obtain ⟨last, hlast⟩ := readLines_entries (es ++ [kept e]) (some e.1) (number + 1) hentries hwholes
      (by simpa [kept] using hnames)
    refine ⟨last, ?_⟩
    rw [Progress.readLines, read_entryLine he hwhole hnew, ok_bind, hlast, List.append_assoc]
    rfl

theorem options_kept {entries : List (String × String)} (h : ∀ e ∈ entries, IsEntry e) :
    options (entries.map kept) = entries := by
  unfold options
  rw [List.map_map]
  conv => rhs; rw [← List.map_id entries]
  refine List.map_congr_left fun e he => ?_
  have htrim := Text.trimEnd_around [] nofun (h e he).2.trimmed.2
  rw [List.append_nil] at htrim
  show (e.1, String.ofList (Text.trimEnd Text.isBlank e.2.toList)) = e
  rw [htrim, String.ofList_toList]

theorem parse_entries {entries : List (String × String)} {wholes : List (List Char)}
    (hentries : ∀ e ∈ entries, IsEntry e)
    (hnames : (entries.map Prod.fst).Nodup) (hwholes : List.Forall₂ IsWhole (header :: entries.map entryLine) wholes) :
    parse wholes = .ok ⟨[], [(sectionName, entries)]⟩ := by
  cases hwholes with
  | cons hheader hwholes =>
    obtain ⟨last, hlast⟩ := readLines_entries [] none 2 hentries hwholes hnames
    unfold parse
    rw [Progress.readLines, read_header hheader, ok_bind, hlast]
    show Except.ok (Ini.mk [] [(sectionName, options (entries.map kept))]) = _
    rw [options_kept hentries]

end Ini

/-! ## The options -/

def textOptions (entries : List (String × String)) : Options where
  url := entries.lookup "url"
  host := entries.lookup "host"
  username := entries.lookup "username"
  password := entries.lookup "password"
  token := entries.lookup "csrf"
  agent := entries.lookup "user_agent"

section
variable {entries : List (String × String)} (hentries : ∀ e ∈ entries, IsEntry e)
include hentries

theorem lookup_value {name s : String} (h : entries.lookup name = some s) : IsValue s := by
  obtain ⟨front, back, rfl, -⟩ := List.lookup_eq_some_iff.mp h
  exact (hentries (name, s) (List.mem_append_right _ List.mem_cons_self)).2

theorem lookup_other {name : String} (h : name ∉ textNames) : entries.lookup name = none := by
  rw [List.lookup_eq_none_iff]
  rintro e he
  have hne : name ≠ e.1 := fun heq => h (heq ▸ (hentries e he).1)
  simpa using hne

theorem text_entries (name : String) : text? ⟨[], [(sectionName, entries)]⟩ name = entries.lookup name := by
  have hget : Ini.get? ⟨[], [(sectionName, entries)]⟩ sectionName name = entries.lookup name := Option.or_none
  unfold text?
  rw [hget]
  cases hlookup : entries.lookup name with
  | none => rfl
  | some s =>
    have hvalue := lookup_value hentries hlookup
    have htrim := Text.trim_around [] [] nofun hvalue.trimmed.2 nofun hvalue.trimmed.1
    rw [List.nil_append, List.append_nil] at htrim
    rw [Option.map_some, htrim, String.ofList_toList]
    have hne : s.isEmpty = false := by simpa using hvalue.line.1
    simp [Option.filter, hne]

theorem optionsOf_entries : optionsOf ⟨[], [(sectionName, entries)]⟩ = (.ok (textOptions entries), []) := by
  have hnone : ∀ {name}, name ∉ textNames → text? ⟨[], [(sectionName, entries)]⟩ name = none := by
    intro name hname
    rw [text_entries hentries, lookup_other hentries hname]
  have hread : ∀ {α : Type} {read : String → Except String α} {name}, name ∉ textNames →
      readOption ⟨[], [(sectionName, entries)]⟩ name read = (none, []) := by
    intro α read name hname
    unfold readOption
    rw [hnone hname]
  have hswitch : switchOption ⟨[], [(sectionName, entries)]⟩ "log_bodies" = .ok (none, []) := by
    unfold switchOption
    rw [hnone (by decide)]
  have hfallback : fallback? ⟨[], [(sectionName, entries)]⟩ = none := by
    unfold fallback?
    rw [show text? _ "fallback_username" = none from hnone (by decide)]
    rfl
  have hsection : Ini.hasSection ⟨[], [(sectionName, entries)]⟩ sectionName = true := rfl
  unfold optionsOf
  rw [hsection, hread (by decide), hread (by decide), hswitch, hfallback]
  simp only [text_entries hentries]
  rfl

theorem lookup_textOptions (name : String) :
    (textOptions entries).named.lookup name = (entries.lookup name).map .text := by
  rw [Options.lookup_named]
  unfold Options.value?
  split
  case h_1 | h_2 | h_3 | h_4 | h_5 | h_6 => rfl
  all_goals
    rw [lookup_other hentries (by simp_all [textNames])]
    rfl

end

/-! ## The file -/

/-- A text of the header and a line for each of some entries. -/
def IsWritten (entries : List (String × String)) (cs : List Char) : Prop :=
  Text.Consists ((header :: entries.map entryLine).map String.toList) cs

theorem ofContent_written {entries : List (String × String)} (hentries : ∀ e ∈ entries, IsEntry e)
    (hnames : (entries.map Prod.fst).Nodup) {cs : List Char} (hcs : IsWritten entries cs) (path : String) :
    ofContent path (Text.Utf8.encode (String.ofList cs)) = (.ok (textOptions entries), []) := by
  have hlines : ∀ line ∈ (header :: entries.map entryLine).map String.toList, Text.IsLine line := by
    simp only [List.forall_mem_map, List.forall_mem_cons]
    exact ⟨⟨by decide, Text.forall_mem_of_all (by decide)⟩, fun e he => Ini.isLine_entryLine (hentries e he)⟩
  have hwholes : List.Forall₂ Ini.IsWhole (header :: entries.map entryLine) (Text.lines cs) :=
    (List.forall₂_map_left_iff (f := String.toList)).mp (hcs.lines hlines)
  unfold ofContent
  rw [Text.Utf8.decodeFile_iff.mpr rfl]
  dsimp only
  rw [Ini.parse_entries hentries hnames hwholes]
  exact optionsOf_entries hentries

theorem entries_load {entries : List (String × String)} (hentries : ∀ e ∈ entries, IsEntry e)
    (hnames : (entries.map Prod.fst).Nodup) {cs : List Char} (hcs : IsWritten entries cs) :
    ∃ o : Options, (∀ name, o.named.lookup name = (entries.lookup name).map .text) ∧
      (∀ files path, files.read path = .ok (Text.Utf8.encode (String.ofList cs)) → ofFile files path = (.ok o, [])) ∧
      ∀ files, files.read (path files none) = .ok (Text.Utf8.encode (String.ofList cs)) →
        load files none = (.ok o, []) := by
  have hfile : ∀ files path, files.read path = .ok (Text.Utf8.encode (String.ofList cs)) →
      ofFile files path = (.ok (textOptions entries), []) := by
    intro files path hread
    unfold ofFile
    rw [hread]
    exact ofContent_written hentries hnames hcs path
  refine ⟨textOptions entries, lookup_textOptions hentries, hfile, fun files hread => ?_⟩
  rw [load_unnamed (by rintro ⟨name, ⟨⟩, -⟩)]
  exact hfile files _ hread

def markedEntries : List (String × String) :=
  [("username", "[x]"), ("password", "%(user)s = #;\"é")]

theorem entries_load_marked : ∃ o : Options, o.named.lookup "password" = some (.text "%(user)s = #;\"é") ∧
    o.named.lookup "url" = none ∧ ∀ files path, files.read path =
      .ok (Text.Utf8.encode "[client]\r\nusername = [x]\npassword = %(user)s = #;\"é") →
        ofFile files path = (.ok o, []) := by
  have hentries : ∀ e ∈ markedEntries, IsEntry e := by
    simp only [markedEntries, List.forall_mem_cons]
    refine ⟨⟨by decide, ⟨by decide, Text.forall_mem_of_all (by decide)⟩, ?_, ?_⟩,
      ⟨by decide, ⟨by decide, Text.forall_mem_of_all (by decide)⟩, ?_, ?_⟩, nofun⟩ <;>
    · rintro c ⟨⟩
      rfl
  have hwritten : IsWritten markedEntries "[client]\r\nusername = [x]\npassword = %(user)s = #;\"é".toList :=
    @Text.Consists.cons _ ['\r', '\n'] _ _ (by decide) (@Text.Consists.cons _ ['\n'] _ _ (by decide) (.last _))
  obtain ⟨o, hlookup, hfile, -⟩ := entries_load hentries (by decide) hwritten
  exact ⟨o, hlookup "password", hlookup "url", hfile⟩

end TorrentRemote.Config
