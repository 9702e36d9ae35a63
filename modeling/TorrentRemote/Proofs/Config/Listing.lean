import Mathlib.Data.List.Nodup
import TorrentRemote.Proofs.Config.Warnings
import TorrentRemote.Proofs.Files

/-!
# Profiles that are listed

The profiles that are listed are those that have a file, in order, and each of them is loaded from its file. The one
exception is the profile without a name: it is listed for its file as the others are, but it is loaded as no profile at
all (`listed_profiles`).
-/

namespace TorrentRemote.Config

/-! ## Names of files -/

def entryName (profile : String) : String :=
  profileStart ++ profile ++ fileEnding

theorem toList_entryName (profile : String) :
    (entryName profile).toList = profileStart.toList ++ profile.toList ++ fileEnding.toList := by
  unfold entryName
  rw [String.toList_append, String.toList_append]

theorem profileOf_iff {name p : String} : profileOf? name = some p ↔ name = entryName p := by
  unfold profileOf?
  dsimp only
  constructor
  · intro h
    split at h
    · next hname =>
      cases h
      apply String.toList_injective
      rw [toList_entryName, String.toList_ofList, hname]
    · cases h
  · rintro rfl
    have hinner : ((entryName p).toList.drop profileStart.toList.length).take
        ((entryName p).length - (profileStart.toList.length + fileEnding.toList.length)) = p.toList := by
      have hlength : (entryName p).length - (profileStart.toList.length + fileEnding.toList.length) =
          p.toList.length := by
        rw [← String.length_toList, toList_entryName, List.length_append, List.length_append]
        omega
      rw [hlength, toList_entryName, List.append_assoc, List.drop_left, List.take_left]
    rw [hinner, if_pos (toList_entryName p).symm, String.ofList_toList]

section
variable {files : Files} {p : String}

theorem mem_profiles : p ∈ profiles files ↔ files.HasEntry directory (entryName p) := by
  unfold profiles
  rw [List.mem_mergeSort, List.mem_filterMap]
  simp only [profileOf_iff, exists_eq_right, Files.mem_namesIn]

theorem profiles_nodup (files : Files) : (profiles files).Nodup := by
  unfold profiles
  rw [(List.mergeSort_perm _ _).nodup_iff]
  refine List.Nodup.filterMap ?_ (Files.eraseDups_nodup _)
  intro name name' p hname hname'
  rw [profileOf_iff.mp hname, profileOf_iff.mp hname']

theorem profiles_sorted (files : Files) : (profiles files).Pairwise (· < ·) := by
  have hle : (profiles files).Pairwise (· ≤ ·) := by
    unfold profiles
    refine (List.pairwise_mergeSort ?_ ?_ _).imp of_decide_eq_true
    · exact fun a b c hab hbc => decide_eq_true (String.le_trans (of_decide_eq_true hab) (of_decide_eq_true hbc))
    · exact fun a b => by simpa using String.le_total a b
  refine (hle.and (profiles_nodup files)).imp ?_
  rintro a b ⟨hle, hne⟩
  exact Decidable.byContradiction fun hge => hne (String.le_antisymm hle hge)

/-! ## Paths of profiles -/

theorem entryName_isName (h : files.Lists directory) (hp : p ∈ profiles files) : Files.IsEntryName (entryName p) :=
  h.named _ (mem_profiles.mp hp)

theorem path_named (files : Files) (h : Files.IsName (entryName p)) (hp : p ≠ "") :
    path files (some p) = files.pathOf (directory ++ [entryName p]) := by
  have hfilter : (some p).filter (!·.isEmpty) = some p := by
    simp [Option.filter, hp]
  unfold path fileName
  rw [hfilter, Files.pathOf_append]
  exact Files.join_name _ h

theorem path_nameless : path files (some "") ≠ files.pathOf (directory ++ [entryName ""]) := by
  have hpath : path files (some "") = files.pathOf (directory ++ [fileName none]) := by
    rw [Files.pathOf_append]
    exact Files.join_name _ (by decide)
  rw [hpath, Files.pathOf_append, Files.pathOf_append]
  intro h
  have hlists := congrArg String.toList h
  rw [String.toList_append (t := fileName none), String.toList_append (t := entryName "")] at hlists
  exact absurd (List.append_cancel_left hlists) (by decide)

/-! ## Loading a profile -/

/-- What comes of a file over the base file: an error of either of them ends the loading. -/
def overBase (files : Files) (file : String) : Except Failure Options × List Log.Record :=
  match ofFile files (path files none) with
  | (.error e, log) => (.error e, log)
  | (.ok base, log) => ((ofFile files file).1.map fun o => o.over base, log ++ (ofFile files file).2)

theorem ofFile_unseen {path : String} {e : FileError} (h : files.exists? path = .error e) :
    ofFile files path = (.error (.file e), []) := by
  unfold Files.exists? at h
  split at h
  · cases h
  · next hlook =>
    cases h
    unfold ofFile Files.read
    rw [hlook]
  · cases h

theorem load_overBase {profile : Option String} (hnamed : IsNamed profile)
    (hexists : files.exists? (path files profile) ≠ .ok false) :
    load files profile = overBase files (path files profile) := by
  unfold overBase
  rcases hbase : ofFile files (path files none) with ⟨e | base, log⟩
  · exact load_base_error hbase
  · rw [load_named hnamed hbase]
    dsimp only
    split
    · next e he =>
      -- a path that is too long cannot be looked at, and it cannot be read either
      rw [ofFile_unseen he, List.append_nil]
      rfl
    · next h => exact absurd h hexists
    · rfl

theorem ofFile_not_client {path : String} {c : ClientError} : (ofFile files path).1 ≠ .error (.client c) := by
  intro h
  exact (ofFile_escapes (Prod.ext h rfl)).not_client c rfl

theorem overBase_not_client {file : String} {c : ClientError} : (overBase files file).1 ≠ .error (.client c) := by
  intro h
  unfold overBase at h
  split at h
  · next e log hbase =>
    cases h
    exact ofFile_not_client (congrArg Prod.fst hbase)
  · exact ofFile_not_client (map_error h)

/-- A profile that is listed is there, or its path is too long to be looked at. -/
theorem listed_exists (h : files.Lists directory) (hp : p ∈ profiles files)
    (hpath : path files (some p) = files.pathOf (directory ++ [entryName p])) :
    files.exists? (path files (some p)) ≠ .ok false := by
  obtain ⟨node, -, hlook⟩ := Files.look_entry h (mem_profiles.mp hp)
  unfold Files.exists?
  rw [hpath, hlook]
  split_ifs <;> simp

end

/-! ## Main result -/

theorem listed_profiles {files : Files} (h : files.Lists directory) :
    (profiles files).Pairwise (· < ·) ∧ (∀ p, p ∈ profiles files ↔ files.HasEntry directory (entryName p)) ∧
    ∀ p ∈ profiles files,
      (load files (some p)).1 ≠ .error (notFound files (some p)) ∧
      (path files (some p) = files.pathOf (directory ++ [entryName p]) ↔ p ≠ "") ∧
      (p ≠ "" → load files (some p) = overBase files (path files (some p)) ∧
        ∃ node, files.node? (files.placeOf directory ++ [entryName p]) = some node ∧
          files.look (path files (some p)) =
            if Files.pathLimit < (path files (some p)).utf8ByteSize then .error .nameTooLong else .ok node) ∧
      (p = "" → path files (some p) = path files none ∧ load files (some p) = load files none) := by
  refine ⟨profiles_sorted files, fun p => mem_profiles, fun p hp => ?_⟩
  by_cases hname : p = ""
  · subst hname
    have hload : load files (some "") = ofFile files (path files none) :=
      load_unnamed fun ⟨_, hsome, hne⟩ => hne (Option.some.inj hsome).symm
    refine ⟨?_, iff_of_false path_nameless fun hne => hne rfl, fun hne => absurd rfl hne, fun _ => ⟨rfl, rfl⟩⟩
    rw [hload]
    exact ofFile_not_client
  · have hpath := path_named files (entryName_isName h hp).toIsName hname
    have hload := load_overBase ⟨p, rfl, hname⟩ (listed_exists h hp hpath)
    refine ⟨?_, iff_of_true hpath hname, fun _ => ⟨hload, ?_⟩, fun hnameless => absurd hnameless hname⟩
    · rw [hload]
      exact overBase_not_client
    · rw [hpath]
      exact Files.look_entry h (mem_profiles.mp hp)

def pointedFiles : Files where
  home := "/h"
  nodes := [(["h", "config", "torrentrpc", "torrentrpc-.conf"], .file (Text.Utf8.encode "[client]\nhost = a\n")),
    (["h", "config", "torrentrpc", "torrentrpc-a.b.conf"], .file (Text.Utf8.encode "[client]\nhost = b\n"))]

theorem pointedFiles_names :
    pointedFiles.namesIn directory = ["torrentrpc-.conf", "torrentrpc-a.b.conf"] := by
  decide +kernel

theorem pointedFiles_lists : pointedFiles.Lists directory where
  rooted := by decide
  proper := by decide
  reached _ _ := by decide +kernel
  named name hname := by
    rw [← Files.mem_namesIn, pointedFiles_names] at hname
    exact (by decide : ∀ name ∈ ["torrentrpc-.conf", "torrentrpc-a.b.conf"], Files.IsEntryName name) name hname

theorem pointedFiles_profiles : "" ∈ profiles pointedFiles ∧ "a.b" ∈ profiles pointedFiles := by
  simp only [mem_profiles, ← Files.mem_namesIn, pointedFiles_names]
  decide

theorem listed_profiles_pointed : pointedFiles.Lists directory ∧ (profiles pointedFiles).Pairwise (· < ·) ∧
    path pointedFiles (some "a.b") = "/h/config/torrentrpc/torrentrpc-a.b.conf" ∧
    (load pointedFiles (some "a.b")).1 ≠ .error (notFound pointedFiles (some "a.b")) ∧
    load pointedFiles (some "a.b") = overBase pointedFiles "/h/config/torrentrpc/torrentrpc-a.b.conf" ∧
    path pointedFiles (some "") = path pointedFiles none := by
  obtain ⟨hsorted, -, hlisted⟩ := listed_profiles pointedFiles_lists
  obtain ⟨hnameless, hnamed⟩ := pointedFiles_profiles
  obtain ⟨hfound, -, hload, -⟩ := hlisted "a.b" hnamed
  exact ⟨pointedFiles_lists, hsorted, by decide +kernel, hfound, (hload (by decide)).1,
    ((hlisted "" hnameless).2.2.2 rfl).1⟩

/-- The file for no name is listed, and what stands in it is not loaded. -/
theorem nameless_profile_lost : pointedFiles.Lists directory ∧ "" ∈ profiles pointedFiles ∧
    (load pointedFiles (some "")).1.toOption = some {} ∧
    (overBase pointedFiles (pointedFiles.pathOf (directory ++ [entryName ""]))).1.toOption = some { host := some "a" } ∧
    ¬ ∀ files : Files, files.Lists directory → ∀ p ∈ profiles files,
      path files (some p) = files.pathOf (directory ++ [entryName p]) := by
  refine ⟨pointedFiles_lists, pointedFiles_profiles.1, by decide +kernel, by decide +kernel, fun h => ?_⟩
  exact path_nameless (h pointedFiles pointedFiles_lists "" pointedFiles_profiles.1)

end TorrentRemote.Config
