import Mathlib.Data.List.Induction
import TorrentRemote.Files

/-!
# Entries of directories

What is listed in a directory is there: a path that goes on from the directory's own path with the name of an entry
leads to the entry (`Files.look_entry`).
-/

namespace TorrentRemote.Files

/-- A name that stays in a path as it is, and that is not a step upward. -/
structure IsName (name : String) : Prop where
  notEmpty : name ≠ ""
  noStay : name ≠ "."
  noUp : name ≠ upward
  noSlash : '/' ∉ name.toList

/-- A name that a file or a directory can have. -/
structure IsEntryName (name : String) : Prop extends IsName name where
  noZero : '\x00' ∉ name.toList
  short : name.utf8ByteSize ≤ nameLimit

instance (name : String) : Decidable (IsName name) :=
  decidable_of_iff (name ≠ "" ∧ name ≠ "." ∧ name ≠ upward ∧ '/' ∉ name.toList)
    ⟨fun ⟨h₁, h₂, h₃, h₄⟩ => ⟨h₁, h₂, h₃, h₄⟩, fun h => ⟨h.notEmpty, h.noStay, h.noUp, h.noSlash⟩⟩

instance (name : String) : Decidable (IsEntryName name) :=
  decidable_of_iff (IsName name ∧ '\x00' ∉ name.toList ∧ name.utf8ByteSize ≤ nameLimit)
    ⟨fun ⟨h₁, h₂, h₃⟩ => ⟨h₁, h₂, h₃⟩, fun h => ⟨h.toIsName, h.noZero, h.short⟩⟩

/-- There is something with a name in a directory below the home directory. -/
def HasEntry (files : Files) (below : List String) (name : String) : Prop :=
  ∃ node ∈ files.nodes, files.placeOf below ++ [name] <+: node.1

/-- The home directory is given from the top, the directory's path leads to it if anything is in it, and the names of
its entries are proper ones. -/
structure Lists (files : Files) (below : List String) : Prop where
  rooted : files.home.toList.head? = some '/'
  proper : ∀ name ∈ below, IsName name
  reached : ∀ name, files.HasEntry below name → files.look (files.pathOf below) = .ok .directory
  named : ∀ name, files.HasEntry below name → IsEntryName name

/-! ## Names in a directory -/

theorem prefix_snoc_iff {α : Type} {place other : List α} {name : α} :
    place ++ [name] <+: other ↔ place <+: other ∧ other[place.length]? = some name := by
  constructor
  · rintro ⟨rest, rfl⟩
    refine ⟨⟨name :: rest, by simp⟩, by simp⟩
  · rintro ⟨⟨rest, rfl⟩, hname⟩
    cases rest with
    | nil => simp at hname
    | cons first rest =>
      obtain rfl : first = name := by simpa using hname
      exact ⟨rest, by simp⟩

theorem mem_namesIn {files : Files} {below : List String} {name : String} :
    name ∈ files.namesIn below ↔ files.HasEntry below name := by
  unfold namesIn HasEntry
  simp only [List.mem_eraseDups, List.mem_filterMap, prefix_snoc_iff, List.isPrefixOf_iff_prefix]
  refine exists_congr fun node => and_congr_right fun _ => ?_
  split <;> simp_all

theorem eraseDups_nodup : ∀ names : List String, names.eraseDups.Nodup
  | [] => .nil
  | name :: names => by
    rw [List.eraseDups_cons, List.nodup_cons]
    exact ⟨by simp, eraseDups_nodup _⟩
termination_by names => names.length
decreasing_by exact Nat.lt_succ_of_le (List.length_filter_le _ _)

theorem node_of_entry {files : Files} {below : List String} {name : String} (h : files.HasEntry below name) :
    ∃ node, files.node? (files.placeOf below ++ [name]) = some node := by
  obtain ⟨other, hother, hbelow⟩ := h
  unfold node?
  split
  · exact ⟨_, rfl⟩
  · rw [if_pos]
    · exact ⟨_, rfl⟩
    · simp only [Bool.or_eq_true, List.any_eq_true, List.isPrefixOf_iff_prefix]
      exact .inr ⟨other, hother, hbelow⟩

/-! ## Paths -/

theorem parts_append (path : String) {name : String} (h : '/' ∉ name.toList) :
    parts (path ++ "/" ++ name) = parts path ++ [name] := by
  unfold parts
  have htext : (path ++ "/" ++ name).toList = path.toList ++ '/' :: name.toList := by
    simp [String.toList_append]
  rw [htext, List.splitOn_append_cons_self, List.splitOn_eq_singleton h, List.map_append, List.map_singleton,
    String.ofList_toList]

theorem IsName.steps_eq {name : String} (h : IsName name) : steps name = [name] := by
  have hparts : parts name = [name] := by
    unfold parts
    rw [List.splitOn_eq_singleton h.noSlash, List.map_singleton, String.ofList_toList]
  unfold steps
  rw [hparts]
  simp [h.notEmpty, h.noStay]

theorem steps_append (path : String) {name : String} (h : IsName name) :
    steps (path ++ "/" ++ name) = steps path ++ [name] := by
  have hname := h.steps_eq
  unfold steps at hname ⊢
  rw [parts_append path h.noSlash, List.filter_append]
  simp [h.notEmpty, h.noStay]

theorem pathOf_nil (files : Files) : files.pathOf [] = files.home := by
  unfold pathOf
  rw [String.intercalate_singleton]

theorem pathOf_append (files : Files) (below : List String) (name : String) :
    files.pathOf (below ++ [name]) = files.pathOf below ++ "/" ++ name := by
  unfold pathOf
  rw [← List.cons_append, String.intercalate_append_of_ne_nil (by simp) (by simp), String.intercalate_singleton]

theorem join_name (directory : String) {name : String} (h : IsName name) :
    join directory name = directory ++ "/" ++ name := by
  unfold join
  rw [h.steps_eq, String.intercalate_cons_cons, String.intercalate_singleton]

theorem steps_pathOf (files : Files) : ∀ {below : List String}, (∀ name ∈ below, IsName name) →
    steps (files.pathOf below) = steps files.home ++ below := by
  intro below
  induction below using List.reverseRecOn with
  | nil =>
    intro _
    rw [pathOf_nil, List.append_nil]
  | append_singleton below name ih =>
    intro h
    rw [pathOf_append, steps_append _ (h name (by simp)), ih fun name hname => h name (by simp [hname]),
      List.append_assoc]

theorem head_pathOf {files : Files} (h : files.home.toList.head? = some '/') (below : List String) :
    (files.pathOf below).toList.head? = some '/' := by
  induction below using List.reverseRecOn with
  | nil => rwa [pathOf_nil]
  | append_singleton below name ih =>
    rw [pathOf_append, String.toList_append, String.toList_append, List.head?_append, List.head?_append, ih]
    rfl

/-! ## Looking -/

/-- A path that leads to a directory is followed further from the place that its steps lead to. -/
theorem follow_directory {files : Files} {more : List String} : ∀ {names : List String} {place : List String},
    files.follow place names = .ok .directory → files.follow place (names ++ more) =
      files.follow ((names.filter fun step => !step.isEmpty && step ≠ ".").foldl step place) more
  | [], _, _ => rfl
  | first :: names, place, h => by
    unfold follow at h
    rw [List.cons_append, follow]
    by_cases hstay : first.isEmpty = true ∨ first = "."
    · rw [if_pos hstay] at h ⊢
      rw [follow_directory h, List.filter_cons_of_neg]
      rcases hstay with hempty | rfl
      · simp [hempty]
      · simp
    · rw [if_neg hstay] at h ⊢
      rw [List.filter_cons_of_pos (by simpa [not_or] using hstay), List.foldl_cons]
      split at h
      · cases h
      · next hshort =>
        rw [if_neg hshort]
        dsimp only at h ⊢
        split at h
        · cases h
        · next hnode =>
          exact follow_directory h
        · next node hfile hnode =>
          split at h
          · cases h
            exact absurd rfl hfile
          · cases h

section
variable {files : Files} {name : String} (hname : IsEntryName name)
include hname

theorem follow_name (place : List String) : files.follow place [name] =
    match files.node? (name :: place).reverse with
    | none => .error .missing
    | some node => .ok node := by
  have hstep : step place name = name :: place := if_neg hname.noUp
  unfold follow
  rw [if_neg (by simp [hname.notEmpty, hname.noStay]), if_neg (Nat.not_lt.mpr hname.short)]
  dsimp only
  rw [hstep]
  split
  · next hnode => simp only [hnode]
  · next hnode => simp only [hnode, follow]
  · next hnode => simp only [hnode, List.isEmpty_nil, if_true]

theorem follow_append {names : List String} {place : List String} (h : files.follow place names = .ok .directory) :
    files.follow place (names ++ [name]) =
      match files.node? (name :: (names.filter fun step => !step.isEmpty && step ≠ ".").foldl step place).reverse with
      | none => .error .missing
      | some node => .ok node := by
  rw [follow_directory h, follow_name hname]

end

section
variable {files : Files} {path : String} (hhead : path.toList.head? = some '/')
include hhead

theorem not_empty_of_head : ¬ path.isEmpty = true := by
  intro hempty
  rw [String.isEmpty_iff] at hempty
  subst hempty
  cases hhead

theorem look_eq (hzero : '\x00' ∉ path.toList) :
    files.look path =
      if pathLimit < path.utf8ByteSize then .error .nameTooLong else files.follow [] (parts path) := by
  unfold look
  rw [if_neg (not_or.mpr ⟨not_empty_of_head hhead, hzero⟩), if_pos hhead]

theorem follow_of_look {node : Node} (h : files.look path = .ok node) :
    '\x00' ∉ path.toList ∧ files.follow [] (parts path) = .ok node := by
  have hzero : '\x00' ∉ path.toList := by
    intro hzero
    unfold look at h
    rw [if_pos (.inr hzero)] at h
    cases h
  refine ⟨hzero, ?_⟩
  rw [look_eq hhead hzero] at h
  split at h
  · cases h
  · exact h

end

/-- The path of an entry leads to what stands at its place, unless it is too long to be looked at. -/
theorem look_entry {files : Files} {below : List String} (hfiles : files.Lists below) {name : String}
    (h : files.HasEntry below name) :
    ∃ node, files.node? (files.placeOf below ++ [name]) = some node ∧
      files.look (files.pathOf (below ++ [name])) =
        if pathLimit < (files.pathOf (below ++ [name])).utf8ByteSize then .error .nameTooLong else .ok node := by
  obtain ⟨node, hnode⟩ := node_of_entry h
  have hname := hfiles.named name h
  obtain ⟨hzero, hreached⟩ := follow_of_look (head_pathOf hfiles.rooted below) (hfiles.reached name h)
  have hplace : (name :: (steps (files.pathOf below)).foldl step []).reverse = files.placeOf below ++ [name] := by
    rw [steps_pathOf files hfiles.proper, List.reverse_cons]
    rfl
  have hzero' : '\x00' ∉ (files.pathOf (below ++ [name])).toList := by
    rw [pathOf_append]
    simp [String.toList_append, hzero, hname.noZero]
  have hfollow : files.follow [] (parts (files.pathOf (below ++ [name]))) = .ok node := by
    have hfollow := follow_append hname hreached
    rw [show List.filter _ _ = steps (files.pathOf below) from rfl, hplace, hnode] at hfollow
    rw [pathOf_append, parts_append _ hname.noSlash]
    exact hfollow
  refine ⟨node, hnode, ?_⟩
  rw [look_eq (head_pathOf hfiles.rooted _) hzero', hfollow]

end TorrentRemote.Files
