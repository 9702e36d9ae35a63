import TorrentRemote.Proofs.Files

/-!
# Making directories and files

The directories on the way to a file are made unless one of their names or the path is too long, or a file stands on the
way (`makeDirectories_outcome`). A file that is then written is read back, unless a directory is in its place
(`write_outcome`).
-/

namespace TorrentRemote.Files

/-- A step that a path takes, maybe upward. -/
structure IsStep (name : String) : Prop where
  notEmpty : name ≠ ""
  noStay : name ≠ "."
  noSlash : '/' ∉ name.toList
  noZero : '\x00' ∉ name.toList

theorem not_mem_splitOn (c : Char) : ∀ {text part : List Char}, part ∈ text.splitOn c → c ∉ part
  | [], part, h => by
    rw [List.splitOn_nil, List.mem_singleton] at h
    rw [h]
    exact List.not_mem_nil
  | first :: text, part, h => by
    rw [List.splitOn_cons_eq_if_modifyHead] at h
    split at h
    · rcases List.mem_cons.mp h with rfl | h
      · exact List.not_mem_nil
      · exact not_mem_splitOn c h
    · next hne =>
      have hfirst : c ≠ first := fun heq => hne (beq_iff_eq.mpr heq.symm)
      cases hparts : text.splitOn c with
      | nil => exact absurd hparts (List.splitOn_ne_nil c text)
      | cons front parts =>
        rw [hparts, List.modifyHead_cons] at h
        have hfront : c ∉ front := not_mem_splitOn c (hparts ▸ List.mem_cons_self)
        rcases List.mem_cons.mp h with rfl | h
        · exact List.not_mem_cons_of_ne_of_not_mem hfirst hfront
        · exact not_mem_splitOn c (hparts ▸ List.mem_cons_of_mem _ h)

theorem isStep_of_mem {path name : String} (h : name ∈ steps path) (hzero : '\x00' ∉ name.toList) : IsStep name := by
  obtain ⟨hname, hkept⟩ := List.mem_filter.mp h
  obtain ⟨part, hpart, rfl⟩ := List.mem_map.mp hname
  simp only [Bool.and_eq_true, Bool.not_eq_true', decide_eq_true_eq] at hkept
  refine ⟨by simpa using hkept.1, hkept.2, ?_, hzero⟩
  rw [String.toList_ofList]
  exact not_mem_splitOn '/' hpart

/-- The home directory is given from the top, and it is there. -/
structure HasHome (files : Files) : Prop where
  rooted : files.home.toList.head? = some '/'
  there : files.look files.home = .ok .directory

def homePlace (files : Files) : List String :=
  (steps files.home).foldl step []

theorem placeOf_eq (files : Files) (below : List String) :
    files.placeOf below = (below.foldl step files.homePlace).reverse := by
  unfold placeOf settle homePlace
  rw [List.foldl_append]

/-! ## What stands in the way -/

/-- Some steps from a place do not all lead to directories that are there or can be made. -/
inductive Blocked (files : Files) : List String → List String → Prop
  | long {place rest : List String} {name : String} : nameLimit < name.utf8ByteSize → Blocked files place (name :: rest)
  | file {place rest : List String} {name : String} {content : List UInt8} :
      files.node? (step place name).reverse = some (.file content) → Blocked files place (name :: rest)
  | later {place rest : List String} {name : String} : Blocked files (step place name) rest →
      Blocked files place (name :: rest)

/-- The directories at some steps below the home directory are not there and cannot be made. -/
def Obstructed (files : Files) (below : List String) : Prop :=
  pathLimit < (files.pathOf below).utf8ByteSize ∨ files.Blocked files.homePlace below

def obstacles : List PathProblem := [.exists, .notDirectory, .nameTooLong]

/-- What keeps a directory from being made where a path leads to something. -/
def obstacle? : Except PathProblem Node → Option PathProblem
  | .ok .directory | .error .missing => none
  | .ok (.file _) => some .exists
  | .error problem => some problem

section
variable {files : Files} {place below : List String} {name : String}

theorem not_blocked_nil : ¬ files.Blocked place [] := by
  intro h
  cases h

theorem blocked_cons_iff (rest : List String) : files.Blocked place (name :: rest) ↔ nameLimit < name.utf8ByteSize ∨
    (∃ content, files.node? (step place name).reverse = some (.file content)) ∨
      files.Blocked (step place name) rest := by
  constructor
  · intro h
    cases h with
    | long hlong => exact .inl hlong
    | file hfile => exact .inr (.inl ⟨_, hfile⟩)
    | later hlater => exact .inr (.inr hlater)
  · intro h
    rcases h with hlong | ⟨content, hfile⟩ | hlater
    · exact .long hlong
    · exact .file hfile
    · exact .later hlater

theorem Blocked.append (h : files.Blocked place below) (more : List String) : files.Blocked place (below ++ more) := by
  induction h with
  | long hlong => exact .long hlong
  | file hfile => exact .file hfile
  | later _ ih => exact .later ih

/-! ## Following steps -/

theorem follow_step (hname : IsStep name) (place rest : List String) : files.follow place (name :: rest) =
    if nameLimit < name.utf8ByteSize then .error .nameTooLong
    else
      match files.node? (step place name).reverse with
      | none => .error .missing
      | some .directory => files.follow (step place name) rest
      | some (.file content) => if rest.isEmpty then .ok (.file content) else .error .notDirectory := by
  rw [follow, if_neg (by simp [hname.notEmpty, hname.noStay])]
  dsimp only
  cases files.node? (step place name).reverse with
  | none => rfl
  | some node => cases node <;> rfl

/-- Where something is missing on the way, the steps behind it have not been looked at, so it is open whether they are
blocked. -/
theorem follow_cases (hbelow : ∀ name ∈ below, IsStep name) :
    (files.follow place below = .ok .directory ∧ ¬ files.Blocked place below) ∨
    files.follow place below = .error .missing ∨
    (∃ problem ∈ obstacles, obstacle? (files.follow place below) = some problem) ∧ files.Blocked place below := by
  induction below generalizing place with
  | nil => exact .inl ⟨rfl, not_blocked_nil⟩
  | cons name below ih =>
    obtain ⟨hname, hbelow⟩ := List.forall_mem_cons.mp hbelow
    rw [follow_step hname, blocked_cons_iff]
    by_cases hlong : nameLimit < name.utf8ByteSize
    · rw [if_pos hlong]
      exact .inr (.inr ⟨⟨.nameTooLong, by decide, rfl⟩, .inl hlong⟩)
    · rw [if_neg hlong]
      cases hnode : files.node? (step place name).reverse with
      | none => exact .inr (.inl rfl)
      | some node =>
        cases node with
        | directory => simpa [hlong] using ih hbelow
        | file content =>
          refine .inr (.inr ⟨?_, .inr (.inl ⟨content, rfl⟩)⟩)
          cases below with
          | nil => exact ⟨.exists, by decide, rfl⟩
          | cons next below => exact ⟨.notDirectory, by decide, rfl⟩

/-- A path that leads to a directory still does where no directory has gone. -/
theorem follow_kept {files' : Files} (hkept : ∀ place, files.node? place = some .directory →
    files'.node? place = some .directory) : ∀ {names : List String} {place : List String},
    files.follow place names = .ok .directory → files'.follow place names = .ok .directory
  | [], _, _ => rfl
  | name :: names, place, h => by
    unfold follow at h ⊢
    by_cases hstay : name.isEmpty = true ∨ name = "."
    · rw [if_pos hstay] at h ⊢
      exact follow_kept hkept h
    · rw [if_neg hstay] at h ⊢
      by_cases hlong : name.utf8ByteSize > nameLimit
      · rw [if_pos hlong] at h
        cases h
      · rw [if_neg hlong] at h ⊢
        dsimp only at h ⊢
        cases hnode : files.node? (step place name).reverse with
        | none =>
          rw [hnode] at h
          cases h
        | some node =>
          rw [hnode] at h
          cases node with
          | directory =>
            rw [hkept _ hnode]
            exact follow_kept hkept h
          | file content => cases names <;> cases h

end

/-! ## Looking below the home directory -/

section
variable {files : Files} (hhome : files.HasHome) {below : List String} {name : String}

theorem parts_pathOf (hbelow : ∀ name ∈ below, IsStep name) :
    parts (files.pathOf below) = parts files.home ++ below := by
  induction below using List.reverseRecOn with
  | nil => rw [pathOf_nil, List.append_nil]
  | append_singleton below name ih =>
    rw [pathOf_append, parts_append _ (hbelow name (by simp)).noSlash,
      ih fun name hname => hbelow name (by simp [hname]),
      List.append_assoc]

theorem pathOf_size_le (files : Files) (below : List String) (name : String) :
    (files.pathOf below).utf8ByteSize ≤ (files.pathOf (below ++ [name])).utf8ByteSize := by
  rw [pathOf_append, String.utf8ByteSize_append, String.utf8ByteSize_append]
  omega

include hhome

theorem pathOf_noZero (hbelow : ∀ name ∈ below, IsStep name) : '\x00' ∉ (files.pathOf below).toList := by
  induction below using List.reverseRecOn with
  | nil =>
    rw [pathOf_nil]
    exact (follow_of_look hhome.rooted hhome.there).1
  | append_singleton below name ih =>
    have hfront := ih fun name hname => hbelow name (by simp [hname])
    rw [pathOf_append]
    simp [String.toList_append, hfront, (hbelow name (by simp)).noZero]

theorem look_below (hbelow : ∀ name ∈ below, IsStep name) : files.look (files.pathOf below) =
    if pathLimit < (files.pathOf below).utf8ByteSize then .error .nameTooLong
    else files.follow files.homePlace below := by
  rw [look_eq (head_pathOf hhome.rooted below) (pathOf_noZero hhome hbelow), parts_pathOf hbelow,
    follow_directory (follow_of_look hhome.rooted hhome.there).2]
  rfl

theorem look_cases (hbelow : ∀ name ∈ below, IsStep name) :
    (files.look (files.pathOf below) = .ok .directory ∧ ¬ files.Obstructed below) ∨
    files.look (files.pathOf below) = .error .missing ∨
    (∃ problem ∈ obstacles, obstacle? (files.look (files.pathOf below)) = some problem) ∧ files.Obstructed below := by
  rw [look_below hhome hbelow, Obstructed]
  by_cases hlong : pathLimit < (files.pathOf below).utf8ByteSize
  · rw [if_pos hlong]
    exact .inr (.inr ⟨⟨.nameTooLong, by decide, rfl⟩, .inl hlong⟩)
  · simpa [hlong] using follow_cases hbelow

theorem look_snoc (hbelow : ∀ step ∈ below ++ [name], IsStep step)
    (h : files.look (files.pathOf below) = .ok .directory) : files.look (files.pathOf (below ++ [name])) =
      if pathLimit < (files.pathOf (below ++ [name])).utf8ByteSize ∨ nameLimit < name.utf8ByteSize then
        .error .nameTooLong
      else
        match files.node? (files.placeOf (below ++ [name])) with
        | none => .error .missing
        | some node => .ok node := by
  have hfront : ∀ name ∈ below, IsStep name := fun name hname => hbelow name (by simp [hname])
  have hfollow : files.follow files.homePlace below = .ok .directory := by
    rw [look_below hhome hfront] at h
    split at h
    · cases h
    · exact h
  have hwhole : below.filter (fun step => !step.isEmpty && step ≠ ".") = below := by
    rw [List.filter_eq_self]
    intro name hname
    simp [(hfront name hname).notEmpty, (hfront name hname).noStay]
  have hplace : files.placeOf (below ++ [name]) = (step (below.foldl step files.homePlace) name).reverse := by
    rw [placeOf_eq, List.foldl_append]
    rfl
  rw [look_below hhome hbelow, follow_directory hfollow, hwhole, follow_step (hbelow name (by simp)), hplace]
  by_cases hpath : pathLimit < (files.pathOf (below ++ [name])).utf8ByteSize
  · simp [hpath]
  · by_cases hname : nameLimit < name.utf8ByteSize
    · simp [hname]
    · simp only [hpath, hname, or_false, if_false]
      cases files.node? (step (below.foldl step files.homePlace) name).reverse with
      | none => rfl
      | some node => cases node <;> rfl

end

/-! ## Putting nodes -/

def put (files : Files) (place : List String) (node : Node) : Files :=
  { files with nodes := (place, node) :: files.nodes }

section
variable {files : Files} {place other : List String} {node : Node}

theorem pathOf_put (below : List String) : (files.put place node).pathOf below = files.pathOf below :=
  rfl

theorem placeOf_put (below : List String) : (files.put place node).placeOf below = files.placeOf below :=
  rfl

theorem node_put_self : (files.put place node).node? place = some node := by
  unfold put node?
  rw [List.lookup_cons_self]

theorem node_put_other (h : other ≠ place) : (files.put place node).node? other =
    (files.node? other).or (if other.isPrefixOf place then some .directory else none) := by
  have hlookup : ((place, node) :: files.nodes).lookup other = files.nodes.lookup other := by
    rw [List.lookup_cons, beq_eq_false_iff_ne.mpr h]
  unfold node?
  rw [placeOf_put, show (files.put place node).nodes = (place, node) :: files.nodes from rfl, hlookup]
  cases files.nodes.lookup other with
  | some node => rfl
  | none =>
    rw [List.any_cons, Bool.or_left_comm]
    dsimp only
    cases other.isPrefixOf place with
    | true =>
      rw [Bool.true_or, if_pos rfl]
      split <;> rfl
    | false => rw [Bool.false_or, if_neg Bool.false_ne_true, Option.or_none]

/-- A directory stays where no file is put in its place. -/
theorem node_put_directory (hplace : files.node? place ≠ some .directory)
    (h : files.node? other = some .directory) : (files.put place node).node? other = some .directory := by
  rw [node_put_other (by rintro rfl; exact hplace h), h, Option.some_or]

end

/-! ## Making directories -/

structure Grown (files files' : Files) : Prop where
  home : files'.home = files.home
  kept : ∀ place node, files.node? place = some node → files'.node? place = some node
  noFile : ∀ place content, files'.node? place = some (.file content) → files.node? place = some (.file content)

section
variable {files files' : Files} {below : List String} {name : String}

theorem Grown.refl (files : Files) : files.Grown files :=
  ⟨rfl, fun _ _ => id, fun _ _ => id⟩

theorem Grown.trans {files'' : Files} (h : files.Grown files') (h' : files'.Grown files'') : files.Grown files'' where
  home := h'.home.trans h.home
  kept place node hnode := h'.kept place node (h.kept place node hnode)
  noFile place content hnode := h.noFile place content (h'.noFile place content hnode)

theorem Grown.put {place : List String} (h : files.node? place = none) : files.Grown (files.put place .directory) where
  home := rfl
  kept other node hnode := by
    rw [node_put_other (by rintro rfl; rw [h] at hnode; cases hnode), hnode, Option.some_or]
  noFile other content hnode := by
    by_cases hother : other = place
    · rw [hother, node_put_self] at hnode
      cases hnode
    · rw [node_put_other hother, Option.or_eq_some_iff] at hnode
      rcases hnode with hnode | ⟨-, hnode⟩
      · exact hnode
      · split at hnode <;> cases hnode

theorem Grown.file_iff (h : files.Grown files') (place : List String) (content : List UInt8) :
    files'.node? place = some (.file content) ↔ files.node? place = some (.file content) :=
  ⟨h.noFile place content, h.kept place _⟩

theorem look_kept {path : String} (hhead : path.toList.head? = some '/')
    (hkept : ∀ place, files.node? place = some .directory → files'.node? place = some .directory)
    (h : files.look path = .ok .directory) : files'.look path = .ok .directory := by
  obtain ⟨hzero, hfollow⟩ := follow_of_look hhead h
  rw [look_eq hhead hzero] at h ⊢
  split at h
  · cases h
  · next hshort => rw [if_neg hshort, follow_kept hkept hfollow]

theorem HasHome.kept (hhome : files.HasHome) (hsame : files'.home = files.home)
    (hkept : ∀ place, files.node? place = some .directory → files'.node? place = some .directory) : files'.HasHome where
  rooted := hsame ▸ hhome.rooted
  there := by
    rw [hsame]
    exact look_kept hhome.rooted hkept hhome.there

theorem pathOf_congr (hsame : files'.home = files.home) (below : List String) :
    files'.pathOf below = files.pathOf below := by
  unfold pathOf
  rw [hsame]

theorem placeOf_congr (hsame : files'.home = files.home) (below : List String) :
    files'.placeOf below = files.placeOf below := by
  unfold placeOf
  rw [hsame]

theorem Obstructed.snoc (h : files.Obstructed below) (name : String) : files.Obstructed (below ++ [name]) := by
  rcases h with hlong | hblocked
  · exact .inl (Nat.lt_of_lt_of_le hlong (pathOf_size_le files below name))
  · exact .inr (hblocked.append [name])

/-- The tree, if there is a directory at a path, and what comes of something else if nothing is there. -/
def directoryAt (files : Files) (path : String) (whenMissing : Except FileError Files) : Except FileError Files :=
  match files.look path with
  | .ok .directory => .ok files
  | .ok (.file _) => .error ⟨.exists, path⟩
  | .error .missing => whenMissing
  | .error problem => .error ⟨problem, path⟩

theorem directoryAt_there {path : String} (h : files.look path = .ok .directory)
    (whenMissing : Except FileError Files) :
    files.directoryAt path whenMissing = .ok files := by
  unfold directoryAt
  rw [h]

theorem directoryAt_missing {path : String} (h : files.look path = .error .missing)
    (whenMissing : Except FileError Files) : files.directoryAt path whenMissing = whenMissing := by
  unfold directoryAt
  rw [h]

theorem directoryAt_obstacle {path : String} {problem : PathProblem} (h : obstacle? (files.look path) = some problem)
    (whenMissing : Except FileError Files) : files.directoryAt path whenMissing = .error ⟨problem, path⟩ := by
  unfold directoryAt
  cases hlook : files.look path with
  | ok node =>
    rw [hlook] at h
    cases node <;> cases h
    rfl
  | error problem =>
    rw [hlook] at h
    cases problem <;> cases h <;> rfl

theorem makeDirectories_snoc : files.makeDirectories (below ++ [name]).reverse =
    files.directoryAt (files.pathOf (below ++ [name])) (do
      let grown ← files.makeDirectories below.reverse
      grown.directoryAt (files.pathOf (below ++ [name]))
        (.ok (grown.put (grown.placeOf (below ++ [name])) .directory))) := by
  rw [List.reverse_append, List.reverse_singleton, List.singleton_append, makeDirectories, List.reverse_cons,
    List.reverse_reverse]
  rfl

/-- What comes of making the directory at some steps. -/
inductive Made (files : Files) (below : List String) : Except FileError Files → Prop
  | made {grown : Files} : files.Grown grown → grown.look (files.pathOf below) = .ok .directory →
      ¬ files.Obstructed below → Made files below (.ok grown)
  | failed {e : FileError} {front : List String} : e.problem ∈ obstacles → front <+: below →
      e.path = files.pathOf front →
      files.Obstructed below → Made files below (.error e)

section
variable {grown : Files} (hgrown : files.Grown grown)
include hgrown

theorem Grown.hasHome (hhome : files.HasHome) : grown.HasHome :=
  hhome.kept hgrown.home fun place => hgrown.kept place .directory

theorem Grown.blocked_iff (place : List String) : grown.Blocked place below ↔ files.Blocked place below := by
  induction below generalizing place with
  | nil => simp only [not_blocked_nil]
  | cons name below ih => simp only [blocked_cons_iff, hgrown.file_iff, ih]

theorem Grown.obstructed_iff : grown.Obstructed below ↔ files.Obstructed below := by
  unfold Obstructed
  rw [pathOf_congr hgrown.home, hgrown.blocked_iff,
    show grown.homePlace = files.homePlace by simp [homePlace, hgrown.home]]

theorem Grown.made {result : Except FileError Files} (h : grown.Made below result) : files.Made below result := by
  cases h with
  | made hmore hlook hclear =>
    rw [pathOf_congr hgrown.home] at hlook
    exact .made (hgrown.trans hmore) hlook (hgrown.obstructed_iff.not.mp hclear)
  | failed hproblem hfront hpath hobstructed =>
    rw [pathOf_congr hgrown.home] at hpath
    exact .failed hproblem hfront hpath (hgrown.obstructed_iff.mp hobstructed)

end

section
variable (hhome : files.HasHome)
include hhome

theorem not_obstructed (hbelow : ∀ step ∈ below, IsStep step) (h : files.look (files.pathOf below) = .ok .directory) :
    ¬ files.Obstructed below := by
  rcases look_cases hhome hbelow with ⟨-, hclear⟩ | hmissing | ⟨⟨problem, -, hlook⟩, -⟩
  · exact hclear
  · rw [h] at hmissing
    cases hmissing
  · rw [h] at hlook
    cases hlook

theorem made_last (hbelow : ∀ step ∈ below ++ [name], IsStep step)
    (h : files.look (files.pathOf below) = .ok .directory) :
    files.Made (below ++ [name]) (files.directoryAt (files.pathOf (below ++ [name]))
      (.ok (files.put (files.placeOf (below ++ [name])) .directory))) := by
  rcases look_cases hhome hbelow with ⟨hlook, hclear⟩ | hmissing | ⟨⟨problem, hproblem, hlook⟩, hobstructed⟩
  · rw [directoryAt_there hlook]
    exact .made (.refl files) hlook hclear
  · rw [directoryAt_missing hmissing]
    have hlast := look_snoc hhome hbelow h
    rw [hmissing] at hlast
    split at hlast
    · cases hlast
    · next hshort =>
      split at hlast
      · next hnode =>
        have hgrown : files.Grown (files.put (files.placeOf (below ++ [name])) .directory) := .put hnode
        have hlook := look_snoc (hgrown.hasHome hhome) hbelow (look_kept (head_pathOf hhome.rooted below)
          (fun place => hgrown.kept place .directory) h)
        rw [pathOf_put, placeOf_put, if_neg hshort, node_put_self] at hlook
        refine .made hgrown hlook ?_
        rw [← hgrown.obstructed_iff]
        exact not_obstructed (hgrown.hasHome hhome) hbelow hlook
      · cases hlast
  · rw [directoryAt_obstacle hlook]
    exact .failed hproblem (List.prefix_refl _) rfl hobstructed

theorem makeDirectories_outcome (hbelow : ∀ step ∈ below, IsStep step) :
    files.Made below (files.makeDirectories below.reverse) := by
  -- the directories above are made only where nothing is found, and then the last one is looked for once more
  induction below using List.reverseRecOn with
  | nil =>
    have hlook : files.look (files.pathOf []) = .ok .directory := by rw [pathOf_nil, hhome.there]
    exact .made (.refl files) hlook (not_obstructed hhome hbelow hlook)
  | append_singleton below name ih =>
    rw [makeDirectories_snoc]
    rcases look_cases hhome hbelow with ⟨hlook, hclear⟩ | hmissing | ⟨⟨problem, hproblem, hlook⟩, hobstructed⟩
    · rw [directoryAt_there hlook]
      exact .made (.refl files) hlook hclear
    · rw [directoryAt_missing hmissing]
      have hfront := ih fun step hstep => hbelow step (List.mem_append_left _ hstep)
      generalize files.makeDirectories below.reverse = result at hfront ⊢
      cases hfront with
      | made hgrown hlook hclear =>
        have hlast := made_last (hgrown.hasHome hhome) hbelow (by rw [pathOf_congr hgrown.home, hlook])
        rw [pathOf_congr hgrown.home] at hlast
        exact hgrown.made hlast
      | failed hproblem hfront hpath hobstructed =>
        exact .failed hproblem (hfront.trans (List.prefix_append _ _)) hpath (hobstructed.snoc name)
    · rw [directoryAt_obstacle hlook]
      exact .failed hproblem (List.prefix_refl _) rfl hobstructed

end

end

/-! ## Writing a file -/

section
variable {files : Files} {below : List String} {name : String}

/-- What comes of writing a file whose directory is there. -/
inductive Written (files : Files) (below : List String) (content : List UInt8) : Except FileError Files → Prop
  | written : (files.put (files.placeOf below) (.file content)).read (files.pathOf below) = .ok content →
      Written files below content (.ok (files.put (files.placeOf below) (.file content)))
  | refused {problem : PathProblem} : problem ∈ [.isDirectory, .nameTooLong] →
      Written files below content (.error ⟨problem, files.pathOf below⟩)

theorem write_directory (h : files.look (files.pathOf below) = .ok .directory) (content : List UInt8) :
    files.write below content = .error ⟨.isDirectory, files.pathOf below⟩ := by
  unfold write
  dsimp only
  rw [h]

theorem write_tooLong (h : files.look (files.pathOf below) = .error .nameTooLong) (content : List UInt8) :
    files.write below content = .error ⟨.nameTooLong, files.pathOf below⟩ := by
  unfold write
  dsimp only
  rw [h]

theorem write_put (h : files.look (files.pathOf below) = .error .missing ∨
    ∃ old, files.look (files.pathOf below) = .ok (.file old)) (content : List UInt8) :
    files.write below content = .ok (files.put (files.placeOf below) (.file content)) := by
  unfold write
  dsimp only
  rcases h with h | ⟨old, h⟩
  · rw [h]
    rfl
  · rw [h]
    rfl

section
variable (hhome : files.HasHome)
include hhome

theorem read_put (hbelow : ∀ step ∈ below ++ [name], IsStep step)
    (h : files.look (files.pathOf below) = .ok .directory)
    (hshort : ¬ (pathLimit < (files.pathOf (below ++ [name])).utf8ByteSize ∨ nameLimit < name.utf8ByteSize))
    (hnode : files.node? (files.placeOf (below ++ [name])) ≠ some .directory) (content : List UInt8) :
    (files.put (files.placeOf (below ++ [name])) (.file content)).read (files.pathOf (below ++ [name])) =
      .ok content := by
  have hkept := fun place => @node_put_directory files _ place (.file content) hnode
  have hhome' : (files.put (files.placeOf (below ++ [name])) (.file content)).HasHome := hhome.kept rfl hkept
  have hlook := look_snoc hhome' hbelow (look_kept (head_pathOf hhome.rooted below) hkept h)
  rw [pathOf_put, placeOf_put, if_neg hshort, node_put_self] at hlook
  unfold read
  rw [hlook]

theorem write_outcome (hbelow : ∀ step ∈ below, IsStep step)
    (h : files.look (files.pathOf below.dropLast) = .ok .directory) (content : List UInt8) :
    files.Written below content (files.write below content) := by
  cases below using List.reverseRecOn with
  | nil =>
    have hhere : files.look (files.pathOf []) = .ok .directory := h
    rw [write_directory hhere]
    exact .refused (by decide)
  | append_singleton below name =>
    rw [List.dropLast_concat] at h
    have hlook := look_snoc hhome hbelow h
    by_cases hlong : pathLimit < (files.pathOf (below ++ [name])).utf8ByteSize ∨ nameLimit < name.utf8ByteSize
    · rw [if_pos hlong] at hlook
      rw [write_tooLong hlook]
      exact .refused (by decide)
    · rw [if_neg hlong] at hlook
      have hread := read_put hhome hbelow h hlong
      cases hnode : files.node? (files.placeOf (below ++ [name])) with
      | none =>
        rw [hnode] at hlook hread
        rw [write_put (.inl hlook)]
        exact .written (hread nofun content)
      | some node =>
        rw [hnode] at hlook hread
        cases node with
        | directory =>
          rw [write_directory hlook]
          exact .refused (by decide)
        | file old =>
          rw [write_put (.inr ⟨old, hlook⟩)]
          exact .written (hread nofun content)

end

end

end TorrentRemote.Files
