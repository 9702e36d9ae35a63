import TorrentRemote.Proofs.Identifier
import TorrentRemote.Proofs.Request.ChangeSet
import TorrentRemote.Proofs.Written

/-!
# What requests that are the same send

Requests that are the same name the same torrents and ask for the same fields and changes. Removing, moving and
renaming have further arguments that sameness does not look at, so that such requests send the same only if these
are the same as well: `Request.same_arguments_iff`.
-/

namespace TorrentRemote

/-! ## Identifiers -/

namespace Identifier
open Value

def AllNamed (ids : List Value) : Prop :=
  ∃ ws, List.Forall₂ Names ids ws

section
variable {v w a b : Value}

theorem same_scalar {x : Scalar} (hx : v.scalar? = some x) (h : v.same w = true) :
    ∃ y, w.scalar? = some y ∧ x.same y = true := by
  rw [same_of_scalar hx] at h
  obtain ⟨x', y, hx', hy, h⟩ := sameLeaf_iff.mp h
  cases hx.symm.trans hx'
  exact ⟨y, hy, h⟩

theorem text_same {s : String} (hs : v.text? = some s) (h : v.same w = true) : w.text? = some s := by
  obtain ⟨y, hy, hsame⟩ := same_scalar (scalar?_eq_text.mpr hs) h
  cases y <;> simp only [Scalar.same, decide_eq_true_eq, Bool.false_eq_true] at hsame
  rw [hsame]
  exact scalar?_eq_text.mp hy

theorem content_same {bs : List UInt8} (hbs : v.byteContent? = some bs) (h : v.same w = true) :
    w.byteContent? = some bs := by
  obtain ⟨y, hy, hsame⟩ := same_scalar (scalar?_eq_content.mpr hbs) h
  cases y <;> simp only [Scalar.same, decide_eq_true_eq, Bool.false_eq_true] at hsame
  rw [hsame]
  exact scalar?_eq_content.mp hy

theorem spelled_same {s : String} (hs : (InfoHash.spelling v).text? = some s) (h : v.same w = true) :
    (InfoHash.spelling w).text? = some s := by
  rcases spelled_iff.mp hs with hs | ⟨bs, hbs, hs⟩
  · exact spelled_iff.mpr (.inl (text_same hs h))
  · exact spelled_iff.mpr (.inr ⟨bs, content_same hbs h, hs⟩)

theorem number_not_spelled {x : Quantity} (hx : v.scalar? = some (.number x)) {s : String} :
    (InfoHash.spelling v).text? ≠ some s := by
  intro hs
  rcases spelled_iff.mp hs with hs | ⟨bs, hbs, -⟩
  · rw [scalar?_eq_text.mpr hs] at hx
    cases hx
  · rw [scalar?_eq_content.mpr hbs] at hx
    cases hx

theorem Names.same (h : v.same w = true) (hv : Names v a) (hw : Names w b) : a.same b = true := by
  cases hv with
  | @number n hn =>
    obtain ⟨y, hy, hsame⟩ := same_scalar (int?_scalar hn) h
    cases y <;> simp only [Scalar.same, Bool.false_eq_true] at hsame
    cases hw with
    | number => exact h
    | keyword hkeyword => exact absurd (spelled_iff.mpr (.inl hkeyword)) (number_not_spelled hy)
    | hash hs => exact absurd hs (number_not_spelled hy)
  | keyword hkeyword =>
    have hkeyword' := text_same hkeyword h
    cases hw with
    | number hn => exact absurd (spelled_iff.mpr (.inl hkeyword')) (number_not_spelled (int?_scalar hn))
    | keyword => exact same_refl _
    | hash hs hspells => exact absurd hspells (keyword_not_hash hkeyword' hs)
  | @hash s hs hspells =>
    have hs' := spelled_same hs h
    cases hw with
    | number hn => exact absurd hs' (number_not_spelled (int?_scalar hn))
    | keyword hkeyword => exact absurd hspells (keyword_not_hash hkeyword hs')
    | hash hs'' =>
      cases hs'.symm.trans hs''
      exact same_refl _

end

theorem named_same : ∀ {ids others ws ws' : List Value}, sameAll ids others = true → List.Forall₂ Names ids ws →
    List.Forall₂ Names others ws' → sameAll ws ws' = true
  | [], [], _, _, _, .nil, .nil => rfl
  | v :: vs, w :: ws, _, _, h, .cons hv hvs, .cons hw hws => by
    simp only [sameAll, Bool.and_eq_true] at h ⊢
    exact ⟨Names.same h.1 hv hw, named_same h.2 hvs hws⟩

end Identifier

/-! ## Arguments under names -/

namespace Value

theorem same_text {s t : String} : (Value.text s).same (.text t) = true ↔ s = t := by
  simp [same, sameLeaf_iff, scalar?, Scalar.same]

section
variable {es fs : List (String × Value)}

theorem matched_by_name (hnames : es.map Prod.fst = fs.map Prod.fst) (hnodup : (es.map Prod.fst).Nodup) :
    (∀ e ∈ es, ∃ f ∈ fs, e.1 = f.1 ∧ e.2.same f.2 = true) ↔
      List.Forall₂ (fun e f => e.2.same f.2 = true) es fs := by
  induction es generalizing fs with
  | nil =>
    rw [List.map_eq_nil_iff.mp hnames.symm]
    simp
  | cons e es ih =>
    obtain ⟨f, fs, rfl, hname, hnames⟩ := List.map_eq_cons_iff.mp hnames.symm
    obtain ⟨hother, hnodup⟩ := List.nodup_cons.mp hnodup
    constructor
    · intro h
      refine .cons ?_ ((ih hnames.symm hnodup).mp fun e' he' => ?_)
      · obtain ⟨g, hg, hkey, hvalue⟩ := h e List.mem_cons_self
        rcases List.mem_cons.mp hg with rfl | hg
        · exact hvalue
        · refine absurd ?_ hother
          rw [← hnames, hkey]
          exact List.mem_map.mpr ⟨g, hg, rfl⟩
      · obtain ⟨g, hg, hkey, hvalue⟩ := h e' (List.mem_cons_of_mem _ he')
        rcases List.mem_cons.mp hg with rfl | hg
        · refine absurd ?_ hother
          rw [← hname, ← hkey]
          exact List.mem_map.mpr ⟨e', he', rfl⟩
        · exact ⟨g, hg, hkey, hvalue⟩
    · intro h e' he'
      cases h with
      | cons hef hrest =>
        rcases List.mem_cons.mp he' with rfl | he'
        · exact ⟨f, List.mem_cons_self, hname.symm, hef⟩
        · obtain ⟨g, hg, hkey, hvalue⟩ := (ih hnames.symm hnodup).mpr hrest e' he'
          exact ⟨g, List.mem_cons_of_mem _ hg, hkey, hvalue⟩

/-- Mappings with the same names, each of which they have once, are compared name by name. -/
theorem same_ofFields (hnames : es.map Prod.fst = fs.map Prod.fst) (hnodup : (es.map Prod.fst).Nodup) :
    (ofFields es).same (ofFields fs) = true ↔ List.Forall₂ (fun e f => e.2.same f.2 = true) es fs := by
  rw [ofFields, ofFields, same_mapping, ← matched_by_name hnames hnodup]
  constructor
  · rintro ⟨gs, hgs, -, h⟩ e he
    cases hgs
    obtain ⟨f', hf', hkey, hvalue⟩ := h _ (List.mem_map.mpr ⟨e, he, rfl⟩)
    obtain ⟨f, hf, rfl⟩ := List.mem_map.mp hf'
    exact ⟨f, hf, same_text.mp hkey, hvalue⟩
  · intro h
    refine ⟨_, rfl, ?_, ?_⟩
    · simpa using congrArg List.length hnames
    · intro e' he'
      obtain ⟨e, he, rfl⟩ := List.mem_map.mp he'
      obtain ⟨f, hf, hkey, hvalue⟩ := h e he
      exact ⟨_, List.mem_map.mpr ⟨f, hf, rfl⟩, same_text.mpr hkey, hvalue⟩

end

end Value

namespace Request

def values : Request → List Value
  | .act _ ids => ids
  | .getTorrents ids fields => ids ++ fields.getD []
  | .removeTorrents ids deleteData => ids ++ [deleteData]
  | .moveTorrents ids location moveData => ids ++ [location, moveData]
  | .renamePath ids path name => ids ++ [path, name]
  | .change set => set.ids ++ set.values.map Prod.snd
  | .freeSpace path => [path]
  | _ => []

/-- The torrents that a request is about have identifiers, and a path is renamed in one of them. -/
def IsAddressed : Request → Prop
  | .act _ ids | .getTorrents ids _ | .removeTorrents ids _ | .moveTorrents ids _ _ => Identifier.AllNamed ids
  | .renamePath ids _ _ => ids.length = 1 ∧ Identifier.AllNamed ids
  | .change set => set.kind = .torrent → Identifier.AllNamed set.ids
  | _ => True

/-- The arguments that sameness of requests leaves out are the same. -/
def RestSame : Request → Request → Prop
  | .removeTorrents _ deleteData, .removeTorrents _ deleteData' => deleteData.same deleteData' = true
  | .moveTorrents _ location moveData, .moveTorrents _ location' moveData' =>
    location.same location' = true ∧ moveData.same moveData' = true
  | .renamePath _ path name, .renamePath _ path' name' => path.same path' = true ∧ name.same name' = true
  | _, _ => True

/-! ## Requests for named torrents -/

def idsField (ws : List Value) : List (String × Value) :=
  if ws.isEmpty then [] else [("ids", .list ws)]

theorem withIds_ok {ids ws : List Value} (h : List.Forall₂ Identifier.Names ids ws) (more : List (String × Value)) :
    withIds ids more = .ok (.ofFields (idsField ws ++ more)) := by
  unfold withIds
  rw [Identifier.checkAll_iff.mpr ⟨ws, h, rfl⟩]
  cases ws <;> rfl

section
variable {ids others ws ws' : List Value} {more more' : List (String × Value)}

theorem idsField_cases (h : Value.sameAll ws ws' = true) :
    (idsField ws = [] ∧ idsField ws' = []) ∨
      (idsField ws = [("ids", .list ws)] ∧ idsField ws' = [("ids", .list ws')]) := by
  cases ws <;> cases ws'
  case nil.nil => exact .inl ⟨rfl, rfl⟩
  case cons.cons => exact .inr ⟨rfl, rfl⟩
  all_goals simp [Value.sameAll] at h

theorem withIds_alike (hids : Value.sameAll ids others = true) (ha : Identifier.AllNamed ids)
    (hb : Identifier.AllNamed others) (hnames : more.map Prod.fst = more'.map Prod.fst)
    (hnodup : ("ids" :: more.map Prod.fst).Nodup) :
    EndsAlike (fun v w => v.same w = true) (withIds ids more) (withIds others more') ↔
      List.Forall₂ (fun e f => e.2.same f.2 = true) more more' := by
  obtain ⟨ws, hws⟩ := ha
  obtain ⟨ws', hws'⟩ := hb
  have hsame := Identifier.named_same hids hws hws'
  rw [withIds_ok hws, withIds_ok hws', EndsAlike.ok_iff]
  rcases idsField_cases hsame with ⟨hnone, hnone'⟩ | ⟨hsome, hsome'⟩
  · rw [hnone, hnone']
    exact Value.same_ofFields hnames (List.nodup_cons.mp hnodup).2
  · rw [hsome, hsome', Value.same_ofFields (by simp [hnames]) (by simpa using hnodup)]
    have hlist : (Value.list ws).same (.list ws') = true := hsame
    simp [hlist]

end

end Request

/-! ## Changes -/

namespace Value

theorem fieldsHaveUniqueKeys_of_mem : ∀ {fs : List (Label × Value)},
    (∀ f ∈ fs, f.2.hasUniqueKeys = true) → fieldsHaveUniqueKeys fs = true
  | [], _ => rfl
  | f :: fs, h => by
    obtain ⟨hf, hfs⟩ := List.forall_mem_cons.mp h
    rw [fieldsHaveUniqueKeys, hf, fieldsHaveUniqueKeys_of_mem hfs]
    rfl

end Value

namespace ChangeSet

theorem idsEntry_alike {kind : ChangeKind} {ws ws' : List Value} (h : Value.sameAll ws ws' = true) :
    List.Forall₂ Value.Matches (idsEntry kind (if ws.isEmpty then none else some ws))
      (idsEntry kind (if ws'.isEmpty then none else some ws')) := by
  unfold idsEntry
  split
  · cases ws <;> cases ws'
    case nil.nil => exact .nil
    case cons.cons => exact .cons ⟨Value.same_refl _, h⟩ .nil
    all_goals simp [Value.sameAll] at h
  · exact .nil

theorem checked_ids {c : ChangeSet} (h : (Request.change c).IsAddressed) :
    ∃ ws, (c.kind = .torrent → List.Forall₂ Identifier.Names c.ids ws) ∧ (c.kind ≠ .torrent → ws = []) := by
  by_cases hkind : c.kind = .torrent
  · obtain ⟨ws, hws⟩ := h hkind
    exact ⟨ws, fun _ => hws, fun hother => absurd hkind hother⟩
  · exact ⟨[], fun htorrent => absurd htorrent hkind, fun _ => rfl⟩

theorem arguments_alike {c d : ChangeSet} (hkeys : ∀ f ∈ c.values, f.2.hasUniqueKeys = true)
    (hc : (Request.change c).IsAddressed) (hd : (Request.change d).IsAddressed) (h : c.same d = true) :
    EndsAlike (fun v w => v.same w = true) c.arguments d.arguments := by
  simp only [same, Bool.and_eq_true, decide_eq_true_eq] at h
  obtain ⟨⟨hkind, hids⟩, hvalues⟩ := h
  obtain ⟨ws, hws, hnone⟩ := checked_ids hc
  obtain ⟨ws', hws', hnone'⟩ := checked_ids hd
  have hsame : Value.sameAll ws ws' = true := by
    by_cases htorrent : c.kind = .torrent
    · exact Identifier.named_same hids (hws htorrent) (hws' (hkind ▸ htorrent))
    · rw [hnone htorrent, hnone' (hkind ▸ htorrent)]
      rfl
  rw [arguments_eq c fun htorrent => Identifier.checkAll_iff.mpr ⟨ws, hws htorrent, rfl⟩,
    arguments_eq d fun htorrent => Identifier.checkAll_iff.mpr ⟨ws', hws' htorrent, rfl⟩, ← hkind]
  have hwritten := Wire.writeFields_alike c.values (Value.fieldsHaveUniqueKeys_of_mem hkeys) hvalues
  exact hwritten.mapError.map fun es fs hes => Wire.same_entries (List.rel_append hes (idsEntry_alike hsame))

theorem arguments_error {c : ChangeSet} (hc : (Request.change c).IsAddressed) {e : Failure}
    (h : c.arguments = .error e) : e = .writing .beforeCalendar := by
  obtain ⟨ws, hws, -⟩ := checked_ids hc
  rw [arguments_eq c fun htorrent => Identifier.checkAll_iff.mpr ⟨ws, hws htorrent, rfl⟩] at h
  obtain ⟨e', -, rfl⟩ := mapError_error (map_error h)
  cases e'
  rfl

end ChangeSet

namespace Request

theorem fields_alike {fields others : Option (List Value)} (h : sameFields fields others = true) :
    (Value.list (fields.getD allFields)).same (.list (others.getD allFields)) = true := by
  cases fields <;> cases others
  case none.none => exact Value.same_refl _
  case some.some => exact h
  all_goals simp [sameFields] at h

/-- Requests that are the same use the same method. Their arguments are the same as well exactly when that is so of
the arguments which sameness of requests leaves out; and they are there, unless a time cannot be written. -/
theorem same_arguments_iff {a b : Request} (hkeys : ∀ v ∈ a.values, v.hasUniqueKeys = true) (ha : a.IsAddressed)
    (hb : b.IsAddressed) (h : a.same b = true) :
    a.method = b.method ∧
    (∀ e, a.arguments = .error e → e = .writing .beforeCalendar ∧ ∃ c, a = .change c) ∧
    (EndsAlike (fun v w => v.same w = true) a.arguments b.arguments ↔ RestSame a b) := by
  have hcomplete : ∀ {ids : List Value} (more : List (String × Value)), Identifier.AllNamed ids →
      ∀ e, withIds ids more ≠ .error e := by
    rintro ids more ⟨ws, hws⟩ e herror
    rw [withIds_ok hws] at herror
    cases herror
  unfold same at h
  split at h
  · next action ids other others =>
    obtain ⟨haction, hids⟩ := Bool.and_eq_true_iff.mp h
    refine ⟨by rw [method, method, of_decide_eq_true haction], fun e he => absurd he (hcomplete _ ha e), ?_⟩
    refine Iff.trans (withIds_alike hids ha hb (by rfl) (by simp)) ?_
    simp [RestSame]
  · next ids fields others otherFields =>
    obtain ⟨hids, hfields⟩ := Bool.and_eq_true_iff.mp h
    refine ⟨rfl, fun e he => absurd he (hcomplete _ ha e), ?_⟩
    refine Iff.trans (withIds_alike hids ha hb (by rfl) (by simp)) ?_
    simp [RestSame, fields_alike hfields]
  · refine ⟨rfl, fun e he => absurd he (hcomplete _ ha e), ?_⟩
    refine Iff.trans (withIds_alike h ha hb (by rfl) (by simp)) ?_
    simp [RestSame]
  · refine ⟨rfl, fun e he => absurd he (hcomplete _ ha e), ?_⟩
    refine Iff.trans (withIds_alike h ha hb (by rfl) (by simp)) ?_
    simp [RestSame]
  · obtain ⟨hone, ha⟩ := ha
    obtain ⟨hone', hb⟩ := hb
    rw [arguments, arguments, if_pos hone, if_pos hone']
    refine ⟨rfl, fun e he => absurd he (hcomplete _ ha e), ?_⟩
    refine Iff.trans (withIds_alike h ha hb (by rfl) (by simp)) ?_
    simp [RestSame]
  · next c d =>
    have hvalues : ∀ f ∈ c.values, f.2.hasUniqueKeys = true := fun f hf =>
      hkeys _ (List.mem_append_right _ (List.mem_map.mpr ⟨f, hf, rfl⟩))
    have halike := ChangeSet.arguments_alike hvalues ha hb h
    simp only [ChangeSet.same, Bool.and_eq_true, decide_eq_true_eq] at h
    refine ⟨by rw [method, method, h.1.1], fun e he => ⟨ChangeSet.arguments_error ha he, c, rfl⟩, ?_⟩
    exact ⟨fun _ => trivial, fun _ => halike⟩
  · cases h

/-- Bytes as constants and in a buffer, flags and numbers, and a mapping in another order. -/
theorem same_arguments_reordered : ∃ a b : Request,
    a.same b = true ∧ (∀ v ∈ a.values, v.hasUniqueKeys = true) ∧ a.IsAddressed ∧ b.IsAddressed ∧
    EndsAlike (fun v w => v.same w = true) a.arguments b.arguments := by
  let c := (ChangeSet.empty .torrent).set "tracker_replace" (.mapping [(.int 1, .text "a"), (.int 2, .bool true)])
  let d := (ChangeSet.empty .torrent).set "tracker_replace" (.mapping [(.int 2, .int 1), (.int 1, .text "a")])
  let a := Request.change { c with ids := [.bytes [65, 98, 99, 100, 101, 102, 48], .int 7] }
  let b := Request.change { d with ids := [.buffer [65, 98, 99, 100, 101, 102, 48], .int 7] }
  have haddressed : ∀ v : Value, (InfoHash.spelling v).text? = some "Abcdef0" → Identifier.AllNamed [v, .int 7] :=
    fun v hv => ⟨_, .cons (.hash hv (by decide +kernel)) (.cons (.number rfl (by decide) (by decide)) .nil)⟩
  have ha : a.IsAddressed := fun _ => haddressed _ rfl
  have hb : b.IsAddressed := fun _ => haddressed _ rfl
  have hkeys : ∀ v ∈ a.values, v.hasUniqueKeys = true := by decide +kernel
  have hsame : a.same b = true := by decide +kernel
  exact ⟨a, b, hsame, hkeys, ha, hb, (same_arguments_iff hkeys ha hb hsame).2.2.mpr trivial⟩

/-- The requests are the same, but what they send is not. -/
def SendsOther (a b : Request) : Prop :=
  a.same b = true ∧ a.IsAddressed ∧ b.IsAddressed ∧ ¬ EndsAlike (fun v w => v.same w = true) a.arguments b.arguments

/-- Torrents are removed with or without their data, they are moved to different places, and a path is given
different names. -/
theorem same_commands_differ :
    SendsOther (removeTorrents [.int 1] (.bool true)) (removeTorrents [.int 1] (.bool false)) ∧
      SendsOther (moveTorrents [.int 1] (.text "/a") (.bool true)) (moveTorrents [.int 1] (.text "/b") (.bool true)) ∧
      SendsOther (renamePath [.int 1] (.text "a") (.text "b")) (renamePath [.int 1] (.text "a") (.text "c")) := by
  have hone : Identifier.AllNamed [.int 1] := ⟨_, .cons (.number rfl (by decide) (by decide)) .nil⟩
  refine ⟨⟨by decide +kernel, hone, hone, ?_⟩, ⟨by decide +kernel, hone, hone, ?_⟩,
    ⟨by decide +kernel, ⟨rfl, hone⟩, ⟨rfl, hone⟩, ?_⟩⟩
  all_goals
    intro h
    have hsame := EndsAlike.ok_iff.mp h
    revert hsame
    decide +kernel

end Request

end TorrentRemote
