import TorrentRemote.Proofs.Identifier
import TorrentRemote.Proofs.Wire
import TorrentRemote.Request.Basic

/-!
# Which requests are refused

Before anything is sent, a request fails if it renames a path in no torrent or in several, or if one of its
identifiers is not valid. Apart from times that cannot be written, nothing else keeps its arguments from being built:
`Request.arguments_built`.
-/

namespace TorrentRemote

namespace Request
variable {r : Request}

/-- The identifiers that are sent; only changes of torrents have any. -/
def ids : Request → List Value
  | .act _ ids | .getTorrents ids _ | .removeTorrents ids _ | .moveTorrents ids _ _ | .renamePath ids _ _ => ids
  | .change set => if set.kind = .torrent then set.ids else []
  | _ => []

def IsCounted : Request → Prop
  | .renamePath ids _ _ => ids.length = 1
  | _ => True

def IsEmpty : Request → Prop
  | .change set => set.kind ≠ .newTorrent ∧ ∀ f ∈ set.values, f.2 = .null
  | _ => False

/-- There is no time among the changes that has no count of seconds. -/
def IsWritable : Request → Prop
  | .change set => ∀ f ∈ set.values, ¬ Wire.Unwritable f.2
  | _ => True

theorem isIdle_iff : r.isIdle = true ↔ r.IsEmpty := by
  cases r with
  | change set =>
    simp only [isIdle, IsEmpty, ChangeSet.changes, Bool.and_eq_true, decide_eq_true_eq, List.isEmpty_iff,
      List.filter_eq_nil_iff, Bool.not_eq_true', Bool.not_eq_false, Value.isNull_eq_true]
  | _ => exact iff_of_false Bool.false_ne_true id

theorem isIdle_eq_false (h : ¬ r.IsEmpty) : r.isIdle = false :=
  eq_false_of_ne_true fun hidle => h (isIdle_iff.mp hidle)

theorem isIdle_of_miscounted (h : ¬ r.IsCounted) : r.isIdle = false := by
  cases r with
  | renamePath => rfl
  | _ => exact absurd trivial h

theorem arguments_miscounted (h : ¬ r.IsCounted) :
    r.arguments = .error (.client (.singleTorrent (.int r.ids.length))) := by
  cases r with
  | renamePath ids path name => exact if_neg h
  | _ => exact absurd trivial h

/-- Identifiers are checked at the end, and arguments are built if the check succeeds. -/
theorem arguments_checked (hcount : r.IsCounted) (hwrite : r.IsWritable) :
    (∀ e, Identifier.checkAll r.ids = .error e → r.arguments = .error e) ∧
      ∀ checked, Identifier.checkAll r.ids = .ok checked → ∃ v, r.arguments = .ok v := by
  have hids : ∀ (ids : List Value) (more : List (String × Value)),
      (∀ e, Identifier.checkAll ids = .error e → withIds ids more = .error e) ∧
        ∀ checked, Identifier.checkAll ids = .ok checked → ∃ v, withIds ids more = .ok v := by
    intro ids more
    unfold withIds
    constructor
    · intro e he
      rw [he]
      rfl
    · intro checked hchecked
      rw [hchecked]
      exact ⟨_, rfl⟩
  cases r with
  | act | getTorrents | removeTorrents | moveTorrents => exact hids _ _
  | renamePath ids path name =>
    have hone : ids.length = 1 := hcount
    rw [arguments, if_pos hone]
    exact hids _ _
  | change set =>
    -- values are written before identifiers are checked, so a time among them would fail first
    obtain ⟨es, hes⟩ := Wire.writeFields_ok fun f hf => Wire.write_ok_iff.mpr (hwrite f hf)
    rw [arguments, ChangeSet.arguments, hes]
    cases hkind : set.kind with
    | torrent =>
      rw [ids, if_pos hkind]
      constructor
      · intro e he
        rw [he]
        rfl
      · intro checked hchecked
        rw [hchecked]
        exact ⟨_, rfl⟩
    | session | newTorrent =>
      rw [ids, if_neg (by simp [hkind])]
      exact ⟨nofun, fun _ _ => ⟨_, rfl⟩⟩
  | _ => exact ⟨nofun, fun _ _ => ⟨_, rfl⟩⟩

theorem arguments_misnamed (hcount : r.IsCounted) (hwrite : r.IsWritable)
    (h : ∃ v ∈ r.ids, ∀ w, ¬ Identifier.Names v w) : ∃ v ∈ r.ids, (∀ w, ¬ Identifier.Names v w) ∧
      r.arguments = .error (Identifier.refusal v) := by
  obtain ⟨v, hv, hnone, hcheck⟩ := Identifier.checkAll_misnamed h
  exact ⟨v, hv, hnone, (arguments_checked hcount hwrite).1 _ hcheck⟩

theorem arguments_built (hcount : r.IsCounted) (hwrite : r.IsWritable)
    (h : ∀ v ∈ r.ids, ∃ w, Identifier.Names v w) : ∃ v, r.arguments = .ok v := by
  obtain ⟨checked, hchecked⟩ := Identifier.checkAll_ok_iff.mpr h
  exact (arguments_checked hcount hwrite).2 checked hchecked

end Request

end TorrentRemote
