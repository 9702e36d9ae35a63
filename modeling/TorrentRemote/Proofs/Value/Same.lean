import TorrentRemote.Value.Same

/-!
# Sameness of values

Every value is the same as itself, also a NaN and a thing that cannot be compared (`same_refl`).
-/

namespace TorrentRemote

theorem Binary64.same_refl (x : Binary64) : x.same x = true := by
  cases x <;> simp [Binary64.same]

theorem Moment.same_refl (m : Moment) : m.same m = true := by
  simp [Moment.same]

namespace Value

theorem Quantity.same_refl (x : Quantity) : x.same x = true := by
  cases x with
  | whole n => simp [Quantity.same]
  | binary x => exact Binary64.same_refl x

theorem sameLeaf_of_quantity (v : Value) {x : Quantity} (h : v.quantity? = some x) : sameLeaf v v = true := by
  unfold sameLeaf
  split
  · rfl
  · exact Moment.same_refl _
  · simp
  · simp
  · rw [h]
    exact Quantity.same_refl x

theorem member_same_refl (m : Member) : sameLeaf (.member m) (.member m) = true := by
  cases m with
  | encryption e => simp [sameLeaf, quantity?, int?, text?, Member.code]
  | _ => exact sameLeaf_of_quantity _ rfl

mutual

theorem same_refl : ∀ v : Value, v.same v = true
  | .null => rfl
  | .bool b => sameLeaf_of_quantity (.bool b) rfl
  | .int n => sameLeaf_of_quantity (.int n) rfl
  | .float x => sameLeaf_of_quantity (.float x) rfl
  | .text s => by simp [same, sameLeaf, quantity?, int?, text?]
  | .bytes bs => by simp [same, sameLeaf, quantity?, int?, byteContent?]
  | .buffer bs => by simp [same, sameLeaf, quantity?, int?, byteContent?]
  | .list vs => sameAll_refl vs
  | .tuple vs => sameAll_refl vs
  | .mapping es => by
    rw [same, sameEntries_of_subset es es fun _ h => h]
    simp
  | .member m => member_same_refl m
  | .time m => Moment.same_refl m
  | .duration d => by simp [same, sameLeaf]
  | .record model fs => by
    rw [same, sameFields_refl fs]
    simp
  | .object mark => by simp [same, sameLeaf]

theorem sameAll_refl : ∀ vs : List Value, sameAll vs vs = true
  | [] => rfl
  | v :: vs => by
    rw [sameAll, same_refl v, sameAll_refl vs]
    rfl

theorem sameEntries_of_subset : ∀ es fs : List (Value × Value), (∀ e ∈ es, e ∈ fs) → sameEntries es fs = true
  | [], _, _ => rfl
  | (k, v) :: es, fs, h => by
    have hany : (fs.any fun (l, w) => k.same l && v.same w) = true := by
      refine List.any_eq_true.mpr ⟨(k, v), h _ List.mem_cons_self, ?_⟩
      show (k.same k && v.same v) = true
      rw [same_refl k, same_refl v]
      rfl
    rw [sameEntries, sameEntries_of_subset es fs fun e he => h e (List.mem_cons_of_mem _ he), Bool.and_true]
    exact hany

theorem sameFields_refl : ∀ fs : List (Label × Value), sameFields fs fs = true
  | [] => rfl
  | (label, v) :: fs => by
    rw [sameFields, same_refl v, sameFields_refl fs]
    simp

end

end Value

end TorrentRemote
