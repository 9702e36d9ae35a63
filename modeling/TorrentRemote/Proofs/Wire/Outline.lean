import TorrentRemote.Proofs.Wire

/-!
# What writing keeps

The wire form of a value has the outline of the value (`Wire.write_outline`): each item of a sequence stays in its
place, mappings keep their keys, and a record becomes a mapping of the fields that hold a value.
-/

namespace TorrentRemote

namespace Value

def heldFields (fs : List (Label × Value)) : List (String × Value) :=
  (fs.filter fun f => !f.2.isNull).map fun f => (f.1.wire, f.2)

theorem mem_heldFields {fs : List (Label × Value)} {f : String × Value} :
    f ∈ heldFields fs ↔ ∃ g ∈ fs, g.2.isNull = false ∧ f = (g.1.wire, g.2) := by
  simp [heldFields, and_assoc, @eq_comm _ f]

/-- The parts of a value in their order and under their keys, down to the wire forms of scalars. -/
inductive Outline where
  | scalar (form : Option Value)
  | items (parts : List Outline)
  | entries (keys : List Value) (parts : List Outline)

mutual

def outline : Value → Outline
  | .list vs => .items (outlines vs)
  | .tuple vs => .items (outlines vs)
  | .mapping es => .entries (es.map Prod.fst) (entryOutlines es)
  | .record _ fs => .entries ((heldFields fs).map fun f => .text f.1) (fieldOutlines fs)
  | v => .scalar (Wire.write v).toOption

def outlines : List Value → List Outline
  | [] => []
  | v :: vs => outline v :: outlines vs

def entryOutlines : List (Value × Value) → List Outline
  | [] => []
  | (_, v) :: es => outline v :: entryOutlines es

def fieldOutlines : List (Label × Value) → List Outline
  | [] => []
  | (_, .null) :: fs => fieldOutlines fs
  | (_, v) :: fs => outline v :: fieldOutlines fs

end

end Value

namespace Wire
open Value

theorem writeFields_eq (fs : List (Label × Value)) :
    writeFields fs = writeEntries ((heldFields fs).map fun f => (.text f.1, f.2)) := by
  induction fs with
  | nil => rfl
  | cons f fs ih =>
    obtain ⟨label, v⟩ := f
    cases hv : v.isNull with
    | true =>
      have hheld : heldFields ((label, v) :: fs) = heldFields fs := by simp [heldFields, hv]
      rw [hheld, isNull_eq_true.mp hv, writeFields_open, ih]
    | false =>
      have hheld : heldFields ((label, v) :: fs) = (label.wire, v) :: heldFields fs := by simp [heldFields, hv]
      rw [hheld, List.map_cons, writeEntries, writeFields, ih]
      rintro rfl
      cases hv

theorem writeEntries_keys : ∀ {es fs : List (Value × Value)}, writeEntries es = .ok fs →
    fs.map Prod.fst = es.map Prod.fst
  | [], fs, h => by
    cases h
    rfl
  | (k, v) :: es, fs, h => by
    rw [writeEntries] at h
    obtain ⟨w, -, h⟩ := bind_ok h
    obtain ⟨ws, hws, h⟩ := bind_ok h
    cases h
    rw [List.map_cons, List.map_cons, writeEntries_keys hws]

theorem outline_scalar {v w : Value} (h : write v = .ok w) (hv : v.outline = .scalar (write v).toOption) :
    v.outline = .scalar (some w) := by
  rw [hv, h]
  rfl

mutual

theorem write_outline : ∀ {v w : Value}, write v = .ok w → w.outline = v.outline
  | .list vs, w, h => by
    rw [write] at h
    obtain ⟨ws, hws, rfl⟩ := map_ok h
    rw [outline, outline, writeAll_outlines hws]
  | .tuple vs, w, h => by
    rw [write] at h
    obtain ⟨ws, hws, rfl⟩ := map_ok h
    rw [outline, outline, writeAll_outlines hws]
  | .mapping es, w, h => by
    rw [write] at h
    obtain ⟨fs, hfs, rfl⟩ := map_ok h
    rw [outline, outline, writeEntries_keys hfs, writeEntries_outlines hfs]
  | .record model fs, w, h => by
    rw [write] at h
    obtain ⟨es, hes, rfl⟩ := map_ok h
    rw [outline, outline, writeFields_keys hes, writeFields_outlines hes, heldFields, List.map_map]
    rfl
  | .member m, w, h => by
    rw [outline_scalar h rfl]
    rw [write] at h
    split at h
    · cases h
      rfl
    · cases h
      rfl
  | .time m, w, h => by
    rw [outline_scalar h rfl]
    rw [write] at h
    split at h
    · cases h
      rfl
    · cases h
  | .duration _, w, h | .bytes _, w, h | .buffer _, w, h | .null, w, h | .bool _, w, h | .int _, w, h
  | .float _, w, h | .text _, w, h | .object _, w, h => by
    cases h
    rfl

theorem writeAll_outlines : ∀ {vs ws : List Value}, writeAll vs = .ok ws → outlines ws = outlines vs
  | [], ws, h => by
    cases h
    rfl
  | v :: vs, ws, h => by
    rw [writeAll] at h
    obtain ⟨w, hw, h⟩ := bind_ok h
    obtain ⟨ws', hws, h⟩ := bind_ok h
    cases h
    rw [outlines, outlines, write_outline hw, writeAll_outlines hws]

theorem writeEntries_outlines : ∀ {es fs : List (Value × Value)}, writeEntries es = .ok fs →
    entryOutlines fs = entryOutlines es
  | [], fs, h => by
    cases h
    rfl
  | (k, v) :: es, fs, h => by
    rw [writeEntries] at h
    obtain ⟨w, hw, h⟩ := bind_ok h
    obtain ⟨ws, hws, h⟩ := bind_ok h
    cases h
    rw [entryOutlines, entryOutlines, write_outline hw, writeEntries_outlines hws]

theorem writeFields_outlines : ∀ {fs : List (Label × Value)} {es : List (Value × Value)}, writeFields fs = .ok es →
    entryOutlines es = fieldOutlines fs
  | [], es, h => by
    cases h
    rfl
  | (label, v) :: fs, es, h => by
    cases hv : v.isNull with
    | true =>
      rw [isNull_eq_true.mp hv, writeFields_open] at h
      rw [isNull_eq_true.mp hv, fieldOutlines, writeFields_outlines h]
    | false =>
      have hne : v ≠ .null := fun hnull => by
        rw [hnull] at hv
        cases hv
      rw [writeFields] at h
      · obtain ⟨w, hw, h⟩ := bind_ok h
        obtain ⟨ws, hws, h⟩ := bind_ok h
        cases h
        rw [entryOutlines, fieldOutlines, write_outline hw, writeFields_outlines hws]
        exact hne
      · exact hne

end

end Wire

end TorrentRemote
