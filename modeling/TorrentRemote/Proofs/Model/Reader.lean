import TorrentRemote.Model.Reader
import TorrentRemote.Proofs.Wire

/-!
# Steps of reading a model

Reading a record is reading its fields one by one, and what comes out has the labels of the record;
reading a list is reading its items.
-/

namespace TorrentRemote

namespace Kind

section
variable {v : Value}

theorem items_ok {vs : List Value} (h : items v = .ok vs) : v = .list vs := by
  unfold items at h
  split at h
  · cases h
    rfl
  · cases h

theorem items_error (h : ∀ vs, v ≠ .list vs) : items v = .error (expected "array" v) := by
  unfold items
  split
  · exact absurd rfl (h _)
  · rfl

theorem entries_ok {model : String} {es : List (Value × Value)} (h : entries model v = .ok es) : v = .mapping es := by
  unfold entries at h
  split at h
  · cases h
    rfl
  · cases h

theorem entries_error {model : String} (h : ∀ es, v ≠ .mapping es) :
    entries model v = .error (expected ("object for " ++ model) v) := by
  unfold entries
  split
  · exact absurd rfl (h _)
  · rfl

end

/-! ## Numbers -/

def readNumberBy (round : Int → Option Binary64) (v : Value) : Except Failure Value :=
  match v with
  | .float _ => .ok v
  | _ =>
    match v.int? with
    | none => .error (expected "number" v)
    | some n =>
      match round n with
      | some x => .ok (.float x)
      | none => .error .integerTooLarge

-- the checker would evaluate the rounding of an unknown integer, so proofs about numbers go by this form
theorem readNumber_eq (v : Value) : readNumber v = readNumberBy Binary64.ofInt? v := by
  unfold readNumber readNumberBy
  rfl

theorem readNumberBy_cases {round : Int → Option Binary64} {v r : Value} (h : readNumberBy round v = .ok r) :
    (∃ x, v = .float x ∧ r = .float x) ∨ ∃ n x, v.int? = some n ∧ round n = some x ∧ r = .float x := by
  unfold readNumberBy at h
  split at h
  · cases h
    exact .inl ⟨_, rfl, rfl⟩
  · split at h
    · cases h
    · next n hn =>
      split at h
      · next x hx =>
        cases h
        exact .inr ⟨n, x, hn, hx, rfl⟩
      · cases h

/-! ## Fields -/

def readField (label : Label) (kind : Kind) (es : List (Value × Value)) : Except Failure Value :=
  match Value.lookup? label.wire es with
  | none => .ok kind.absent
  | some .null => .ok .null
  | some v => kind.read v

theorem readField_absent {label : Label} {kind : Kind} {es : List (Value × Value)}
    (h : Value.lookup? label.wire es = none) : readField label kind es = .ok kind.absent := by
  unfold readField
  rw [h]

theorem readField_present {label : Label} {kind : Kind} {es : List (Value × Value)} {v : Value}
    (h : Value.lookup? label.wire es = some v) (hv : v.isNull = false) : readField label kind es = kind.read v := by
  unfold readField
  rw [h]
  cases v with
  | null => cases hv
  | _ => rfl

theorem readField_congr {label : Label} (kind : Kind) {es es' : List (Value × Value)}
    (h : Value.lookup? label.wire es = Value.lookup? label.wire es') :
    readField label kind es = readField label kind es' := by
  unfold readField
  rw [h]

/-- A field is missing, it is null, or its value is read. -/
theorem readField_cases (label : Label) (kind : Kind) (es : List (Value × Value)) :
    (Value.lookup? label.wire es = none ∧ readField label kind es = .ok kind.absent) ∨
    (Value.lookup? label.wire es = some .null ∧ readField label kind es = .ok .null) ∨
    ∃ v, Value.lookup? label.wire es = some v ∧ v.isNull = false ∧ readField label kind es = kind.read v := by
  cases h : Value.lookup? label.wire es with
  | none => exact .inl ⟨rfl, readField_absent h⟩
  | some v =>
    cases hv : v.isNull with
    | false => exact .inr (.inr ⟨v, rfl, hv, readField_present h hv⟩)
    | true =>
      rw [Value.isNull_eq_true.mp hv] at h ⊢
      exact .inr (.inl ⟨rfl, by rw [readField, h]⟩)

theorem readFields_cons (label : Label) (kind : Kind) (rest : List (Label × Kind)) (es : List (Value × Value)) :
    readFields ((label, kind) :: rest) es = (do
      let v ← readField label kind es
      let vs ← readFields rest es
      return (label, v) :: vs) := by
  rw [readFields]
  rcases readField_cases label kind es with ⟨h, hr⟩ | ⟨h, hr⟩ | ⟨v, h, hv, hr⟩
  · rw [h, hr]
  · rw [h, hr]
  · rw [h, hr]
    cases v with
    | null => cases hv
    | _ => rfl

theorem readFields_labels : ∀ {fields : List (Label × Kind)} {es : List (Value × Value)} {fs : List (Label × Value)},
    readFields fields es = .ok fs → fs.map Prod.fst = fields.map Prod.fst
  | [], es, fs, h => by
    cases h
    rfl
  | (label, kind) :: rest, es, fs, h => by
    rw [readFields_cons] at h
    obtain ⟨v, -, h⟩ := bind_ok h
    obtain ⟨vs, hvs, h⟩ := bind_ok h
    cases h
    rw [List.map_cons, List.map_cons, readFields_labels hvs]

theorem readFields_ok_of_mem {label : Label} {kind : Kind} : ∀ {fields : List (Label × Kind)}
    {es : List (Value × Value)} {fs : List (Label × Value)}, readFields fields es = .ok fs → (label, kind) ∈ fields →
      ∃ v, readField label kind es = .ok v ∧ (label, v) ∈ fs
  | [], es, fs, h, hf => by cases hf
  | (label', kind') :: rest, es, fs, h, hf => by
    rw [readFields_cons] at h
    obtain ⟨v, hv, h⟩ := bind_ok h
    obtain ⟨vs, hvs, h⟩ := bind_ok h
    cases h
    rcases List.mem_cons.mp hf with hf | hf
    · cases hf
      exact ⟨v, hv, List.mem_cons_self⟩
    · obtain ⟨v', hv', hmem⟩ := readFields_ok_of_mem hvs hf
      exact ⟨v', hv', List.mem_cons_of_mem _ hmem⟩

/-! ## Lists and records -/

theorem read_list (kind : Kind) (vs : List Value) :
    (Kind.listOf kind).read (.list vs) = (vs.mapM kind.read).map .list := by
  rw [read]
  exact bind_pure_eq_map _ _

theorem read_listOrEmpty_eq (kind : Kind) (v : Value) : (Kind.listOrEmpty kind).read v = (Kind.listOf kind).read v := by
  rw [read, read]

theorem read_record (model : String) (fields : List (Label × Kind)) (es : List (Value × Value)) :
    (Kind.record model fields).read (.mapping es) = (readFields fields es).map (.record model) := by
  rw [read]
  exact bind_pure_eq_map _ _

theorem read_list_ok {kind : Kind} {v r : Value} (h : (Kind.listOf kind).read v = .ok r) :
    ∃ vs rs, v = .list vs ∧ vs.mapM kind.read = .ok rs ∧ r = .list rs := by
  rw [read] at h
  obtain ⟨vs, hvs, h⟩ := bind_ok h
  obtain ⟨rs, hrs, h⟩ := bind_ok h
  cases h
  exact ⟨vs, rs, items_ok hvs, hrs, rfl⟩

theorem read_record_ok {model : String} {fields : List (Label × Kind)} {v r : Value}
    (h : (Kind.record model fields).read v = .ok r) :
    ∃ es fs, v = .mapping es ∧ readFields fields es = .ok fs ∧ r = .record model fs := by
  rw [read] at h
  obtain ⟨es, hes, h⟩ := bind_ok h
  obtain ⟨fs, hfs, h⟩ := bind_ok h
  cases h
  exact ⟨es, fs, entries_ok hes, hfs, rfl⟩

end Kind

end TorrentRemote
