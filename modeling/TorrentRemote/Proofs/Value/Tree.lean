import TorrentRemote.Json.Writer

/-!
# Trees of plain data

Lists and mappings of plain data down to leaves of some kind. A mapping has texts as its keys, no two of
which are the same. What JSON can say is such a tree, and what it says without loss is one as well.
-/

namespace TorrentRemote.Value

inductive Tree (leaf : Value → Prop) : Value → Prop
  | leaf {v : Value} : leaf v → Tree leaf v
  | list {vs : List Value} : (∀ v ∈ vs, Tree leaf v) → Tree leaf (.list vs)
  | mapping {fields : List (String × Value)} : (fields.map Prod.fst).Nodup → (∀ f ∈ fields, Tree leaf f.2) →
      Tree leaf (ofFields fields)

/-- An integer that can be read and written in decimal digits. -/
def HasDigits (n : Int) : Prop := decimalLength n.natAbs ≤ Numeral.digitLimit

instance (n : Int) : Decidable (HasDigits n) :=
  inferInstanceAs (Decidable (_ ≤ _))

/-- What JSON has besides lists and mappings; NaN and the infinities count. -/
def PlainLeaf : Value → Prop
  | .null | .bool _ | .int _ | .float _ | .text _ => True
  | _ => False

/-- What a JSON text can say besides lists and mappings: its integers are not too long. -/
def JsonLeaf (v : Value) : Prop :=
  PlainLeaf v ∧ ∀ n, v = .int n → HasDigits n

/-- What JSON has besides lists, mappings and fractions. -/
def ExactLeaf : Value → Prop
  | .null | .bool _ | .text _ => True
  | .int n => HasDigits n
  | _ => False

def IsPlain : Value → Prop := Tree PlainLeaf

/-- A value that a JSON text can stand for. -/
def IsJson : Value → Prop := Tree JsonLeaf

/-- A value that a JSON text can stand for, without fractions. -/
def IsExact : Value → Prop := Tree ExactLeaf

theorem isNull_eq_true {v : Value} : v.isNull = true ↔ v = .null := by
  cases v <;> simp [isNull]

/-! ## Mappings -/

theorem mem_of_lookup {key : String} {v : Value} : ∀ {es : List (Value × Value)}, lookup? key es = some v →
    ∃ k, k.text? = some key ∧ (k, v) ∈ es
  | [], h => by cases h
  | (k, w) :: es, h => by
    rw [lookup?] at h
    split at h
    · next hk =>
      cases h
      exact ⟨k, hk, List.mem_cons_self⟩
    · obtain ⟨k', hk', hmem⟩ := mem_of_lookup h
      exact ⟨k', hk', List.mem_cons_of_mem _ hmem⟩

theorem lookup_other {key name : String} {w : Value} {es : List (Value × Value)} (h : name ≠ key) :
    lookup? key ((.text name, w) :: es) = lookup? key es := by
  have htext : (Value.text name).text? = some name := rfl
  simp [lookup?, htext, h]

theorem lookup_first (key : String) (w : Value) (es : List (Value × Value)) :
    lookup? key ((.text key, w) :: es) = some w := by
  have htext : (Value.text key).text? = some key := rfl
  simp [lookup?, htext]

theorem lookup_none {key : String} {es : List (Value × Value)} (h : ∀ k ∈ es.map Prod.fst, k.text? ≠ some key) :
    lookup? key es = none := by
  cases hv : lookup? key es with
  | none => rfl
  | some v =>
    obtain ⟨k, hk, hmem⟩ := mem_of_lookup hv
    exact absurd hk (h k (List.mem_map.mpr ⟨_, hmem, rfl⟩))

theorem texts_nodup {names : List String} (h : names.Nodup) : (names.map Value.text).Nodup :=
  List.pairwise_map.mpr (h.imp fun hne heq => hne (Value.text.inj heq))

theorem lookup_append (key : String) (es es' : List (Value × Value)) :
    lookup? key (es ++ es') = (lookup? key es).or (lookup? key es') := by
  induction es with
  | nil => simp [lookup?]
  | cons e es ih =>
    rw [List.cons_append, lookup?, lookup?, ih]
    split <;> rfl

section
variable {leaf : Value → Prop}

theorem Tree.items (hleaf : ∀ vs, ¬ leaf (.list vs)) {vs : List Value} (h : Tree leaf (.list vs)) :
    ∀ v ∈ vs, Tree leaf v := by
  generalize hw : Value.list vs = w at h
  cases h with
  | leaf h => exact absurd (hw ▸ h) (hleaf vs)
  | list h =>
    cases hw
    exact h
  | mapping _ _ => cases hw

theorem Tree.fields (hleaf : ∀ es, ¬ leaf (.mapping es)) {es : List (Value × Value)} (h : Tree leaf (.mapping es)) :
    ∃ fields, Value.mapping es = ofFields fields ∧ (fields.map Prod.fst).Nodup ∧ ∀ f ∈ fields, Tree leaf f.2 := by
  generalize hw : Value.mapping es = w at h
  cases h with
  | leaf h => exact absurd (hw ▸ h) (hleaf es)
  | list _ => cases hw
  | mapping hn h => exact ⟨_, rfl, hn, h⟩

theorem Tree.entries (hleaf : ∀ es, ¬ leaf (.mapping es)) {es : List (Value × Value)} (h : Tree leaf (.mapping es)) :
    ∀ e ∈ es, Tree leaf e.2 := by
  obtain ⟨fields, hes, -, hall⟩ := h.fields hleaf
  cases hes
  intro e he
  obtain ⟨f, hf, rfl⟩ := List.mem_map.mp he
  exact hall f hf

theorem Tree.lookup (hleaf : ∀ es, ¬ leaf (.mapping es)) {es : List (Value × Value)} (h : Tree leaf (.mapping es))
    {key : String} {v : Value} (hv : lookup? key es = some v) : Tree leaf v := by
  obtain ⟨k, -, hmem⟩ := mem_of_lookup hv
  exact h.entries hleaf _ hmem

end

theorem Tree.mono {leaf leaf' : Value → Prop} (hleaf : ∀ v, leaf v → leaf' v) {v : Value} (h : Tree leaf v) :
    Tree leaf' v := by
  induction h with
  | leaf h => exact .leaf (hleaf _ h)
  | list _ ih => exact .list ih
  | mapping hn _ ih => exact .mapping hn ih

theorem IsJson.isPlain {v : Value} (h : v.IsJson) : v.IsPlain :=
  Tree.mono (fun _ hleaf => hleaf.1) h

theorem IsJson.items {vs : List Value} (h : IsJson (.list vs)) {v : Value} (hv : v ∈ vs) : IsJson v :=
  Tree.items (fun _ h => h.1) h v hv

theorem IsJson.lookup {es : List (Value × Value)} (h : IsJson (.mapping es)) {key : String} {v : Value}
    (hv : lookup? key es = some v) : IsJson v :=
  Tree.lookup (fun _ h => h.1) h hv

theorem IsPlain.items {vs : List Value} (h : IsPlain (.list vs)) : ∀ v ∈ vs, IsPlain v :=
  Tree.items (fun _ h => h) h

theorem IsPlain.lookup {es : List (Value × Value)} (h : IsPlain (.mapping es)) {key : String} {v : Value}
    (hv : lookup? key es = some v) : IsPlain v :=
  Tree.lookup (fun _ h => h) h hv

theorem IsPlain.key_mem {es : List (Value × Value)} (h : IsPlain (.mapping es)) {key : String} {v : Value}
    (hv : lookup? key es = some v) : .text key ∈ es.map Prod.fst := by
  obtain ⟨fields, hes, -, -⟩ := Tree.fields (fun _ h => h) h
  cases hes
  obtain ⟨k, hk, hmem⟩ := mem_of_lookup hv
  obtain ⟨f, -, hf⟩ := List.mem_map.mp hmem
  cases hf
  rw [← Option.some.inj hk]
  exact List.mem_map.mpr ⟨_, hmem, rfl⟩

theorem IsPlain.of_int {v : Value} (h : v.IsPlain) {n : Int} (hv : v.int? = some n) : v = .int n := by
  cases h with
  | @leaf v h =>
    cases v with
    | int m => rw [Option.some.inj hv]
    | member m => cases h
    | _ => cases hv
  | list _ => cases hv
  | mapping _ _ => cases hv

theorem IsPlain.of_text {v : Value} (h : v.IsPlain) {s : String} (hv : v.text? = some s) : v = .text s := by
  cases h with
  | @leaf v h =>
    cases v with
    | text s' => rw [Option.some.inj hv]
    | member m => cases h
    | _ => cases hv
  | list _ => cases hv
  | mapping _ _ => cases hv

end TorrentRemote.Value
