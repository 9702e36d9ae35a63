import Mathlib.Data.List.Nodup
import TorrentRemote.Model.Catalog
import TorrentRemote.Proofs.Model.Reader

/-!
# Keys that a model does not know

Objects that are read as models can have more keys than the model has fields, at the top and inside of fields and
lists. What is read is the same without these keys, and so is the error where nothing is read.
-/

namespace TorrentRemote

namespace Kind

mutual

/-- The second value has what the first one has, and more keys in the objects that are read as models. -/
inductive Extends : Kind → Value → Value → Prop
  | same {kind : Kind} {v : Value} : Extends kind v v
  | list {kind : Kind} {vs ws : List Value} : ExtendsItems kind vs ws → Extends (.listOf kind) (.list vs) (.list ws)
  | listOrEmpty {kind : Kind} {vs ws : List Value} : ExtendsItems kind vs ws →
      Extends (.listOrEmpty kind) (.list vs) (.list ws)
  | record {model : String} {fields : List (Label × Kind)} {es es' : List (Value × Value)} :
      ExtendsEntries fields es es' → Extends (.record model fields) (.mapping es) (.mapping es')

inductive ExtendsItems : Kind → List Value → List Value → Prop
  | nil {kind : Kind} : ExtendsItems kind [] []
  | cons {kind : Kind} {v w : Value} {vs ws : List Value} : Extends kind v w → ExtendsItems kind vs ws →
      ExtendsItems kind (v :: vs) (w :: ws)

/-- Entries stay in their order, with new ones anywhere between them whose keys are of no field. -/
inductive ExtendsEntries : List (Label × Kind) → List (Value × Value) → List (Value × Value) → Prop
  | nil {fields : List (Label × Kind)} : ExtendsEntries fields [] []
  | kept {fields : List (Label × Kind)} {k v : Value} {es es' : List (Value × Value)} :
      ExtendsEntries fields es es' → ExtendsEntries fields ((k, v) :: es) ((k, v) :: es')
  | within {fields : List (Label × Kind)} {key : String} {v w : Value} {es es' : List (Value × Value)} :
      key ∈ fields.map (·.1.wire) → (∀ f ∈ fields, f.1.wire = key → Extends f.2 v w) → ExtendsEntries fields es es' →
      ExtendsEntries fields ((.text key, v) :: es) ((.text key, w) :: es')
  | added {fields : List (Label × Kind)} {key : String} {v : Value} {es es' : List (Value × Value)} :
      key ∉ fields.map (·.1.wire) → ExtendsEntries fields es es' → ExtendsEntries fields es ((.text key, v) :: es')

end

theorem Extends.isNull {kind : Kind} {v w : Value} (h : Extends kind v w) : w.isNull = v.isNull := by
  cases h <;> rfl

theorem ExtendsEntries.field {fields : List (Label × Kind)} (label : Label) {kind : Kind} {v w : Value}
    {es es' : List (Value × Value)} (hn : (fields.map (·.1.wire)).Nodup) (hf : (label, kind) ∈ fields)
    (hv : kind.Extends v w) (h : ExtendsEntries fields es es') :
    ExtendsEntries fields ((.text label.wire, v) :: es) ((.text label.wire, w) :: es') := by
  refine .within (List.mem_map_of_mem hf) (fun f hmem hkey => ?_) h
  rw [List.inj_on_of_nodup_map hn hmem hf hkey]
  exact hv

theorem readField_first {label : Label} {kind : Kind} {k v : Value} {es : List (Value × Value)}
    (h : k.text? = some label.wire) :
    readField label kind ((k, v) :: es) = if v.isNull then .ok .null else kind.read v := by
  unfold readField
  rw [Value.lookup?, if_pos h]
  cases v <;> rfl

theorem readField_other {label : Label} {kind : Kind} {k v : Value} {es : List (Value × Value)}
    (h : k.text? ≠ some label.wire) : readField label kind ((k, v) :: es) = readField label kind es := by
  unfold readField
  rw [Value.lookup?, if_neg h]

theorem readFields_congr {es es' : List (Value × Value)} : ∀ {fields : List (Label × Kind)},
    (∀ f ∈ fields, readField f.1 f.2 es' = readField f.1 f.2 es) → readFields fields es' = readFields fields es
  | [], _ => rfl
  | (label, kind) :: rest, h => by
    rw [readFields_cons, readFields_cons, h _ List.mem_cons_self,
      readFields_congr fun f hf => h f (List.mem_cons_of_mem _ hf)]

mutual

theorem Extends.read_eq : ∀ {kind : Kind} {v w : Value}, Extends kind v w → kind.read w = kind.read v
  | _, _, _, .same => rfl
  | _, _, _, .list h => by rw [read_list, read_list, h.read_eq]
  | _, _, _, .listOrEmpty h => by rw [read_listOrEmpty_eq, read_listOrEmpty_eq, read_list, read_list, h.read_eq]
  | _, _, _, .record h => by rw [read_record, read_record, readFields_congr h.readField_eq]

theorem ExtendsItems.read_eq : ∀ {kind : Kind} {vs ws : List Value}, ExtendsItems kind vs ws →
    ws.mapM kind.read = vs.mapM kind.read
  | _, _, _, .nil => rfl
  | _, _, _, .cons h hs => by rw [List.mapM_cons, List.mapM_cons, h.read_eq, hs.read_eq]

theorem ExtendsEntries.readField_eq : ∀ {fields : List (Label × Kind)} {es es' : List (Value × Value)},
    ExtendsEntries fields es es' → ∀ f ∈ fields, readField f.1 f.2 es' = readField f.1 f.2 es
  | _, _, _, .nil, _, _ => rfl
  | _, (k, v) :: es, _, .kept h, f, hf => by
    by_cases hk : k.text? = some f.1.wire
    · rw [readField_first hk, readField_first hk]
    · rw [readField_other hk, readField_other hk, h.readField_eq f hf]
  | _, (.text key, v) :: es, (_, w) :: _, .within _ hwithin h, f, hf => by
    by_cases hkey : f.1.wire = key
    · have hk : (Value.text key).text? = some f.1.wire := by rw [hkey]; rfl
      have hread := hwithin f hf hkey
      rw [readField_first hk, readField_first hk, hread.isNull, hread.read_eq]
    · have hk : (Value.text key).text? ≠ some f.1.wire := fun h => hkey (Option.some.inj h).symm
      rw [readField_other hk, readField_other hk, h.readField_eq f hf]
  | _, _, (.text key, v) :: _, .added hkey h, f, hf => by
    have hk : (Value.text key).text? ≠ some f.1.wire := by
      intro heq
      exact hkey (List.mem_map.mpr ⟨f, hf, (Option.some.inj heq).symm⟩)
    rw [readField_other hk, h.readField_eq f hf]

end

end Kind

namespace Model

theorem extends_entries (m : Model) {es es' : List (Value × Value)} (h : Kind.ExtendsEntries m.fields es es') :
    m.kind.Extends (.mapping es) (.mapping es') :=
  .record h

/-- Keys that no model knows, wherever they are, change neither what is read nor the error. -/
theorem unknown_keys_ignored (m : Model) {v w : Value} (h : m.kind.Extends v w) : m.read w = m.read v :=
  h.read_eq

theorem unknown_keys_ignored_of_files :
    let plain := Value.ofFields [("id", .int 7), ("files", .list [.ofFields [("length", .int 5)]])]
    let newer := Value.ofFields [("group", .text "linux"), ("id", .int 7),
      ("files", .list [.ofFields [("length", .int 5), ("beginPiece", .int 0)]])]
    torrent.kind.Extends plain newer ∧ torrent.read newer = torrent.read plain := by
  have hfile : torrentFile.kind.Extends (.ofFields [("length", .int 5)])
      (.ofFields [("length", .int 5), ("beginPiece", .int 0)]) :=
    torrentFile.extends_entries (.kept (.added (by decide) .nil))
  intro plain newer
  have h : torrent.kind.Extends plain newer := by
    refine torrent.extends_entries <| .added (by decide) <| .kept ?_
    exact .field ⟨"files", "files"⟩ (by decide) (by simp [torrent]) (.list (.cons hfile .nil)) .nil
  exact ⟨h, unknown_keys_ignored torrent h⟩

end Model

end TorrentRemote
