import Mathlib.Data.List.Forall2
import TorrentRemote.Proofs.Value.Equivalence
import TorrentRemote.Proofs.Wire

/-!
# What the same values are written as

Two values that are the same have wire forms that are the same, or neither of them has one
(`Wire.write_alike`). Entries that are matched in any order can fail in a different order; this does not show,
because writing fails in only one way.
-/

namespace TorrentRemote

/-- Both computations succeed with related results or fail in the same way. -/
inductive EndsAlike {ε α β : Type} (R : α → β → Prop) : Except ε α → Except ε β → Prop
  | ok {a : α} {b : β} : R a b → EndsAlike R (.ok a) (.ok b)
  | error (e : ε) : EndsAlike R (.error e) (.error e)

namespace EndsAlike
variable {ε α β α' β' : Type} {R : α → β → Prop} {S : α' → β' → Prop} {x : Except ε α} {y : Except ε β}

theorem bind {f : α → Except ε α'} {g : β → Except ε β'} (h : EndsAlike R x y)
    (hstep : ∀ a b, R a b → EndsAlike S (f a) (g b)) : EndsAlike S (x >>= f) (y >>= g) := by
  cases h with
  | ok hab => exact hstep _ _ hab
  | error e => exact .error e

theorem map {f : α → α'} {g : β → β'} (h : EndsAlike R x y) (hstep : ∀ a b, R a b → S (f a) (g b)) :
    EndsAlike S (x.map f) (y.map g) := by
  cases h with
  | ok hab => exact .ok (hstep _ _ hab)
  | error e => exact .error e

theorem mapError {ε' : Type} {f : ε → ε'} (h : EndsAlike R x y) : EndsAlike R (x.mapError f) (y.mapError f) := by
  cases h with
  | ok hab => exact .ok hab
  | error e => exact .error _

theorem ok_iff {a : α} {b : β} : EndsAlike R (.ok a : Except ε α) (.ok b) ↔ R a b := by
  constructor
  · rintro (h | _)
    exact h
  · exact .ok

end EndsAlike

namespace Wire
open Value

abbrev WrittenAlike (v w : Value) : Prop :=
  EndsAlike (fun a b => a.same b = true) (write v) (write w)

/-! ## Values that hold no others -/

theorem write_quantity {v : Value} {x : Quantity} (h : v.quantity? = some x) :
    ∃ w, write v = .ok w ∧ w.scalar? = some (.number x) := by
  cases v with
  | member m => cases m <;> cases h <;> exact ⟨_, rfl, rfl⟩
  | _ => cases h <;> exact ⟨_, rfl, rfl⟩

theorem write_text {v : Value} {s : String} (h : v.text? = some s) : write v = .ok (.text s) := by
  cases v with
  | text t =>
    cases h
    rfl
  | member m =>
    cases m <;> cases h
    rfl
  | _ => cases h

theorem write_content {v : Value} {bs : List UInt8} (h : v.byteContent? = some bs) :
    write v = .ok (.text (Text.Base64.encode bs)) := by
  cases v <;> cases h <;> rfl

theorem toSeconds_same {m n : Moment} (h : m.same n = true) : m.toSeconds? = n.toSeconds? := by
  simp only [Moment.same, Bool.and_eq_true, decide_eq_true_eq] at h
  obtain ⟨hoffset, hinstant⟩ := h
  unfold Moment.toSeconds?
  cases hm : m.offset <;> cases hn : n.offset <;> simp_all [Moment.instant]

theorem written_refl (v : Value) : WrittenAlike v v := by
  unfold WrittenAlike
  cases write v with
  | ok w => exact .ok (same_refl w)
  | error e => exact .error e

theorem leaf_written {v w : Value} (hleaf : ∀ w, v.same w = sameLeaf v w) (h : v.same w = true) :
    WrittenAlike v w := by
  rw [hleaf] at h
  obtain ⟨x, y, hx, hy, h⟩ := sameLeaf_iff.mp h
  cases x <;> cases y <;> simp only [Scalar.same, decide_eq_true_eq, Bool.false_eq_true] at h
  case null.null =>
    rw [scalar?_eq_null.mp hx, scalar?_eq_null.mp hy]
    exact written_refl _
  case number.number x y =>
    obtain ⟨v', hv', hx'⟩ := write_quantity (scalar?_eq_number.mp hx)
    obtain ⟨w', hw', hy'⟩ := write_quantity (scalar?_eq_number.mp hy)
    rw [WrittenAlike, hv', hw', EndsAlike.ok_iff, same_of_scalar hx']
    exact sameLeaf_iff.mpr ⟨_, _, hx', hy', h⟩
  case text.text =>
    rw [WrittenAlike, write_text (scalar?_eq_text.mp hx), write_text (scalar?_eq_text.mp hy), h]
    exact .ok (same_refl _)
  case content.content =>
    rw [WrittenAlike, write_content (scalar?_eq_content.mp hx), write_content (scalar?_eq_content.mp hy), h]
    exact .ok (same_refl _)
  case time.time =>
    rw [scalar?_eq_time.mp hx, scalar?_eq_time.mp hy, WrittenAlike, write, write, toSeconds_same h]
    exact written_refl (.time _)
  case duration.duration =>
    rw [scalar?_eq_duration.mp hx, scalar?_eq_duration.mp hy, h]
    exact written_refl _
  case object.object =>
    rw [scalar?_eq_object.mp hx, scalar?_eq_object.mp hy, h]
    exact written_refl _

/-! ## Values that hold others -/

theorem exists_partner {α β : Type} {R : α → β → Prop} {as : List α} {bs : List β} (h : List.Forall₂ R as bs) :
    ∀ a ∈ as, ∃ b ∈ bs, R a b := by
  induction h with
  | nil => simp
  | cons hab _ ih =>
    intro a ha
    rcases List.mem_cons.mp ha with rfl | ha
    · exact ⟨_, List.mem_cons_self, hab⟩
    · obtain ⟨b, hb, hab⟩ := ih a ha
      exact ⟨b, List.mem_cons_of_mem _ hb, hab⟩

theorem same_entries {es fs : List (Value × Value)} (h : List.Forall₂ Matches es fs) :
    (mapping es).same (mapping fs) = true :=
  same_mapping.mpr ⟨fs, rfl, h.length_eq, exists_partner h⟩

theorem writeEntries_cases (es : List (Value × Value)) :
    (∃ out, writeEntries es = .ok out ∧ List.Forall₂ (fun e o => o.1 = e.1 ∧ write e.2 = .ok o.2) es out) ∨
      (writeEntries es = .error .beforeCalendar ∧ ∃ e ∈ es, write e.2 = .error .beforeCalendar) := by
  induction es with
  | nil => exact .inl ⟨[], rfl, .nil⟩
  | cons entry es ih =>
    obtain ⟨k, v⟩ := entry
    cases hv : write v with
    | error e =>
      refine .inr ⟨?_, (k, v), List.mem_cons_self, hv⟩
      rw [writeEntries, hv]
      rfl
    | ok w =>
      rcases ih with ⟨out, hout, hall⟩ | ⟨herror, e, he, hwrite⟩
      · refine .inl ⟨(k, w) :: out, ?_, .cons ⟨rfl, hv⟩ hall⟩
        rw [writeEntries, hv, hout]
        rfl
      · refine .inr ⟨?_, e, List.mem_cons_of_mem _ he, hwrite⟩
        rw [writeEntries, hv, herror]
        rfl

theorem entries_written {es fs : List (Value × Value)} (hlen : es.length = fs.length)
    (hforth : ∀ e ∈ es, ∃ f ∈ fs, Matches e f) (hback : ∀ f ∈ fs, ∃ e ∈ es, Matches e f)
    (hwritten : ∀ e ∈ es, ∀ f, Matches e f → WrittenAlike e.2 f.2) :
    WrittenAlike (.mapping es) (.mapping fs) := by
  rw [WrittenAlike, write, write]
  rcases writeEntries_cases es with ⟨out, hout, hall⟩ | ⟨herror, e, he, hwrite⟩
  · rcases writeEntries_cases fs with ⟨out', hout', hall'⟩ | ⟨-, f, hf, hwrite'⟩
    · rw [hout, hout']
      refine .ok (same_mapping.mpr ⟨out', rfl, ?_, ?_⟩)
      · rw [← hall.length_eq, ← hall'.length_eq, hlen]
      · intro o ho
        obtain ⟨e, he, hkey, hwrite⟩ := exists_partner hall.flip o ho
        obtain ⟨f, hf, hef⟩ := hforth e he
        obtain ⟨o', ho', hkey', hwrite'⟩ := exists_partner hall' f hf
        have hvalues := hwritten e he f hef
        rw [WrittenAlike, hwrite, hwrite', EndsAlike.ok_iff] at hvalues
        exact ⟨o', ho', by rw [hkey, hkey']; exact hef.1, hvalues⟩
    · obtain ⟨e, he, hef⟩ := hback f hf
      obtain ⟨o, -, -, hwrite⟩ := exists_partner hall e he
      have hvalues := hwritten e he f hef
      rw [WrittenAlike, hwrite, hwrite'] at hvalues
      cases hvalues
  · rcases writeEntries_cases fs with ⟨out', -, hall'⟩ | ⟨herror', -⟩
    · obtain ⟨f, hf, hef⟩ := hforth e he
      obtain ⟨o, -, -, hwrite'⟩ := exists_partner hall' f hf
      have hvalues := hwritten e he f hef
      rw [WrittenAlike, hwrite, hwrite'] at hvalues
      cases hvalues
    · rw [herror, herror']
      exact .error _

theorem same_null {v w : Value} (h : v.same w = true) : v = .null ↔ w = .null := by
  have hnull : ∀ {x : Scalar}, Scalar.null.same x = true ∨ x.same .null = true → x = .null := by
    intro x hx
    cases x <;> first | rfl | simp [Scalar.same] at hx
  constructor
  · rintro rfl
    obtain ⟨x, y, hx, hy, h⟩ := sameLeaf_iff.mp h
    cases hx
    exact scalar?_eq_null.mp (hnull (.inl h) ▸ hy)
  · rintro rfl
    have hleaf : v.same .null = sameLeaf v .null := by cases v <;> rfl
    obtain ⟨x, y, hx, hy, h⟩ := sameLeaf_iff.mp (hleaf ▸ h)
    cases hy
    exact scalar?_eq_null.mp (hnull (.inr h) ▸ hx)

theorem writeFields_cons {label : Label} {v : Value} {rest : List (Label × Value)} (hv : v ≠ .null) :
    writeFields ((label, v) :: rest) =
      (do let w ← write v; let ws ← writeFields rest; return (.text label.wire, w) :: ws) := by
  rw [writeFields]
  exact hv

mutual

theorem write_alike : ∀ v : Value, ∀ {w : Value}, v.hasUniqueKeys = true → v.same w = true → WrittenAlike v w
  | .list vs, _, hkeys, h => by
    obtain ⟨ws, rfl, h⟩ := same_list.mp h
    rw [WrittenAlike, write, write]
    exact (writeAll_alike vs hkeys h).map fun _ out' hout => same_list.mpr ⟨out', rfl, hout⟩
  | .tuple vs, _, hkeys, h => by
    obtain ⟨ws, rfl, h⟩ := same_tuple.mp h
    rw [WrittenAlike, write, write]
    exact (writeAll_alike vs hkeys h).map fun _ out' hout => same_list.mpr ⟨out', rfl, hout⟩
  | .mapping es, _, hkeys, h => by
    obtain ⟨fs, rfl, hlen, h⟩ := same_mapping.mp h
    obtain ⟨hes, hdiffer⟩ := haveUniqueKeys_iff.mp hkeys
    have hback := matched_back (fun e he f hef => same_symm e.1 (hes e he).1 hef.1) hdiffer hlen h
    exact entries_written hlen h hback (writeEntries_alike es hes)
  | .record _ fs, _, hkeys, h => by
    obtain ⟨gs, rfl, hfg⟩ := same_record.mp h
    rw [WrittenAlike, write, write]
    exact (writeFields_alike fs hkeys hfg).map fun _ _ hout => same_entries hout
  | .null, _, _, h | .bool _, _, _, h | .int _, _, _, h | .float _, _, _, h | .text _, _, _, h | .bytes _, _, _, h
  | .buffer _, _, _, h | .member _, _, _, h | .time _, _, _, h | .duration _, _, _, h | .object _, _, _, h =>
    leaf_written (fun _ => rfl) h

theorem writeAll_alike : ∀ vs : List Value, ∀ {ws : List Value}, allHaveUniqueKeys vs = true → sameAll vs ws = true →
    EndsAlike (fun a b => sameAll a b = true) (writeAll vs) (writeAll ws)
  | [], [], _, _ => .ok rfl
  | v :: vs, w :: ws, hkeys, h => by
    simp only [allHaveUniqueKeys, sameAll, Bool.and_eq_true] at hkeys h
    rw [writeAll, writeAll]
    refine (write_alike v hkeys.1 h.1).bind fun a b hab => (writeAll_alike vs hkeys.2 h.2).bind fun as bs habs => .ok ?_
    rw [sameAll, hab, habs]
    rfl

theorem writeEntries_alike : ∀ es : List (Value × Value),
    (∀ e ∈ es, e.1.hasUniqueKeys = true ∧ e.2.hasUniqueKeys = true) →
    ∀ e ∈ es, ∀ f, Matches e f → WrittenAlike e.2 f.2
  | (_, v) :: es, hkeys, _, he, f, h => by
    obtain ⟨⟨-, hv⟩, hes⟩ := List.forall_mem_cons.mp hkeys
    cases he with
    | head => exact write_alike v hv h.2
    | tail _ he => exact writeEntries_alike es hes _ he f h

theorem writeFields_alike : ∀ fs : List (Label × Value), ∀ {gs : List (Label × Value)},
    fieldsHaveUniqueKeys fs = true → sameFields fs gs = true →
    EndsAlike (List.Forall₂ Matches) (writeFields fs) (writeFields gs)
  | [], [], _, _ => .ok .nil
  | (label, v) :: fs, (other, w) :: gs, hkeys, h => by
    simp only [fieldsHaveUniqueKeys, sameFields, Bool.and_eq_true, decide_eq_true_eq] at hkeys h
    obtain ⟨⟨rfl, hvw⟩, hrest⟩ := h
    have hfields := writeFields_alike fs hkeys.2 hrest
    by_cases hnull : v = .null
    · rw [hnull, (same_null hvw).mp hnull, writeFields_open, writeFields_open]
      exact hfields
    · rw [writeFields_cons hnull, writeFields_cons (mt (same_null hvw).mpr hnull)]
      refine (write_alike v hkeys.1 hvw).bind fun a b hab => hfields.bind fun as bs habs => .ok ?_
      exact .cons ⟨same_refl _, hab⟩ habs

end

end Wire

end TorrentRemote
