import TorrentRemote.Json.Bytes
import TorrentRemote.Proofs.Json.Reader
import TorrentRemote.Proofs.Value.Tree

/-!
# What a text can stand for

Whatever text is read, what comes out is a tree of JSON (`parse_isJson`, `parseBytes_isJson`): an object has
each key once, and an integer has no more digits than it may.
-/

namespace TorrentRemote.Json

def Yields {α : Type} (p : α → Prop) (x : Except Fault (α × Input)) : Prop :=
  ∀ a tail, x = .ok (a, tail) → p a

section
variable {α β : Type} {p : α → Prop} {q : β → Prop} {x : Except Fault (α × Input)}

theorem Yields.bind {f : α × Input → Except Fault (β × Input)} (h : Yields p x)
    (hf : ∀ a tail, p a → Yields q (f (a, tail))) : Yields q (x >>= f) := by
  intro b tail hb
  obtain ⟨⟨a, after⟩, ha, hb⟩ := bind_ok hb
  exact hf a after (h a after ha) b tail hb

theorem Yields.map {f : α × Input → β × Input} (h : Yields p x) (hf : ∀ a tail, p a → q (f (a, tail)).1) :
    Yields q (x.map f) := by
  intro b tail hb
  obtain ⟨⟨a, after⟩, ha, hb⟩ := map_ok hb
  have hq := hf a after (h a after ha)
  rw [hb] at hq
  exact hq

theorem yields_ok {a : α} {tail : Input} (h : p a) : Yields p (.ok (a, tail)) := by
  intro a' tail' heq
  cases heq
  exact h

theorem yields_error (e : Fault) : Yields p (.error e : Except Fault (α × Input)) := by
  intro a tail h
  cases h

end

/-! ## Numbers -/

theorem wholeDigits_isDigit {cs : List Char} {c : Char} (h : c ∈ wholeDigits cs) : c.isDigit = true := by
  unfold wholeDigits at h
  split at h
  · rw [List.mem_singleton.mp h]
    rfl
  · exact List.all_eq_true.mp List.all_takeWhile c h

/-- Digits stand for no longer number. -/
theorem decimalLength_digitsValue {ds : List Char} (hne : ds ≠ []) (h : ∀ c ∈ ds, c.isDigit = true) :
    decimalLength (Numeral.digitsValue ds) ≤ ds.length := by
  have hlt : ∀ ds : List Char, (∀ c ∈ ds, c.isDigit = true) → Numeral.digitsValue ds < 10 ^ ds.length := by
    intro ds hds
    induction ds with
    | nil => simp [Numeral.digitsValue]
    | cons c ds ih =>
      have hc : c.toNat - '0'.toNat ≤ 9 :=
        Nat.sub_le_sub_right (Char.isDigit_iff_toNat.mp (hds c List.mem_cons_self)).2 '0'.toNat
      have hrest : Nat.ofDigitChars 10 ds 0 < 10 ^ ds.length := ih fun d hd => hds d (List.mem_cons_of_mem _ hd)
      have hle := Nat.mul_le_mul_left (10 ^ ds.length) hc
      rw [Numeral.digitsValue, Nat.ofDigitChars_cons, Nat.ofDigitChars_eq_ofDigitChars_zero, Nat.mul_zero, Nat.zero_add,
        List.length_cons, Nat.pow_succ]
      omega
  exact (Nat.length_toDigits_le_iff (by decide) (List.length_pos_iff.mpr hne)).mpr (hlt ds h)

theorem int_isJson {ds : List Char} (hne : ds ≠ []) (h : ∀ c ∈ ds, c.isDigit = true)
    (hlimit : ¬ ds.length > Numeral.digitLimit) (negative : Prop) [Decidable negative] :
    Value.IsJson (.int (if negative then -(Numeral.digitsValue ds : Int) else Numeral.digitsValue ds)) := by
  have hlength := decimalLength_digitsValue hne h
  refine .leaf ⟨trivial, fun n hn => ?_⟩
  have habs : n.natAbs = Numeral.digitsValue ds := by
    rw [← Value.int.inj hn]
    split
    · exact Int.natAbs_neg _
    · rfl
  rw [Value.HasDigits, habs]
  omega

theorem readNumber_isJson (i : Input) : Yields Value.IsJson (readNumber i) := by
  unfold readNumber
  dsimp only
  generalize (if i.rest.head? = some '-' then i.drop 1 else i) = body
  split
  · exact yields_error _
  next hwhole =>
  generalize body.drop (wholeDigits body.rest).length = afterWhole
  split
  · split
    · exact yields_error _
    · next hlimit => exact yields_ok (int_isJson hwhole (fun c hc => wholeDigits_isDigit hc) hlimit _)
  · exact yields_ok (.leaf ⟨trivial, nofun⟩)
  · exact yields_ok (.leaf ⟨trivial, nofun⟩)

theorem readAtom_isJson (i : Input) : Yields Value.IsJson (readAtom i) := by
  unfold readAtom
  split
  · next word v hword =>
    have hwords : ∀ word ∈ words, word.2.IsJson := by
      simp only [words, List.forall_mem_cons, List.not_mem_nil, false_implies, implies_true, and_true]
      exact ⟨.leaf ⟨trivial, nofun⟩, .leaf ⟨trivial, nofun⟩, .leaf ⟨trivial, nofun⟩, .leaf ⟨trivial, nofun⟩,
        .leaf ⟨trivial, nofun⟩, .leaf ⟨trivial, nofun⟩⟩
    exact yields_ok (hwords _ (List.mem_of_find?_eq_some hword))
  · exact readNumber_isJson i

/-! ## Objects -/

/-- The entries are fields with different names, and their values have the property. -/
def AreFields (p : Value → Prop) (es : List (Value × Value)) : Prop :=
  ∃ fields : List (String × Value), es = fields.map (fun f => (.text f.1, f.2)) ∧
    (fields.map Prod.fst).Nodup ∧ ∀ f ∈ fields, p f.2

section
variable {p : Value → Prop}

theorem putEntry_fields (key : String) {v : Value} (hv : p v) : ∀ {fields : List (String × Value)},
    (fields.map Prod.fst).Nodup → (∀ f ∈ fields, p f.2) → ∃ fields' : List (String × Value),
      putEntry key v (fields.map fun f => (.text f.1, f.2)) = fields'.map (fun f => (.text f.1, f.2)) ∧
        (fields'.map Prod.fst).Nodup ∧ (∀ f ∈ fields', p f.2) ∧
        ∀ name ∈ fields'.map Prod.fst, name = key ∨ name ∈ fields.map Prod.fst
  | [], _, _ => ⟨[(key, v)], rfl, by simp, by simpa using hv, by simp⟩
  | (name, w) :: fields, hn, h => by
    obtain ⟨hfresh, hn⟩ := List.nodup_cons.mp hn
    obtain ⟨hw, h⟩ := List.forall_mem_cons.mp h
    by_cases hname : name = key
    · subst hname
      have hput : putEntry name v (((name, w) :: fields).map fun f => (.text f.1, f.2)) =
          ((name, v) :: fields).map fun f => (.text f.1, f.2) := by
        have htext : (Value.text name).text? = some name := rfl
        rw [List.map_cons, putEntry, if_pos htext]
        rfl
      exact ⟨(name, v) :: fields, hput, List.nodup_cons.mpr ⟨hfresh, hn⟩, List.forall_mem_cons.mpr ⟨hv, h⟩,
        fun _ hmem => .inr hmem⟩
    · obtain ⟨fields', hput, hn', h', hnames⟩ := putEntry_fields key hv hn h
      refine ⟨(name, w) :: fields', ?_, ?_, List.forall_mem_cons.mpr ⟨hw, h'⟩, ?_⟩
      · have hother : ¬ (Value.text name).text? = some key := fun heq => hname (Option.some.inj heq)
        rw [List.map_cons, putEntry, if_neg hother, hput]
        rfl
      · refine List.nodup_cons.mpr ⟨fun hmem => ?_, hn'⟩
        rcases hnames name hmem with heq | hold
        · exact hname heq
        · exact hfresh hold
      · intro other hother
        rcases List.mem_cons.mp hother with rfl | hother
        · exact .inr List.mem_cons_self
        · exact (hnames other hother).imp id (List.mem_cons_of_mem _)

theorem collect_fields {entries : List (String × Value)} (h : ∀ e ∈ entries, p e.2) :
    AreFields p (collect entries) := by
  have hfold : ∀ (entries : List (String × Value)) (out : List (Value × Value)), (∀ e ∈ entries, p e.2) →
      AreFields p out → AreFields p (entries.foldl (fun out e => putEntry e.1 e.2 out) out) := by
    intro entries
    induction entries with
    | nil => exact fun _ _ hout => hout
    | cons e entries ih =>
      rintro out he ⟨fields, rfl, hn, hfields⟩
      obtain ⟨he, hrest⟩ := List.forall_mem_cons.mp he
      obtain ⟨fields', hput, hn', hfields', -⟩ := putEntry_fields e.1 he hn hfields
      exact ih _ hrest ⟨fields', hput, hn', hfields'⟩
  exact hfold entries [] h ⟨[], rfl, List.nodup_nil, by simp⟩

end

/-! ## Values -/

theorem object_isJson {entries : List (String × Value)} (h : ∀ e ∈ entries, e.2.IsJson) :
    Value.IsJson (.mapping (collect entries)) := by
  obtain ⟨fields, hes, hn, hfields⟩ := collect_fields h
  rw [hes]
  exact .mapping hn hfields

mutual

theorem readValue_isJson : ∀ (fuel : Nat) (i : Input), Yields Value.IsJson (readValue fuel i)
  | 0, i => yields_error _
  | fuel + 1, i => by
    unfold readValue
    split
    · intro v tail hv
      obtain ⟨⟨s, after⟩, -, hv⟩ := map_ok hv
      cases hv
      exact .leaf ⟨trivial, nofun⟩
    · dsimp only
      split
      · exact yields_ok (.list (by simp))
      · exact (readItems_isJson fuel _).map fun _ _ => .list
    · dsimp only
      split
      · exact yields_ok (.mapping List.nodup_nil (by simp) : Value.IsJson (.ofFields []))
      · exact (readEntries_isJson fuel _).map fun _ _ => object_isJson
    · exact readAtom_isJson i

theorem readItems_isJson : ∀ (fuel : Nat) (i : Input), Yields (fun vs => ∀ v ∈ vs, v.IsJson) (readItems fuel i)
  | 0, i => yields_error _
  | fuel + 1, i => by
    unfold readItems
    refine (readValue_isJson fuel i).bind fun v after hv => ?_
    dsimp only
    split
    · exact yields_ok (List.forall_mem_singleton.mpr hv)
    · refine (readItems_isJson fuel _).bind fun vs tail hvs => ?_
      exact yields_ok (List.forall_mem_cons.mpr ⟨hv, hvs⟩)
    · exact yields_error _

theorem readEntries_isJson : ∀ (fuel : Nat) (i : Input),
    Yields (fun entries => ∀ e ∈ entries, e.2.IsJson) (readEntries fuel i)
  | 0, i => yields_error _
  | fuel + 1, i => by
    unfold readEntries
    split
    · exact yields_error _
    have hkey : Yields (fun _ => True) (readString i) := fun _ _ _ => trivial
    refine hkey.bind fun key afterKey _ => ?_
    dsimp only
    split
    · exact yields_error _
    refine (readValue_isJson fuel _).bind fun v after hv => ?_
    dsimp only
    split
    · exact yields_ok (List.forall_mem_singleton.mpr hv)
    · refine (readEntries_isJson fuel _).bind fun entries tail hentries => ?_
      exact yields_ok (List.forall_mem_cons.mpr ⟨hv, hentries⟩)
    · exact yields_error _

end

theorem readText_isJson {cs : List Char} {v : Value} (h : readText cs = .ok v) : v.IsJson := by
  obtain ⟨⟨w, tail⟩, hw, h⟩ := bind_ok h
  dsimp only at h
  split at h
  · cases h
    exact readValue_isJson _ _ v tail hw
  · cases h

theorem parseChars_isJson {cs : List Char} {v : Value} (h : parseChars cs = .ok v) : v.IsJson :=
  readText_isJson (mapError_ok h)

theorem parse_isJson {s : String} {v : Value} (h : parse s = .ok v) : v.IsJson := by
  unfold parse at h
  dsimp only at h
  split at h
  · cases h
  · exact parseChars_isJson h

theorem parseBytes_isJson {bs : List UInt8} {v : Value} (h : parseBytes bs = .ok v) : v.IsJson := by
  unfold parseBytes at h
  dsimp only at h
  split at h
  · cases h
  · exact parseChars_isJson (mapError_ok h)

end TorrentRemote.Json
