import TorrentRemote.Proofs.Number.Whole
import TorrentRemote.Proofs.Value.Same

/-!
# Sameness is an equivalence

Sameness passes on from value to value (`same_trans`) without any condition. It can be turned around
(`same_symm`) for values whose mappings have no key twice: entries are only looked for from one side, and
counting shows that no entry of the other side is left over (`matched_back`).
-/

namespace TorrentRemote

namespace Binary64

theorem binade_pos : 0 < binade := Nat.two_pow_pos 52

/-- The magnitudes below a power of two are smaller than it. The exponent is a variable because the top one is too
large to be evaluated. -/
theorem units_lt_power {rank : Nat} (k : Nat) (h : rank < (k + 1) * binade) :
    units rank < units ((k + 1) * binade) := by
  have hpower : units ((k + 1) * binade) = binade * 2 ^ k := by
    have hle : ¬ (k + 1) * binade < binade := Nat.not_lt.mpr (Nat.le_mul_of_pos_left _ (Nat.succ_pos k))
    unfold units
    rw [if_neg hle, Nat.mul_mod_left, Nat.mul_div_cancel _ binade_pos, Nat.add_zero, Nat.add_sub_cancel, Nat.pow_eq]
  rw [hpower]
  by_cases hlow : rank < binade
  · rw [units, if_pos hlow]
    exact Nat.lt_of_lt_of_le hlow (Nat.le_mul_of_pos_right _ (Nat.two_pow_pos _))
  · have hscale : rank / binade - 1 + 1 ≤ k := by
      have hbelow : rank / binade < k + 1 := Nat.div_lt_of_lt_mul (Nat.mul_comm _ _ ▸ h)
      have habove : 1 ≤ rank / binade := (Nat.one_le_div_iff binade_pos).mpr (Nat.not_lt.mp hlow)
      omega
    have hdigits : binade + rank % binade < binade * 2 := by
      have := Nat.mod_lt rank binade_pos
      omega
    rw [units, if_neg hlow]
    calc (binade + rank % binade) * 2 ^ (rank / binade - 1)
        < binade * 2 * 2 ^ (rank / binade - 1) := Nat.mul_lt_mul_of_pos_right hdigits (Nat.two_pow_pos _)
      _ = binade * 2 ^ (rank / binade - 1 + 1) := by rw [Nat.mul_assoc, Nat.pow_succ']
      _ ≤ binade * 2 ^ k := Nat.mul_le_mul_left _ (Nat.pow_le_pow_right (by decide) hscale)

theorem units_lt_top {rank : Nat} (h : rank < topRank) : units rank < units topRank :=
  units_lt_power 2046 h

theorem natAbs_signed (negative : Bool) (rank : Fin (topRank + 1)) :
    (ranked negative rank).signed.natAbs = units rank.val := by
  cases negative <;> simp [signed, isNegative, magnitude]

theorem same_symm {x y : Binary64} (h : x.same y = true) : y.same x = true := by
  cases x <;> cases y <;> simp_all [same]

theorem same_trans {x y z : Binary64} (h : x.same y = true) (h' : y.same z = true) : x.same z = true := by
  cases x <;> cases y <;> cases z <;> simp_all [same]

theorem isFinite_iff (negative : Bool) (rank : Fin (topRank + 1)) :
    (ranked negative rank).isFinite = true ↔ (ranked negative rank).signed.natAbs < units topRank := by
  rw [natAbs_signed]
  constructor
  · intro h
    exact units_lt_top (of_decide_eq_true h)
  · intro h
    by_cases hrank : rank.val = topRank
    · rw [hrank] at h
      exact absurd h (Nat.lt_irrefl _)
    · exact decide_eq_true (by omega)

theorem isInt_of_same {x y : Binary64} {n : Int} (h : x.same y = true) (hx : x.isInt n = true) : y.isInt n = true := by
  cases x with
  | nan m => cases hx
  | ranked s a =>
    cases y with
    | nan m => simp [same] at h
    | ranked t b =>
      have hsigned : (ranked s a).signed = (ranked t b).signed := of_decide_eq_true h
      have hfinite : (ranked t b).isFinite = true ↔ (ranked s a).isFinite = true := by
        rw [isFinite_iff, isFinite_iff, hsigned]
      simp only [isInt, Bool.and_eq_true] at hx ⊢
      exact ⟨hfinite.mpr hx.1, hsigned ▸ hx.2⟩

theorem ranked_of_isInt {x : Binary64} {n : Int} (h : x.isInt n = true) :
    (∃ s rank, x = ranked s rank) ∧ x.signed = n * unitsPerOne := by
  cases x with
  | nan m => cases h
  | ranked s rank =>
    simp only [isInt, Bool.and_eq_true, decide_eq_true_eq] at h
    exact ⟨⟨s, rank, rfl⟩, h.2⟩

theorem isInt_unique {x : Binary64} {m n : Int} (hm : x.isInt m = true) (hn : x.isInt n = true) : m = n := by
  have hunits : (unitsPerOne : Int) ≠ 0 := Int.natCast_ne_zero.mpr (Nat.ne_of_gt unitsPerOne_pos)
  have hequal : m * unitsPerOne = n * unitsPerOne := (ranked_of_isInt hm).2.symm.trans (ranked_of_isInt hn).2
  exact Int.eq_of_mul_eq_mul_right hunits hequal

theorem same_of_isInt {x y : Binary64} {n : Int} (hx : x.isInt n = true) (hy : y.isInt n = true) :
    x.same y = true := by
  obtain ⟨⟨s, a, rfl⟩, hxn⟩ := ranked_of_isInt hx
  obtain ⟨⟨t, b, rfl⟩, hyn⟩ := ranked_of_isInt hy
  exact decide_eq_true (hxn.trans hyn.symm)

end Binary64

theorem Moment.same_symm {m n : Moment} (h : m.same n = true) : n.same m = true := by
  simp only [Moment.same, Bool.and_eq_true, decide_eq_true_eq] at h ⊢
  exact ⟨h.1.symm, h.2.symm⟩

theorem Moment.same_trans {m n k : Moment} (h : m.same n = true) (h' : n.same k = true) : m.same k = true := by
  simp only [Moment.same, Bool.and_eq_true, decide_eq_true_eq] at h h' ⊢
  exact ⟨h.1.trans h'.1, h.2.trans h'.2⟩

namespace Value

theorem Quantity.same_symm {x y : Quantity} (h : x.same y = true) : y.same x = true := by
  cases x <;> cases y
  case binary.binary => exact Binary64.same_symm h
  all_goals simp_all [Quantity.same]

theorem Quantity.same_trans {x y z : Quantity} (h : x.same y = true) (h' : y.same z = true) : x.same z = true := by
  cases x <;> cases y <;> cases z
  case whole.whole.whole | whole.whole.binary | binary.whole.whole => simp_all [Quantity.same]
  case whole.binary.binary => exact Binary64.isInt_of_same h' h
  case binary.binary.whole => exact Binary64.isInt_of_same (Binary64.same_symm h) h'
  case binary.binary.binary => exact Binary64.same_trans h h'
  case whole.binary.whole m x n => exact decide_eq_true (Binary64.isInt_unique h h')
  case binary.whole.binary x n y => exact Binary64.same_of_isInt h h'

/-! ## Scalars -/

/-- What a value that holds no others is compared by. -/
inductive Scalar where
  | null
  | number (x : Quantity)
  | text (s : String)
  | content (bs : List UInt8)
  | time (m : Moment)
  | duration (d : Duration)
  | object (mark : Nat)

def Scalar.same : Scalar → Scalar → Bool
  | .null, .null => true
  | .number x, .number y => x.same y
  | .text s, .text t => s = t
  | .content bs, .content cs => bs = cs
  | .time m, .time n => m.same n
  | .duration d, .duration e => d = e
  | .object m, .object n => m = n
  | _, _ => false

def scalar? : Value → Option Scalar
  | .null => some .null
  | .bool b => some (.number (.whole b.toNat))
  | .int n => some (.number (.whole n))
  | .float x => some (.number (.binary x))
  | .text s => some (.text s)
  | .bytes bs => some (.content bs)
  | .buffer bs => some (.content bs)
  | .member m =>
    match m.code with
    | .number n => some (.number (.whole n))
    | .word s => some (.text s)
  | .time m => some (.time m)
  | .duration d => some (.duration d)
  | .object mark => some (.object mark)
  | _ => none

/-- Besides equal scalars only numbers and times can be the same. -/
theorem Scalar.same_cases {x y : Scalar} (h : x.same y = true) :
    x = y ∨ (∃ q r, x = .number q ∧ y = .number r ∧ q.same r = true) ∨
      ∃ m n, x = .time m ∧ y = .time n ∧ m.same n = true := by
  cases x with
  | null =>
    cases y with
    | null => exact .inl rfl
    | _ => cases h
  | number q =>
    cases y with
    | number r => exact .inr (.inl ⟨q, r, rfl, rfl, h⟩)
    | _ => cases h
  | time m =>
    cases y with
    | time n => exact .inr (.inr ⟨m, n, rfl, rfl, h⟩)
    | _ => cases h
  | text s =>
    cases y with
    | text t => exact .inl (congrArg _ (of_decide_eq_true h))
    | _ => cases h
  | content bs =>
    cases y with
    | content cs => exact .inl (congrArg _ (of_decide_eq_true h))
    | _ => cases h
  | duration d =>
    cases y with
    | duration e => exact .inl (congrArg _ (of_decide_eq_true h))
    | _ => cases h
  | object mark =>
    cases y with
    | object other => exact .inl (congrArg _ (of_decide_eq_true h))
    | _ => cases h

theorem Scalar.same_symm {x y : Scalar} (h : x.same y = true) : y.same x = true := by
  rcases Scalar.same_cases h with rfl | ⟨q, r, rfl, rfl, h⟩ | ⟨m, n, rfl, rfl, h⟩
  · exact h
  · exact Quantity.same_symm h
  · exact Moment.same_symm h

theorem Scalar.same_trans {x y z : Scalar} (h : x.same y = true) (h' : y.same z = true) : x.same z = true := by
  rcases Scalar.same_cases h with rfl | ⟨q, r, rfl, rfl, h⟩ | ⟨m, n, rfl, rfl, h⟩
  · exact h'
  · cases z with
    | number => exact Quantity.same_trans h h'
    | _ => cases h'
  · cases z with
    | time => exact Moment.same_trans h h'
    | _ => cases h'

section
variable {v w : Value}

theorem scalar?_eq_null : v.scalar? = some .null ↔ v = .null := by
  cases v with
  | member m => cases m <;> constructor <;> intro h <;> cases h
  | _ => constructor <;> intro h <;> cases h <;> rfl

theorem scalar?_eq_time {m : Moment} : v.scalar? = some (.time m) ↔ v = .time m := by
  cases v with
  | member m => cases m <;> constructor <;> intro h <;> cases h
  | _ => constructor <;> intro h <;> cases h <;> rfl

theorem scalar?_eq_duration {d : Duration} : v.scalar? = some (.duration d) ↔ v = .duration d := by
  cases v with
  | member m => cases m <;> constructor <;> intro h <;> cases h
  | _ => constructor <;> intro h <;> cases h <;> rfl

theorem scalar?_eq_object {mark : Nat} : v.scalar? = some (.object mark) ↔ v = .object mark := by
  cases v with
  | member m => cases m <;> constructor <;> intro h <;> cases h
  | _ => constructor <;> intro h <;> cases h <;> rfl

theorem scalar?_eq_number {x : Quantity} : v.scalar? = some (.number x) ↔ v.quantity? = some x := by
  cases v with
  | member m => cases m <;> constructor <;> intro h <;> cases h <;> rfl
  | _ => constructor <;> intro h <;> cases h <;> rfl

theorem scalar?_eq_text {s : String} : v.scalar? = some (.text s) ↔ v.text? = some s := by
  cases v with
  | member m => cases m <;> constructor <;> intro h <;> cases h <;> rfl
  | _ => constructor <;> intro h <;> cases h <;> rfl

theorem scalar?_eq_content {bs : List UInt8} : v.scalar? = some (.content bs) ↔ v.byteContent? = some bs := by
  cases v with
  | member m => cases m <;> constructor <;> intro h <;> cases h
  | _ => constructor <;> intro h <;> cases h <;> rfl

theorem quantity?_none {x : Scalar} (hv : v.scalar? = some x) (hx : ∀ q, x ≠ .number q) : v.quantity? = none := by
  cases hq : v.quantity? with
  | none => rfl
  | some q => exact absurd (Option.some.inj (hv.symm.trans (scalar?_eq_number.mpr hq))) (hx q)

/-- Sameness of two values neither of which holds others is that of their scalars. -/
theorem sameLeaf_iff : sameLeaf v w = true ↔ ∃ x y, v.scalar? = some x ∧ w.scalar? = some y ∧ x.same y = true := by
  constructor
  · intro h
    unfold sameLeaf at h
    split at h
    · exact ⟨.null, .null, rfl, rfl, rfl⟩
    · exact ⟨.time _, .time _, rfl, rfl, h⟩
    · exact ⟨.duration _, .duration _, rfl, rfl, h⟩
    · exact ⟨.object _, .object _, rfl, rfl, h⟩
    · split at h
      next x y hx hy => exact ⟨.number x, .number y, scalar?_eq_number.mpr hx, scalar?_eq_number.mpr hy, h⟩
      · simp only [Bool.or_eq_true, Bool.and_eq_true, Option.isSome_iff_exists, decide_eq_true_eq] at h
        obtain ⟨⟨s, hs⟩, hequal⟩ | ⟨⟨bs, hbs⟩, hequal⟩ := h
        · exact ⟨.text s, .text s, scalar?_eq_text.mpr hs, scalar?_eq_text.mpr (hequal ▸ hs), decide_eq_true rfl⟩
        · exact ⟨.content bs, .content bs, scalar?_eq_content.mpr hbs, scalar?_eq_content.mpr (hequal ▸ hbs),
            decide_eq_true rfl⟩
  · rintro ⟨x, y, hx, hy, h⟩
    have hnumber : ∀ {q r : Quantity}, v.scalar? = some (.number q) → w.scalar? = some (.number r) →
        q.same r = true → sameLeaf v w = true := by
      intro q r hx hy h
      unfold sameLeaf
      split <;> try cases hx
      rwa [scalar?_eq_number.mp hx, scalar?_eq_number.mp hy]
    rcases Scalar.same_cases h with rfl | ⟨q, r, rfl, rfl, h⟩ | ⟨m, n, rfl, rfl, h⟩
    · cases x with
      | null => rw [scalar?_eq_null.mp hx, scalar?_eq_null.mp hy, sameLeaf]
      | number q => exact hnumber hx hy h
      | time m => rwa [scalar?_eq_time.mp hx, scalar?_eq_time.mp hy, sameLeaf]
      | duration d => simp [scalar?_eq_duration.mp hx, scalar?_eq_duration.mp hy, sameLeaf]
      | object mark => simp [scalar?_eq_object.mp hx, scalar?_eq_object.mp hy, sameLeaf]
      | text s =>
        unfold sameLeaf
        split <;> try cases hx
        rw [quantity?_none hx (by simp), scalar?_eq_text.mp hx, scalar?_eq_text.mp hy]
        simp
      | content bs =>
        unfold sameLeaf
        split <;> try cases hx
        rw [quantity?_none hx (by simp), scalar?_eq_content.mp hx, scalar?_eq_content.mp hy]
        simp
    · exact hnumber hx hy h
    · rwa [scalar?_eq_time.mp hx, scalar?_eq_time.mp hy, sameLeaf]

theorem same_of_scalar {x : Scalar} (h : v.scalar? = some x) (w : Value) : v.same w = sameLeaf v w := by
  cases v with
  | list | tuple | mapping | record => cases h
  | _ => rfl

end

section
variable {u v w : Value}

theorem leaf_symm (hleaf : ∀ w, v.same w = sameLeaf v w) (h : v.same w = true) : w.same v = true := by
  rw [hleaf] at h
  obtain ⟨x, y, hx, hy, h⟩ := sameLeaf_iff.mp h
  rw [same_of_scalar hy]
  exact sameLeaf_iff.mpr ⟨y, x, hy, hx, Scalar.same_symm h⟩

theorem leaf_trans (hleaf : ∀ w, u.same w = sameLeaf u w) (h : u.same v = true) (h' : v.same w = true) :
    u.same w = true := by
  rw [hleaf] at h ⊢
  obtain ⟨x, y, hx, hy, h⟩ := sameLeaf_iff.mp h
  rw [same_of_scalar hy] at h'
  obtain ⟨y', z, hy', hz, h'⟩ := sameLeaf_iff.mp h'
  cases hy.symm.trans hy'
  exact sameLeaf_iff.mpr ⟨x, z, hx, hz, Scalar.same_trans h h'⟩

/-! ## Values that hold others -/

/-- A value that holds others is the same as none that it is compared with as a leaf. -/
theorem not_same_of_leaf (hv : v.scalar? = none) (h : v.same w = sameLeaf v w) : ¬ v.same w = true := by
  intro hsame
  rw [h] at hsame
  obtain ⟨x, -, hx, -⟩ := sameLeaf_iff.mp hsame
  rw [hv] at hx
  cases hx

theorem same_list {vs : List Value} : (list vs).same w = true ↔ ∃ ws, w = .list ws ∧ sameAll vs ws = true := by
  constructor
  · intro h
    cases w with
    | list ws => exact ⟨ws, rfl, h⟩
    | _ => exact absurd h (not_same_of_leaf rfl rfl)
  · rintro ⟨ws, rfl, h⟩
    exact h

theorem same_tuple {vs : List Value} : (tuple vs).same w = true ↔ ∃ ws, w = .tuple ws ∧ sameAll vs ws = true := by
  constructor
  · intro h
    cases w with
    | tuple ws => exact ⟨ws, rfl, h⟩
    | _ => exact absurd h (not_same_of_leaf rfl rfl)
  · rintro ⟨ws, rfl, h⟩
    exact h

theorem same_record {model : String} {fs : List (Label × Value)} :
    (record model fs).same w = true ↔ ∃ gs, w = .record model gs ∧ sameFields fs gs = true := by
  constructor
  · intro h
    cases w with
    | record other gs =>
      obtain ⟨hmodel, h⟩ := Bool.and_eq_true_iff.mp h
      exact ⟨gs, by rw [of_decide_eq_true hmodel], h⟩
    | _ => exact absurd h (not_same_of_leaf rfl rfl)
  · rintro ⟨gs, rfl, h⟩
    exact Bool.and_eq_true_iff.mpr ⟨decide_eq_true rfl, h⟩

def Matches (e f : Value × Value) : Prop :=
  e.1.same f.1 = true ∧ e.2.same f.2 = true

theorem sameEntries_iff {es fs : List (Value × Value)} :
    sameEntries es fs = true ↔ ∀ e ∈ es, ∃ f ∈ fs, Matches e f := by
  induction es with
  | nil => simp [sameEntries]
  | cons e es ih =>
    simp only [sameEntries, Bool.and_eq_true, List.any_eq_true, List.forall_mem_cons, ih]
    rfl

theorem same_mapping {es : List (Value × Value)} :
    (mapping es).same w = true ↔
      ∃ fs, w = .mapping fs ∧ es.length = fs.length ∧ ∀ e ∈ es, ∃ f ∈ fs, Matches e f := by
  constructor
  · intro h
    cases w with
    | mapping fs =>
      obtain ⟨hlen, h⟩ := Bool.and_eq_true_iff.mp h
      exact ⟨fs, rfl, of_decide_eq_true hlen, sameEntries_iff.mp h⟩
    | _ => exact absurd h (not_same_of_leaf rfl rfl)
  · rintro ⟨fs, rfl, hlen, h⟩
    exact Bool.and_eq_true_iff.mpr ⟨decide_eq_true hlen, sameEntries_iff.mpr h⟩

end

mutual

theorem same_trans : ∀ u : Value, ∀ {v w : Value}, u.same v = true → v.same w = true → u.same w = true
  | .list us, _, _, h, h' => by
    obtain ⟨vs, rfl, h⟩ := same_list.mp h
    obtain ⟨ws, rfl, h'⟩ := same_list.mp h'
    exact same_list.mpr ⟨ws, rfl, sameAll_trans us h h'⟩
  | .tuple us, _, _, h, h' => by
    obtain ⟨vs, rfl, h⟩ := same_tuple.mp h
    obtain ⟨ws, rfl, h'⟩ := same_tuple.mp h'
    exact same_tuple.mpr ⟨ws, rfl, sameAll_trans us h h'⟩
  | .mapping es, _, _, h, h' => by
    obtain ⟨fs, rfl, hlen, h⟩ := same_mapping.mp h
    obtain ⟨gs, rfl, hlen', h'⟩ := same_mapping.mp h'
    refine same_mapping.mpr ⟨gs, rfl, hlen.trans hlen', ?_⟩
    intro e he
    obtain ⟨f, hf, hef⟩ := h e he
    obtain ⟨g, hg, hfg⟩ := h' f hf
    exact ⟨g, hg, matches_trans es he hef hfg⟩
  | .record _ fs, _, _, h, h' => by
    obtain ⟨gs, rfl, hfg⟩ := same_record.mp h
    obtain ⟨hs, rfl, hgh⟩ := same_record.mp h'
    exact same_record.mpr ⟨hs, rfl, sameFields_trans fs hfg hgh⟩
  | .null, _, _, h, h' | .bool _, _, _, h, h' | .int _, _, _, h, h' | .float _, _, _, h, h' | .text _, _, _, h, h'
  | .bytes _, _, _, h, h' | .buffer _, _, _, h, h' | .member _, _, _, h, h' | .time _, _, _, h, h'
  | .duration _, _, _, h, h' | .object _, _, _, h, h' => leaf_trans (fun _ => rfl) h h'

theorem sameAll_trans : ∀ us : List Value, ∀ {vs ws : List Value},
    sameAll us vs = true → sameAll vs ws = true → sameAll us ws = true
  | [], [], [], _, _ => rfl
  | u :: us, v :: vs, w :: ws, h, h' => by
    simp only [sameAll, Bool.and_eq_true] at h h' ⊢
    exact ⟨same_trans u h.1 h'.1, sameAll_trans us h.2 h'.2⟩

theorem matches_trans : ∀ es : List (Value × Value), ∀ {e f g : Value × Value}, e ∈ es →
    Matches e f → Matches f g → Matches e g
  | (k, v) :: es, _, _, _, he, h, h' => by
    cases he with
    | head => exact ⟨same_trans k h.1 h'.1, same_trans v h.2 h'.2⟩
    | tail _ he => exact matches_trans es he h h'

theorem sameFields_trans : ∀ fs : List (Label × Value), ∀ {gs hs : List (Label × Value)},
    sameFields fs gs = true → sameFields gs hs = true → sameFields fs hs = true
  | [], [], [], _, _ => rfl
  | (_, u) :: fs, (_, v) :: gs, (_, w) :: hs, h, h' => by
    simp only [sameFields, Bool.and_eq_true, decide_eq_true_eq] at h h' ⊢
    exact ⟨⟨h.1.1.trans h'.1.1, same_trans u h.1.2 h'.1.2⟩, sameFields_trans fs h.2 h'.2⟩

end

/-! ## Unique keys -/

mutual

/-- No mapping in a value has a key twice. -/
def hasUniqueKeys : Value → Bool
  | .list vs => allHaveUniqueKeys vs
  | .tuple vs => allHaveUniqueKeys vs
  | .mapping es => haveUniqueKeys es
  | .record _ fs => fieldsHaveUniqueKeys fs
  | _ => true

def allHaveUniqueKeys : List Value → Bool
  | [] => true
  | v :: vs => v.hasUniqueKeys && allHaveUniqueKeys vs

def haveUniqueKeys : List (Value × Value) → Bool
  | [] => true
  | (k, v) :: es => k.hasUniqueKeys && v.hasUniqueKeys && (es.all fun e => !k.same e.1) && haveUniqueKeys es

def fieldsHaveUniqueKeys : List (Label × Value) → Bool
  | [] => true
  | (_, v) :: fs => v.hasUniqueKeys && fieldsHaveUniqueKeys fs

end

/-- Where each item has a partner, no two have the same one and there are no more partners than items, each
partner has an item. -/
theorem exists_item {α β : Type} {R : α → β → Prop} : ∀ {es : List α} {fs : List β}, fs.length ≤ es.length →
    es.Pairwise (fun e e' => ∀ f, R e f → ¬ R e' f) → (∀ e ∈ es, ∃ f ∈ fs, R e f) → ∀ f ∈ fs, ∃ e ∈ es, R e f
  | [], fs, hlen, _, _, f, hf => by
    rw [List.eq_nil_of_length_eq_zero (Nat.le_zero.mp hlen)] at hf
    cases hf
  | e :: es, fs, hlen, hpair, hall, f, hf => by
    obtain ⟨hdiffer, hpair⟩ := List.pairwise_cons.mp hpair
    obtain ⟨g, hg, heg⟩ := hall e List.mem_cons_self
    obtain ⟨before, after, rfl⟩ := List.append_of_mem hg
    have hrest : ∀ e' ∈ es, ∃ f ∈ before ++ after, R e' f := by
      intro e' he'
      obtain ⟨f, hf, hf'⟩ := hall e' (List.mem_cons_of_mem _ he')
      have hne : f ≠ g := fun heq => hdiffer e' he' g heg (heq ▸ hf')
      refine ⟨f, ?_, hf'⟩
      simpa [hne] using hf
    have hlen' : (before ++ after).length ≤ es.length := by
      simp only [List.length_append, List.length_cons] at hlen ⊢
      omega
    by_cases hfg : f = g
    · exact ⟨e, List.mem_cons_self, hfg ▸ heg⟩
    · obtain ⟨e', he', h⟩ := exists_item hlen' hpair hrest f (by simpa [hfg] using hf)
      exact ⟨e', List.mem_cons_of_mem _ he', h⟩

theorem haveUniqueKeys_iff {es : List (Value × Value)} :
    haveUniqueKeys es = true ↔
      (∀ e ∈ es, e.1.hasUniqueKeys = true ∧ e.2.hasUniqueKeys = true) ∧
      es.Pairwise fun e e' => e.1.same e'.1 = false := by
  induction es with
  | nil => simp [haveUniqueKeys]
  | cons e es ih =>
    simp only [haveUniqueKeys, Bool.and_eq_true, List.all_eq_true, Bool.not_eq_true', List.forall_mem_cons,
      List.pairwise_cons, ih]
    exact and_and_and_comm

/-- The entries of the same mapping are matched the other way round, too, if the keys can be compared either way. -/
theorem matched_back {es fs : List (Value × Value)} (hsymm : ∀ e ∈ es, ∀ f, Matches e f → f.1.same e.1 = true)
    (hdiffer : es.Pairwise fun e e' => e.1.same e'.1 = false) (hlen : es.length = fs.length)
    (h : ∀ e ∈ es, ∃ f ∈ fs, Matches e f) : ∀ f ∈ fs, ∃ e ∈ es, Matches e f := by
  refine exists_item (Nat.le_of_eq hlen.symm) ?_ h
  refine hdiffer.imp_of_mem ?_
  intro e e' _ he' hkeys f hef hef'
  have hsame : e.1.same e'.1 = true := same_trans e.1 hef.1 (hsymm e' he' f hef')
  rw [hkeys] at hsame
  cases hsame

mutual

theorem same_symm : ∀ v : Value, ∀ {w : Value}, v.hasUniqueKeys = true → v.same w = true → w.same v = true
  | .list vs, _, hkeys, h => by
    obtain ⟨ws, rfl, h⟩ := same_list.mp h
    exact same_list.mpr ⟨vs, rfl, sameAll_symm vs hkeys h⟩
  | .tuple vs, _, hkeys, h => by
    obtain ⟨ws, rfl, h⟩ := same_tuple.mp h
    exact same_tuple.mpr ⟨vs, rfl, sameAll_symm vs hkeys h⟩
  | .mapping es, _, hkeys, h => by
    obtain ⟨fs, rfl, hlen, h⟩ := same_mapping.mp h
    obtain ⟨hes, hdiffer⟩ := haveUniqueKeys_iff.mp hkeys
    have hback := matches_symm es hes
    refine same_mapping.mpr ⟨es, rfl, hlen.symm, ?_⟩
    intro f hf
    obtain ⟨e, he, hef⟩ := matched_back (fun e he f hef => (hback e he f hef).1) hdiffer hlen h f hf
    exact ⟨e, he, hback e he f hef⟩
  | .record _ fs, _, hkeys, h => by
    obtain ⟨gs, rfl, hfg⟩ := same_record.mp h
    exact same_record.mpr ⟨fs, rfl, sameFields_symm fs hkeys hfg⟩
  | .null, _, _, h | .bool _, _, _, h | .int _, _, _, h | .float _, _, _, h | .text _, _, _, h | .bytes _, _, _, h
  | .buffer _, _, _, h | .member _, _, _, h | .time _, _, _, h | .duration _, _, _, h | .object _, _, _, h =>
    leaf_symm (fun _ => rfl) h

theorem sameAll_symm : ∀ vs : List Value, ∀ {ws : List Value}, allHaveUniqueKeys vs = true →
    sameAll vs ws = true → sameAll ws vs = true
  | [], [], _, _ => rfl
  | v :: vs, w :: ws, hkeys, h => by
    simp only [allHaveUniqueKeys, sameAll, Bool.and_eq_true] at hkeys h ⊢
    exact ⟨same_symm v hkeys.1 h.1, sameAll_symm vs hkeys.2 h.2⟩

theorem matches_symm : ∀ es : List (Value × Value),
    (∀ e ∈ es, e.1.hasUniqueKeys = true ∧ e.2.hasUniqueKeys = true) →
    ∀ e ∈ es, ∀ f, Matches e f → Matches f e
  | (k, v) :: es, hkeys, _, he, f, h => by
    obtain ⟨⟨hk, hv⟩, hes⟩ := List.forall_mem_cons.mp hkeys
    cases he with
    | head => exact ⟨same_symm k hk h.1, same_symm v hv h.2⟩
    | tail _ he => exact matches_symm es hes _ he f h

theorem sameFields_symm : ∀ fs : List (Label × Value), ∀ {gs : List (Label × Value)},
    fieldsHaveUniqueKeys fs = true → sameFields fs gs = true → sameFields gs fs = true
  | [], [], _, _ => rfl
  | (_, v) :: fs, (_, w) :: gs, hkeys, h => by
    simp only [fieldsHaveUniqueKeys, sameFields, Bool.and_eq_true, decide_eq_true_eq] at hkeys h ⊢
    exact ⟨⟨h.1.1.symm, same_symm v hkeys.1 h.1.2⟩, sameFields_symm fs hkeys.2 h.2⟩

end

end Value

end TorrentRemote
