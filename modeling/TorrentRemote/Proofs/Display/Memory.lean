import Mathlib.Data.List.Induction
import TorrentRemote.Proofs.Display.Scale
import TorrentRemote.Proofs.Value.Same

/-!
# Texts from memory

What an operation tells is the text of a call with the same arguments, which is this one or was made before
(`told_from_made`). The same arguments can have different texts: a flag is the same as an integer and is shown by its
word. So the text of a size is its own where no earlier call had the same arguments in another form: `size_remembered`.
-/

namespace TorrentRemote.Display

/-! ## Sameness of keys -/

theorem sameNamed_refl : ∀ es : List (String × Value), sameNamed es es = true
  | [] => rfl
  | (name, v) :: rest => by
    rw [sameNamed, Value.same_refl, sameNamed_refl rest]
    simp

theorem Key.same_refl (key : Key) : key.same key = true := by
  cases key with
  | alone v => exact v.same_refl
  | all vs es =>
    rw [Key.same, Value.sameAll_refl, sameNamed_refl]
    rfl

/-- Keys are the same where all arguments are, one by one. -/
theorem same_of_keyOf {v w : Value} {a b : Arguments} (h : (keyOf v a).same (keyOf w b) = true) :
    v.same w = true ∧ Value.sameAll a.ordered b.ordered = true ∧ sameNamed a.named b.named = true := by
  unfold keyOf at h
  split at h <;> split at h <;> simp_all [Key.same, Value.sameAll, sameNamed]

/-! ## Calls -/

structure Call where
  kind : Kind
  value : Value
  rest : Arguments

/-- The arguments that an operation gets in a call, its own or that of another operation. -/
def Call.makes (c : Call) (kind : Kind) : List (Value × Arguments) :=
  if c.kind = kind then [(c.value, c.rest)]
  else if c.kind = .speed ∧ kind = .size then [(c.value, speedArguments c.rest)]
  else []

def made (kind : Kind) (calls : List Call) : List (Value × Arguments) :=
  calls.flatMap (·.makes kind)

def Memory.new : Memory := fun _ => []

def Memory.after (m : Memory) (calls : List Call) : Memory :=
  calls.foldl (fun m c => (m.tell c.kind c.value c.rest).2) m

theorem after_concat (m : Memory) (calls : List Call) (c : Call) :
    m.after (calls ++ [c]) = ((m.after calls).tell c.kind c.value c.rest).2 := by
  simp [Memory.after]

theorem made_concat (kind : Kind) (calls : List Call) (c : Call) :
    made kind (calls ++ [c]) = made kind calls ++ c.makes kind := by
  simp [made]

/-! ## What is kept -/

/-- What is kept for an operation are texts of calls. -/
def Memory.Holds (m : Memory) (kind : Kind) (calls : List (Value × Arguments)) : Prop :=
  ∀ kept ∈ m kind, ∃ c ∈ calls, kept.1 = keyOf c.1 c.2 ∧ text kind c.1 c.2 = .ok kept.2

/-- How a call ends whose text may be kept. -/
inductive Remembered (m : Memory) (kind : Kind) (v : Value) (a : Arguments) (make : Except Failure String × Memory) :
    Except Failure String × Memory → Prop
  | refused {e : Failure} : checkKey (v :: a.ordered ++ a.named.map Prod.snd) = .error e →
      Remembered m kind v a make (.error e, m)
  | known {s : String} : checkKey (v :: a.ordered ++ a.named.map Prod.snd) = .ok () →
      m.recall kind (keyOf v a) = some s → Remembered m kind v a make (.ok s, m)
  | failed {e : Failure} {m' : Memory} : make = (.error e, m') → Remembered m kind v a make (.error e, m')
  | kept {s : String} {m' : Memory} : checkKey (v :: a.ordered ++ a.named.map Prod.snd) = .ok () →
      m.recall kind (keyOf v a) = none → make = (.ok s, m') →
      Remembered m kind v a make (.ok s, m'.keep kind (keyOf v a) s)

section
variable (m : Memory) (kind : Kind) (v : Value) (a : Arguments)

theorem remembered (make : Except Failure String × Memory) :
    Remembered m kind v a make (m.remember kind v a make) := by
  unfold Memory.remember
  cases hkey : checkKey (v :: a.ordered ++ a.named.map Prod.snd) with
  | error e => exact .refused hkey
  | ok _ =>
    cases hrecall : m.recall kind (keyOf v a) with
    | some s => exact .known hkey hrecall
    | none =>
      obtain ⟨result, m'⟩ := make
      cases result with
      | error e => exact .failed rfl
      | ok s => exact .kept hkey hrecall rfl

variable {m kind}

theorem Memory.Holds.mono {calls calls' : List (Value × Arguments)} (h : m.Holds kind calls) (hsub : calls ⊆ calls') :
    m.Holds kind calls' := by
  intro kept hkept
  obtain ⟨c, hc, htext⟩ := h kept hkept
  exact ⟨c, hsub hc, htext⟩

theorem Memory.Holds.keep_other {calls : List (Value × Arguments)} (h : m.Holds kind calls) {other : Kind}
    (hother : kind ≠ other) (key : Key) (s : String) : (m.keep other key s).Holds kind calls := by
  intro kept hkept
  rw [Memory.keep, if_neg hother] at hkept
  exact h kept hkept

variable {v a}

theorem Memory.Holds.keep {calls : List (Value × Arguments)} {s : String} (h : m.Holds kind calls)
    (hmade : (v, a) ∈ calls) (htext : text kind v a = .ok s) : (m.keep kind (keyOf v a) s).Holds kind calls := by
  intro kept hkept
  rw [Memory.keep, if_pos rfl] at hkept
  rcases List.mem_cons.mp hkept with rfl | hkept
  · exact ⟨(v, a), hmade, rfl, htext⟩
  · exact h kept hkept

theorem Memory.Holds.recall {calls : List (Value × Arguments)} {s : String} (h : m.Holds kind calls)
    (hrecall : m.recall kind (keyOf v a) = some s) :
    ∃ c ∈ calls, (keyOf c.1 c.2).same (keyOf v a) = true ∧ text kind c.1 c.2 = .ok s := by
  obtain ⟨kept, hfind, rfl⟩ := Option.map_eq_some_iff.mp hrecall
  obtain ⟨c, hc, hkey, htext⟩ := h kept (List.mem_of_find?_eq_some hfind)
  have hsame := List.find?_some hfind
  rw [hkey] at hsame
  exact ⟨c, hc, hsame, htext⟩

theorem Memory.Holds.remember {calls : List (Value × Arguments)} (h : m.Holds kind calls) (hmade : (v, a) ∈ calls) :
    (m.remember kind v a (text kind v a, m)).2.Holds kind calls := by
  have hremembered := remembered m kind v a (text kind v a, m)
  generalize m.remember kind v a (text kind v a, m) = x at hremembered
  cases hremembered with
  | refused => exact h
  | known => exact h
  | failed hmake =>
    rw [← (Prod.mk.inj hmake).2]
    exact h
  | @kept s m' _ _ hmake =>
    obtain ⟨htext, rfl⟩ := Prod.mk.inj hmake
    exact h.keep hmade htext

theorem Memory.Holds.remember_other {calls : List (Value × Arguments)} (h : m.Holds kind calls) {other : Kind}
    (hother : kind ≠ other) {make : Except Failure String × Memory} (hmake : make.2.Holds kind calls) :
    (m.remember other v a make).2.Holds kind calls := by
  have hremembered := remembered m other v a make
  generalize m.remember other v a make = x at hremembered
  cases hremembered with
  | refused => exact h
  | known => exact h
  | failed heq =>
    rw [heq] at hmake
    exact hmake
  | kept _ _ heq =>
    rw [heq] at hmake
    exact hmake.keep_other hother _ _

end

/-- The operations whose own texts are kept. Speeds are told as sizes. -/
def Kind.keepsOwn : Kind → Bool
  | .size | .percent | .duration => true
  | .speed | .time => false

section
variable {m : Memory} {kind : Kind}

theorem tell_own (hkind : kind.keepsOwn = true) (v : Value) (a : Arguments) :
    m.tell kind v a = m.remember kind v a (text kind v a, m) := by
  cases kind <;> first | rfl | cases hkind

theorem Memory.Holds.tell {calls : List (Value × Arguments)} (h : m.Holds kind calls) (hkind : kind.keepsOwn = true)
    (c : Call) : (m.tell c.kind c.value c.rest).2.Holds kind (calls ++ c.makes kind) := by
  have h' : m.Holds kind (calls ++ c.makes kind) := h.mono (List.subset_append_left _ _)
  by_cases hsame : c.kind = kind
  · subst hsame
    rw [tell_own hkind]
    exact h'.remember (by simp [Call.makes])
  · cases hc : c.kind with
    | time => exact h'
    | size | percent | duration => exact h'.remember_other (by rintro rfl; exact hsame hc) h'
    | speed =>
      refine h'.remember_other (by rintro rfl; exact hsame hc) ?_
      -- on its way the call makes one for a size, if its names are known
      split
      · exact h'
      · by_cases hsize : kind = .size
        · subst hsize
          exact h'.remember (by simp [Call.makes, hc])
        · exact h'.remember_other hsize h'

theorem holds_after (hkind : kind.keepsOwn = true) (calls : List Call) :
    (Memory.new.after calls).Holds kind (made kind calls) := by
  induction calls using List.reverseRecOn with
  | nil =>
    intro kept hkept
    cases hkept
  | append_singleton calls c ih =>
    rw [after_concat, made_concat]
    exact ih.tell hkind c

variable {v : Value} {a : Arguments}

/-- What is told is the text of a call with the same arguments, this one or an earlier one. -/
theorem told_from_made (hkind : kind.keepsOwn = true) {calls : List Call} {s : String} {m : Memory}
    (h : (Memory.new.after calls).tell kind v a = (.ok s, m)) : ∃ c, (c = (v, a) ∨ c ∈ made kind calls) ∧
      (keyOf c.1 c.2).same (keyOf v a) = true ∧ text kind c.1 c.2 = .ok s := by
  have hremembered := remembered (Memory.new.after calls) kind v a (text kind v a, Memory.new.after calls)
  rw [← tell_own hkind, h] at hremembered
  cases hremembered with
  | known _ hrecall =>
    obtain ⟨c, hc, hsame, htext⟩ := (holds_after hkind calls).recall hrecall
    exact ⟨c, .inr hc, hsame, htext⟩
  | kept _ _ hmake => exact ⟨(v, a), .inl rfl, Key.same_refl _, (Prod.mk.inj hmake).1⟩

/-! ## A text of its own -/

/-- No call had the same arguments in another form. -/
def Unmixed (kind : Kind) (calls : List Call) (v : Value) (a : Arguments) : Prop :=
  ∀ c ∈ made kind calls, (keyOf c.1 c.2).same (keyOf v a) = true → c = (v, a)

theorem told_own (hkind : kind.keepsOwn = true) {calls : List Call} (hown : Unmixed kind calls v a) {s : String}
    {m : Memory} (h : (Memory.new.after calls).tell kind v a = (.ok s, m)) : text kind v a = .ok s := by
  obtain ⟨c, hc, hsame, htext⟩ := told_from_made hkind h
  have hc : c = (v, a) := hc.elim id fun hmade => hown c hmade hsame
  rw [hc] at htext
  exact htext

/-- A text that a call has of its own is told. -/
theorem tell_of_text (hkind : kind.keepsOwn = true) {calls : List Call} (hown : Unmixed kind calls v a) {s : String}
    (hkey : checkKey (v :: a.ordered ++ a.named.map Prod.snd) = .ok ()) (htext : text kind v a = .ok s) :
    ∃ m, (Memory.new.after calls).tell kind v a = (.ok s, m) := by
  have hremembered := remembered (Memory.new.after calls) kind v a (text kind v a, Memory.new.after calls)
  rw [← tell_own hkind] at hremembered
  generalize hx : (Memory.new.after calls).tell kind v a = x at hremembered
  cases hremembered with
  | refused hrefused =>
    rw [hkey] at hrefused
    cases hrefused
  | known _ hrecall =>
    have hs := told_own hkind hown hx
    rw [htext] at hs
    cases hs
    exact ⟨_, rfl⟩
  | failed hmake =>
    rw [htext] at hmake
    cases hmake
  | kept _ _ hmake =>
    rw [htext] at hmake
    cases hmake
    exact ⟨_, rfl⟩

theorem key_of_told (hkind : kind.keepsOwn = true) {s : String} {m' : Memory} (h : m.tell kind v a = (.ok s, m')) :
    checkKey (v :: a.ordered ++ a.named.map Prod.snd) = .ok () := by
  have hremembered := remembered m kind v a (text kind v a, m)
  rw [← tell_own hkind, h] at hremembered
  cases hremembered with
  | known hkey _ => exact hkey
  | kept hkey _ _ => exact hkey

end

/-! ## Sizes -/

theorem text_size_ok {v : Value} {a : Arguments} {s : String} : text .size v a = .ok s ↔
    a.checkNames Kind.size.operation Kind.size.argumentNames = .ok () ∧ size (styleOf a) v = .ok s := by
  constructor
  · intro h
    obtain ⟨⟨⟩, hnames, hsize⟩ := bind_ok h
    exact ⟨hnames, hsize⟩
  · rintro ⟨hnames, hsize⟩
    show (a.checkNames Kind.size.operation Kind.size.argumentNames >>= _) = _
    rw [hnames]
    exact hsize

theorem unmixed_concat {calls : List Call} {a : Arguments} {m n : Int} (hne : m ≠ n)
    (h : Unmixed .size calls (.int n) a) : Unmixed .size (calls ++ [⟨.size, .int m, a⟩]) (.int n) a := by
  intro c hc hsame
  rw [made_concat] at hc
  rcases List.mem_append.mp hc with hc | hc
  · exact h c hc hsame
  · obtain rfl : c = (.int m, a) := by simpa [Call.makes] using hc
    have hints : (Value.int m).same (.int n) = true := (same_of_keyOf hsame).1
    exact absurd (of_decide_eq_true hints) hne

/-! ## Arguments as they are meant -/

/-- What the arguments of a size are meant to be. -/
def IsMeant (name : String) (v : Value) : Prop :=
  (name = "iec" ∧ ∃ b, v = .bool b) ∨ (name = "prec" ∧ ∃ n, v = .int n) ∨ (name = "suffix" ∧ ∃ s, v = .text s)

structure AreMeant (a : Arguments) : Prop where
  length_le : a.ordered.length ≤ Kind.size.argumentNames.length
  ordered : ∀ p ∈ Kind.size.argumentNames.zip a.ordered, IsMeant p.1 p.2
  named : ∀ p ∈ a.named, IsMeant p.1 p.2

theorem bool_same {b c : Bool} (h : (Value.bool b).same (.bool c) = true) : b = c := by
  cases b <;> cases c <;> first | rfl | cases h

theorem text_same {s t : String} (h : (Value.text s).same (.text t) = true) : s = t := by
  simpa [Value.same, Value.sameLeaf, Value.quantity?, Value.int?, Value.text?, Value.byteContent?] using h

theorem IsMeant.eq {name : String} {v w : Value} (hv : IsMeant name v) (hw : IsMeant name w) (h : v.same w = true) :
    v = w := by
  rcases hv with ⟨rfl, b, rfl⟩ | ⟨rfl, m, rfl⟩ | ⟨rfl, s, rfl⟩ <;>
    rcases hw with ⟨hname, c, rfl⟩ | ⟨hname, n, rfl⟩ | ⟨hname, t, rfl⟩ <;> first
    | exact absurd hname (by decide)
    | rw [bool_same h]
    | rw [of_decide_eq_true (h : decide (m = n) = true)]
    | rw [text_same h]

theorem ordered_eq : ∀ {names : List String} {vs ws : List Value}, vs.length ≤ names.length →
    (∀ p ∈ names.zip vs, IsMeant p.1 p.2) → (∀ p ∈ names.zip ws, IsMeant p.1 p.2) →
    Value.sameAll vs ws = true → vs = ws
  | _, [], [], _, _, _, _ => rfl
  | [], _ :: _, _, hlength, _, _, _ => absurd hlength (by simp)
  | name :: names, v :: vs, w :: ws, hlength, hv, hw, h => by
    rw [Value.sameAll, Bool.and_eq_true] at h
    rw [List.zip_cons_cons, List.forall_mem_cons] at hv hw
    obtain rfl : v = w := hv.1.eq hw.1 h.1
    rw [ordered_eq (Nat.le_of_succ_le_succ hlength) hv.2 hw.2 h.2]

theorem named_eq : ∀ {es fs : List (String × Value)}, (∀ p ∈ es, IsMeant p.1 p.2) → (∀ p ∈ fs, IsMeant p.1 p.2) →
    sameNamed es fs = true → es = fs
  | [], [], _, _, _ => rfl
  | (name, v) :: es, (other, w) :: fs, he, hf, h => by
    simp only [sameNamed, Bool.and_eq_true, decide_eq_true_eq] at h
    obtain ⟨⟨rfl, hvalue⟩, hrest⟩ := h
    rw [List.forall_mem_cons] at he hf
    obtain rfl : v = w := he.1.eq hf.1 hvalue
    rw [named_eq he.2 hf.2 hrest]

/-- Calls whose arguments are as they are meant have no arguments in another form. -/
theorem unmixed_of_meant {calls : List Call} {a : Arguments} {count : Int}
    (hcalls : ∀ c ∈ made .size calls, (∃ n, c.1 = .int n) ∧ AreMeant c.2) (ha : AreMeant a) :
    Unmixed .size calls (.int count) a := by
  rintro ⟨v, b⟩ hc hsame
  obtain ⟨⟨n, rfl⟩, hb⟩ := hcalls _ hc
  obtain ⟨hints, hordered, hnamed⟩ := same_of_keyOf hsame
  obtain ⟨bordered, bnamed⟩ := b
  obtain ⟨aordered, anamed⟩ := a
  obtain rfl := ordered_eq hb.length_le hb.ordered ha.ordered hordered
  obtain rfl := named_eq hb.named ha.named hnamed
  rw [of_decide_eq_true (hints : decide (n = count) = true)]

/-! ## Main result -/

/-- The text of a size after any calls none of which had the same arguments in another form. -/
theorem size_remembered {calls : List Call} {a : Arguments} {count : Int} {s : String} {m : Memory}
    (hown : Unmixed .size calls (.int count) a)
    (h : (Memory.new.after calls).tell .size (.int count) a = (.ok s, m)) :
    (count.natAbs < (unitsFor (styleOf a).binary).base → s = toString count ++ " B" ++ (styleOf a).suffix.plain) ∧
    ((unitsFor (styleOf a).binary).base ≤ count.natAbs → ∃ index letter l,
      (unitsFor (styleOf a).binary).IsScale count.natAbs index ∧
      (unitsFor (styleOf a).binary).letters[index]? = some letter ∧
      FixedLayout.ofPlaces (styleOf a).places.plain = .ok l ∧
      ((unitsFor (styleOf a).binary).quotient count index).IsNearest count
        ((unitsFor (styleOf a).binary).base ^ (index + 1)) ∧
      s = l.set ((unitsFor (styleOf a).binary).quotient count index) ++ " " ++ String.ofList [letter] ++
        (unitsFor (styleOf a).binary).ending ++ (styleOf a).suffix.plain) ∧
    (0 < count → (∃ n, (styleOf a).places.quantity? = some (.whole n)) → Unmixed .size calls (.int (-count)) a →
      ∃ m', m.tell .size (.int (-count)) a = (.ok ("-" ++ s), m')) := by
  have htext := told_own rfl hown h
  obtain ⟨hnames, hsize⟩ := text_size_ok.mp htext
  obtain ⟨hsmall, hlarge, hneg⟩ := size_scaled hsize
  refine ⟨hsmall, hlarge, fun hcount hplaces hown' => ?_⟩
  have hm : m = Memory.new.after (calls ++ [⟨.size, .int count, a⟩]) := by
    rw [after_concat, h]
  have hkey := key_of_told rfl h
  rw [hm]
  exact tell_of_text rfl (unmixed_concat (by omega) hown') hkey (text_size_ok.mpr ⟨hnames, hneg hcount hplaces⟩)

/-- More of the last unit than the base, which no further unit takes up. -/
def beyondUnits : Nat := 5 * 1024 ^ 9

def earlierCalls : List Call :=
  [⟨.speed, .int beyondUnits, {}⟩, ⟨.size, .int beyondUnits, { ordered := [.bool true] }⟩]

theorem earlierCalls_unmixed (count : Int) : Unmixed .size earlierCalls (.int count) {} := by
  refine unmixed_of_meant ?_ ⟨by decide, by simp, by simp⟩
  intro c hc
  have hc : c = (.int beyondUnits, speedArguments {}) ∨ c = (.int beyondUnits, { ordered := [.bool true] }) := by
    simpa [made, earlierCalls, Call.makes] using hc
  have hflag : IsMeant "iec" (.bool true) := .inl ⟨rfl, true, rfl⟩
  rcases hc with rfl | rfl
  · have hsuffix : IsMeant "suffix" (.text "/s") := .inr (.inr ⟨rfl, _, rfl⟩)
    exact ⟨⟨_, rfl⟩, by decide, by simp [speedArguments],
      List.forall_mem_cons.mpr ⟨hflag, List.forall_mem_singleton.mpr hsuffix⟩⟩
  · exact ⟨⟨_, rfl⟩, by decide, List.forall_mem_singleton.mpr hflag, by simp⟩

theorem beyondUnits_told : ∃ m, (Memory.new.after earlierCalls).tell .size (.int beyondUnits) {} =
    (.ok "5120.00 YiB", m) := by
  have h : ((Memory.new.after earlierCalls).tell .size (.int beyondUnits) {}).1 = .ok "5120.00 YiB" :=
    ok_of_toOption (by decide +kernel)
  generalize (Memory.new.after earlierCalls).tell .size (.int beyondUnits) {} = x at h ⊢
  obtain ⟨result, m⟩ := x
  cases h
  exact ⟨m, rfl⟩

theorem size_remembered_last : ∃ m, (Memory.new.after earlierCalls).tell .size (.int beyondUnits) {} =
      (.ok "5120.00 YiB", m) ∧
    (∃ index letter, binaryUnits.IsScale beyondUnits index ∧ binaryUnits.letters[index]? = some letter ∧
      (binaryUnits.quotient beyondUnits index).IsNearest beyondUnits (1024 ^ (index + 1))) ∧
    ∃ m', m.tell .size (.int (-beyondUnits)) {} = (.ok "-5120.00 YiB", m') := by
  obtain ⟨m, htold⟩ := beyondUnits_told
  obtain ⟨-, hlarge, hneg⟩ := size_remembered (earlierCalls_unmixed _) htold
  obtain ⟨index, letter, -, hscale, hletter, -, hnearest, -⟩ := hlarge (by decide)
  exact ⟨m, htold, ⟨index, letter, hscale, hletter, hnearest⟩,
    hneg (by decide) ⟨2, rfl⟩ (earlierCalls_unmixed _)⟩

/-- A layout that fills the number up to a width stands in front of the minus too, and after a flag the same integer is
told by its word. -/
theorem sizes_told_otherwise :
    (text .size (.int 5000) { named := [("prec", .text ">10.2")] } = .ok "......4.88 KiB" ∧
      text .size (.int (-5000)) { named := [("prec", .text ">10.2")] } = .ok ".....-4.88 KiB") ∧
    (text .size (.int 1) { named := [("iec", .bool false)] } = .ok "1 B" ∧
      ((Memory.new.after [⟨.size, .bool true, { named := [("iec", .bool false)] }⟩]).tell .size (.int 1)
        { named := [("iec", .bool false)] }).1 = .ok "True B") ∧
    (¬ ∀ (count : Int) (a : Arguments) (s : String), 0 < count → text .size (.int count) a = .ok s →
      text .size (.int (-count)) a = .ok ("-" ++ s)) ∧
    ¬ ∀ (calls : List Call) (a : Arguments) (count : Int) (s : String),
      count.natAbs < (unitsFor (styleOf a).binary).base →
      ((Memory.new.after calls).tell .size (.int count) a).1 = .ok s →
      s = toString count ++ " B" ++ (styleOf a).suffix.plain := by
  have hplus : text .size (.int 5000) { named := [("prec", .text ">10.2")] } = .ok "......4.88 KiB" :=
    ok_of_toOption (by decide +kernel)
  have hminus : text .size (.int (-5000)) { named := [("prec", .text ">10.2")] } = .ok ".....-4.88 KiB" :=
    ok_of_toOption (by decide +kernel)
  have hflag : ((Memory.new.after [⟨.size, .bool true, { named := [("iec", .bool false)] }⟩]).tell .size (.int 1)
      { named := [("iec", .bool false)] }).1 = .ok "True B" := ok_of_toOption (by decide +kernel)
  refine ⟨⟨hplus, hminus⟩, ⟨ok_of_toOption (by decide +kernel), hflag⟩, fun h => ?_, fun h => ?_⟩
  · have hsigned := h 5000 _ _ (by decide) hplus
    rw [hminus] at hsigned
    exact absurd (Except.ok.inj hsigned) (by decide)
  · have hword := h _ { named := [("iec", .bool false)] } 1 "True B" (by decide) hflag
    exact absurd hword (by decide)

end TorrentRemote.Display
