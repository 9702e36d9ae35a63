import Mathlib.Algebra.GroupWithZero.Nat
import TorrentRemote.Display
import TorrentRemote.Proofs.Json.RoundTrip
import TorrentRemote.Proofs.Time.Seconds

/-!
# Durations in words

A duration of whole seconds is told in days, hours, minutes and seconds, each as often as it goes into what the larger
ones leave. The text can be read back, so that no two durations have the same one: `seconds_told`.
-/

namespace TorrentRemote.Display

/-! ## Parts -/

/-- A unit of `spans`, and how many there are of it. -/
structure Part where
  unit : String × Nat
  count : Nat

namespace Part

def text (p : Part) : String :=
  toString p.count ++ p.unit.1

def seconds (p : Part) : Nat :=
  p.count * p.unit.2

end Part

/-- As many of a unit make one of the next larger one. Days go on without an end. -/
def limits : List (String × Nat) :=
  [("h", 24), ("m", 60), ("s", 60)]

/-- The parts come in the order of their units, none of them is empty or would fill a larger unit, and together they
last some seconds. -/
structure LastTogether (parts : List Part) (seconds : Nat) : Prop where
  ordered : (parts.map Part.unit).Sublist spans
  positive : ∀ p ∈ parts, 0 < p.count
  limited : ∀ p ∈ parts, ∀ limit, limits.lookup p.unit.1 = some limit → p.count < limit
  total : (parts.map Part.seconds).sum = seconds

def partsOf : List (String × Nat) → Nat → List Part
  | [], _ => []
  | unit :: rest, seconds =>
    if seconds / unit.2 = 0 then partsOf rest (seconds % unit.2)
    else ⟨unit, seconds / unit.2⟩ :: partsOf rest (seconds % unit.2)

theorem spanTexts_eq : ∀ (units : List (String × Nat)) (seconds : Nat),
    spanTexts units seconds = (partsOf units seconds).map Part.text
  | [], _ => rfl
  | unit :: rest, seconds => by
    simp only [spanTexts, partsOf, spanTexts_eq rest]
    by_cases h : seconds / unit.2 = 0
    · rw [if_pos h, if_pos h]
    · rw [if_neg h, if_neg h, List.map_cons]
      rfl

section
variable {unit : String × Nat} {rest : List (String × Nat)} {seconds : Nat} {p : Part}

theorem mem_partsOf (h : p ∈ partsOf (unit :: rest) seconds) :
    (p = ⟨unit, seconds / unit.2⟩ ∧ 0 < p.count) ∨ p ∈ partsOf rest (seconds % unit.2) := by
  unfold partsOf at h
  split at h
  · exact .inr h
  · next hcount =>
    rcases List.mem_cons.mp h with rfl | h
    · exact .inl ⟨rfl, Nat.pos_of_ne_zero hcount⟩
    · exact .inr h

theorem partsOf_ordered : ∀ (units : List (String × Nat)) (seconds : Nat),
    ((partsOf units seconds).map Part.unit).Sublist units
  | [], _ => .slnil
  | unit :: rest, seconds => by
    unfold partsOf
    split
    · exact (partsOf_ordered rest _).cons unit
    · exact (partsOf_ordered rest _).cons_cons unit

theorem partsOf_positive : ∀ (units : List (String × Nat)) (seconds : Nat), ∀ p ∈ partsOf units seconds, 0 < p.count
  | [], _, _, h => by cases h
  | _ :: rest, _, p, h => by
    rcases mem_partsOf h with ⟨-, hpos⟩ | h
    · exact hpos
    · exact partsOf_positive rest _ p h

theorem partsOf_total : ∀ (units : List (String × Nat)) (seconds : Nat),
    ((partsOf units seconds).map Part.seconds).sum + units.foldl (fun left unit => left % unit.2) seconds = seconds
  | [], seconds => Nat.zero_add seconds
  | unit :: rest, seconds => by
    have hrest := partsOf_total rest (seconds % unit.2)
    have hsplit := Nat.div_add_mod' seconds unit.2
    unfold partsOf
    rw [List.foldl_cons]
    split
    · next hcount =>
      rw [hcount, Nat.zero_mul, Nat.zero_add] at hsplit
      rw [hrest, hsplit]
    · rw [List.map_cons, List.sum_cons, Nat.add_assoc, hrest]
      exact hsplit

end

theorem partsOf_limited {seconds : Nat} : ∀ p ∈ partsOf spans seconds, ∀ limit, limits.lookup p.unit.1 = some limit →
    p.count < limit := by
  intro p hp limit hlimit
  rcases mem_partsOf hp with ⟨rfl, -⟩ | hp
  · cases hlimit
  rcases mem_partsOf hp with ⟨rfl, -⟩ | hp
  · cases hlimit
    show seconds % 86400 / 3600 < 24
    omega
  rcases mem_partsOf hp with ⟨rfl, -⟩ | hp
  · cases hlimit
    show seconds % 86400 % 3600 / 60 < 60
    omega
  rcases mem_partsOf hp with ⟨rfl, -⟩ | hp
  · cases hlimit
    show seconds % 86400 % 3600 % 60 / 1 < 60
    omega
  · cases hp

theorem lastTogether_partsOf (seconds : Nat) : LastTogether (partsOf spans seconds) seconds where
  ordered := partsOf_ordered spans seconds
  positive := partsOf_positive spans seconds
  limited := partsOf_limited
  total := by
    have hleft : spans.foldl (fun left unit => left % unit.2) seconds = 0 := by
      show seconds % 86400 % 3600 % 60 % 1 = 0
      omega
    have htotal := partsOf_total spans seconds
    rwa [hleft, Nat.add_zero] at htotal

/-! ## Reading back -/

def lengthOf? : Char → Option Nat
  | 'd' => some 86400
  | 'h' => some 3600
  | 'm' => some 60
  | 's' => some 1
  | _ => none

/-- The seconds of parts that stand one behind the other, the first of them behind some digits of its count. -/
def readParts : (count : Nat) → List Char → Nat
  | _, [] => 0
  | count, c :: rest =>
    match lengthOf? c with
    | some length => count * length + readParts 0 rest
    | none => readParts (10 * count + (c.toNat - '0'.toNat)) rest

def readSeconds (s : String) : Int :=
  match s.toList with
  | [] => 0
  | c :: rest =>
    if c = 'D' then -1
    else if c = 'U' then -2
    else if c = '-' then -readParts 0 rest
    else readParts 0 (c :: rest)

theorem lengthOf_digit {c : Char} (h : c.isDigit = true) : lengthOf? c = none := by
  unfold lengthOf?
  split
  case h_5 => rfl
  all_goals cases h

theorem readParts_digits : ∀ (ds : List Char) (count : Nat) (rest : List Char), (∀ c ∈ ds, c.isDigit = true) →
    readParts count (ds ++ rest) = readParts (Nat.ofDigitChars 10 ds count) rest
  | [], _, _, _ => rfl
  | d :: ds, count, rest, h => by
    obtain ⟨hd, hds⟩ := List.forall_mem_cons.mp h
    rw [List.cons_append, readParts, lengthOf_digit hd, Nat.ofDigitChars_cons]
    exact readParts_digits ds _ rest hds

theorem Part.toList_text (p : Part) : p.text.toList = Nat.toDigits 10 p.count ++ p.unit.1.toList := by
  unfold Part.text
  rw [String.toList_append, Nat.toString_eq_ofList_toDigits, String.toList_ofList]

theorem readParts_part {p : Part} (h : p.unit ∈ spans) (rest : List Char) :
    readParts 0 (p.text.toList ++ rest) = p.seconds + readParts 0 rest := by
  rw [p.toList_text, List.append_assoc, readParts_digits _ _ _ fun c hc => Json.digits_isDigit hc,
    Nat.ofDigitChars_ten_toDigits]
  obtain ⟨unit, count⟩ := p
  simp only [spans, List.mem_cons, List.not_mem_nil, or_false] at h
  rcases h with rfl | rfl | rfl | rfl <;> simp [readParts, lengthOf?, Part.seconds]

theorem readParts_join : ∀ {parts : List Part}, (∀ p ∈ parts, p.unit ∈ spans) →
    readParts 0 (String.join (parts.map Part.text)).toList = (parts.map Part.seconds).sum
  | [], _ => rfl
  | p :: parts, h => by
    obtain ⟨hp, hparts⟩ := List.forall_mem_cons.mp h
    rw [List.map_cons, String.join_cons, String.toList_append, readParts_part hp, readParts_join hparts, List.map_cons,
      List.sum_cons]

theorem join_head (p : Part) (parts : List Part) :
    ∃ c tail, (String.join ((p :: parts).map Part.text)).toList = c :: tail ∧ c.isDigit = true := by
  obtain ⟨c, tail, htail, hc⟩ := Json.digits_cons p.count
  refine ⟨c, tail ++ p.unit.1.toList ++ (String.join (parts.map Part.text)).toList, ?_, hc⟩
  rw [List.map_cons, String.join_cons, String.toList_append, p.toList_text, htail]
  rfl

/-! ## Texts of durations -/

/-- What is told for some seconds. -/
inductive Told : Int → String → Prop
  | done : Told (-1) "Done"
  | unknown : Told (-2) "Unknown"
  | zero : Told 0 "0s"
  | parts {n : Int} {parts : List Part} : n ≠ -1 → n ≠ -2 → n ≠ 0 → parts ≠ [] → LastTogether parts n.natAbs →
      Told n ((if n < 0 then "-" else "") ++ String.join (parts.map Part.text))

theorem LastTogether.read {parts : List Part} {seconds : Nat} (h : LastTogether parts seconds) :
    readParts 0 (String.join (parts.map Part.text)).toList = seconds := by
  rw [readParts_join, h.total]
  intro p hp
  exact h.ordered.subset (List.mem_map_of_mem hp)

theorem Told.read {n : Int} {s : String} (h : Told n s) : readSeconds s = n := by
  cases h with
  | done | unknown | zero => rfl
  | @parts _ parts _ _ _ hne hparts =>
    have hread := hparts.read
    obtain ⟨p, rest, rfl⟩ := List.exists_cons_of_ne_nil hne
    obtain ⟨c, tail, htail, hc⟩ := join_head p rest
    rw [htail] at hread
    have hother : ∀ letter : Char, letter.isDigit = false → c ≠ letter :=
      fun _ hletter => (Json.digit_ne hc hletter).symm
    unfold readSeconds
    by_cases hn : n < 0
    · rw [if_pos hn, String.toList_append, htail]
      show -(readParts 0 (c :: tail) : Int) = n
      omega
    · rw [if_neg hn, String.toList_append, htail]
      show (if c = 'D' then -1 else if c = 'U' then -2 else if c = '-' then -(readParts 0 tail : Int)
        else readParts 0 (c :: tail)) = n
      rw [if_neg (hother 'D' rfl), if_neg (hother 'U' rfl), if_neg (hother '-' rfl)]
      omega

theorem durationText_told {n : Int} {d : Duration} (h : Duration.ofSeconds? n = some d) : Told n (durationText d) := by
  unfold durationText
  rw [Wire.duration_toSeconds h]
  dsimp only
  split
  · next hn => exact hn ▸ .done
  split
  · next hn => exact hn ▸ .unknown
  split
  · next hn => exact hn ▸ .zero
  · next hdone hunknown hzero =>
    have hparts := lastTogether_partsOf n.natAbs
    rw [spanTexts_eq]
    refine .parts hdone hunknown hzero (fun hnil => hzero ?_) hparts
    have htotal := hparts.total
    rw [hnil] at htotal
    exact Int.natAbs_eq_zero.mp htotal.symm

theorem seconds_told {n : Int} (hlow : -86399999913600 ≤ n) (hhigh : n ≤ 86399999999999) :
    ∃ d s, Duration.ofSeconds? n = some d ∧ duration (.duration d) = .ok s ∧ Told n s ∧ readSeconds s = n ∧
      ∀ n' d', Duration.ofSeconds? n' = some d' → duration (.duration d') = .ok s → n' = n := by
  have hd := Duration.ofSeconds_eq_some.mpr ⟨⟨hlow, hhigh⟩, rfl⟩
  have htold := durationText_told hd
  refine ⟨_, _, hd, rfl, htold, htold.read, fun n' d' hd' hs => ?_⟩
  have htold' := durationText_told hd'
  rw [Except.ok.inj hs] at htold'
  exact htold'.read.symm.trans htold.read

theorem seconds_told_sample : ∃ d, Duration.ofSeconds? (-93784) = some d ∧ duration (.duration d) = .ok "-1d2h3m4s" ∧
    Told (-93784) "-1d2h3m4s" ∧ ∀ n' d', Duration.ofSeconds? n' = some d' →
      duration (.duration d') = .ok "-1d2h3m4s" → n' = -93784 := by
  obtain ⟨d, s, hd, hs, htold, -, hunique⟩ := seconds_told (n := -93784) (by decide) (by decide)
  obtain rfl : s = "-1d2h3m4s" := by
    cases hd
    exact Except.ok.inj (hs.symm.trans (congrArg Except.ok (by decide +kernel)))
  exact ⟨d, hd, hs, htold, hunique⟩

end TorrentRemote.Display
