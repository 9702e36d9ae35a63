import TorrentRemote.Display
import TorrentRemote.Proofs.Number.Places
import TorrentRemote.Proofs.Number.Rounding
import TorrentRemote.Proofs.Value.Shown

/-!
# Sizes in units

A size is shown in the largest unit that gives at least one of it, and rounded after that. The rounded number is never
more than the base, but it is the base where the quotient is less than half of the last place below it: `size_shown`.
-/

namespace TorrentRemote

namespace Display

/-! ## Units -/

section
variable {base : Nat}

theorem climb_le : ∀ (limit n : Nat), climb base limit n ≤ limit
  | 0, _ => Nat.le_refl 0
  | limit + 1, n => by
    unfold climb
    split
    · exact Nat.zero_le _
    · exact Nat.succ_le_succ (climb_le limit _)

theorem pow_climb_le (hbase : 0 < base) : ∀ (limit : Nat) {n : Nat}, 0 < n → base ^ climb base limit n ≤ n
  | 0, _, hn => hn
  | limit + 1, n, hn => by
    unfold climb
    split
    · exact hn
    · next hle =>
      have hrest := pow_climb_le hbase limit (Nat.div_pos (Nat.le_of_not_lt hle) hbase)
      rw [Nat.pow_succ]
      exact (Nat.le_div_iff_mul_le hbase).mp hrest

theorem lt_pow_climb (hbase : 0 < base) : ∀ {limit n : Nat}, climb base limit n < limit →
    n < base ^ (climb base limit n + 1)
  | 0, _, h => absurd h (Nat.not_lt_zero _)
  | limit + 1, n, h => by
    unfold climb at h ⊢
    split at h
    · next hlt =>
      rw [if_pos hlt, Nat.zero_add, Nat.pow_one]
      exact hlt
    · next hle =>
      rw [if_neg hle, Nat.pow_succ]
      exact (Nat.div_lt_iff_lt_mul hbase).mp (lt_pow_climb hbase (Nat.lt_of_succ_lt_succ h))

end

namespace Units

structure IsFamily (u : Units) : Prop where
  positive : 0 < u.base
  even : u.base % 2 = 0
  small : u.base < 2 ^ 53
  letters : 0 < u.letters.length

theorem binaryUnits_isFamily : binaryUnits.IsFamily :=
  ⟨by decide, rfl, by decide, by decide⟩

theorem decimalUnits_isFamily : decimalUnits.IsFamily :=
  ⟨by decide, rfl, by decide, by decide⟩

/-- A count is at least one of a unit, and less than one of the next if there is a next one. -/
structure IsIndex (u : Units) (count index : Nat) : Prop where
  inside : index < u.letters.length
  reached : u.base ^ (index + 1) ≤ count
  ended : index + 1 < u.letters.length → count < u.base ^ (index + 2)

theorem IsFamily.indexFor {u : Units} (hu : u.IsFamily) {count : Nat} (hcount : u.base ≤ count) :
    u.IsIndex count (u.indexFor count) where
  inside := by
    have hle : climb u.base (u.letters.length - 1) (count / u.base) ≤ u.letters.length - 1 := climb_le _ _
    have hletters := hu.letters
    unfold Units.indexFor
    omega
  reached := by
    rw [Nat.pow_succ]
    exact (Nat.le_div_iff_mul_le hu.positive).mp
      (pow_climb_le hu.positive _ (Nat.div_pos hcount hu.positive))
  ended := by
    intro hnext
    unfold Units.indexFor at hnext
    rw [Nat.pow_succ]
    exact (Nat.div_lt_iff_lt_mul hu.positive).mp (lt_pow_climb hu.positive (by omega))

def quotient (u : Units) (count : Int) (index : Nat) : Binary64 :=
  Binary64.ofRatio (count < 0) count.natAbs (u.base ^ (index + 1))

/-- A quotient lies more than half of the last place below the base. -/
def FallsShort (u : Units) (places : Nat) (x : Binary64) : Prop :=
  2 * (x.magnitude * 10 ^ places) + Binary64.unitsPerOne < 2 * (u.base * 10 ^ places * Binary64.unitsPerOne)

end Units

/-- The text of a size. The digits are those of the whole number of last places. -/
inductive SizeShown (u : Units) (count : Int) (places : Nat) (suffix : String) : String → Prop
  | bytes : count.natAbs < u.base → SizeShown u count places suffix (toString count ++ " B" ++ suffix)
  | scaled {index digits : Nat} {number : String} : u.IsIndex count.natAbs index →
      Binary64.Reads number places digits →
      (index + 1 < u.letters.length → digits ≤ u.base * 10 ^ places ∧
        (digits < u.base * 10 ^ places ↔ u.FallsShort places (u.quotient count index))) →
      SizeShown u count places suffix ((if count < 0 then "-" else "") ++ number ++ " " ++
        String.ofList [u.letters.getD index ' '] ++ u.ending ++ suffix)

theorem layoutOf_ok {places : Value} {l : FixedLayout} (h : layoutOf places = .ok l) :
    FixedLayout.ofPlaces places.plain = .ok l := by
  obtain ⟨text, htext, h⟩ := bind_ok h
  rw [← (Value.toText_ok.mp htext).2]
  exact mapError_ok h

theorem Units.label_ok_iff {u : Units} {layout : Except Failure FixedLayout} {suffix : Value} {index : Nat}
    {x : Binary64}
    {s : String} : u.label layout suffix.toText index x = .ok s ↔ suffix.hasText = true ∧ ∃ l, layout = .ok l ∧
      s = l.set x ++ " " ++ String.ofList [u.letters.getD index ' '] ++ u.ending ++ suffix.plain := by
  constructor
  · intro h
    obtain ⟨l, hl, h⟩ := bind_ok h
    obtain ⟨t, ht, h⟩ := bind_ok h
    obtain ⟨hsuffix, rfl⟩ := Value.toText_ok.mp ht
    exact ⟨hsuffix, l, hl, (Except.ok.inj h).symm⟩
  · rintro ⟨hsuffix, l, rfl, rfl⟩
    rw [label, Value.toText_ok.mpr ⟨hsuffix, rfl⟩]
    rfl

section
variable {u : Units} (hu : u.IsFamily) {count : Int} {places index : Nat} {s : String}
include hu

/-- The base is a whole number, so that neither rounding goes past it. -/
theorem rounded_bounds {x : Binary64} {num den : Nat} (hden : 0 < den)
    (hx : x.magnitude = Binary64.units (Binary64.nearestRank num den)) (hle : num ≤ u.base * den) :
    x.lastPlaces places ≤ u.base * 10 ^ places ∧
      (x.lastPlaces places < u.base * 10 ^ places ↔ u.FallsShort places x) := by
  have hone := Binary64.unitsPerOne_pos
  have hmagnitude : x.magnitude ≤ u.base * Binary64.unitsPerOne := by
    rw [hx]
    exact Binary64.units_nearestRank_le hden hle hu.small
  have hbound : x.magnitude * 10 ^ places ≤ u.base * 10 ^ places * Binary64.unitsPerOne := by
    rw [Nat.mul_right_comm]
    exact Nat.mul_le_mul_right _ hmagnitude
  have hdigits : u.base * 10 ^ places % 2 = 0 := by
    rw [Nat.mul_mod, hu.even, Nat.zero_mul, Nat.zero_mod]
  refine ⟨Binary64.roundQuotient_le hone hbound, ?_⟩
  rw [← Nat.not_le]
  exact (not_congr (Binary64.le_roundQuotient_iff hone hdigits)).trans Nat.not_le

theorem label_shown {suffix : Value} (hindex : u.IsIndex count.natAbs index)
    (hfinite : (u.quotient count index).isInfinite = false)
    (h : u.label (layoutOf (.int places)) suffix.toText index (u.quotient count index) = .ok s) :
    SizeShown u count places suffix.plain s := by
  have hden : 0 < u.base ^ (index + 1) := Nat.pow_pos hu.positive
  obtain ⟨-, l, hl, hlabel⟩ := Units.label_ok_iff.mp h
  cases FixedLayout.ofPlaces_ok (layoutOf_ok hl)
  rw [hlabel]
  obtain ⟨rank, hx, htop, hrank⟩ := Binary64.ofRatio_finite hfinite
  have hquotient : u.quotient count index = .ranked (decide (count < 0)) rank := hx
  rw [hquotient, FixedLayout.set_finite places htop]
  simp only [decide_eq_true_eq]
  refine .scaled hindex (Binary64.reads_placed places _) fun hnext => ?_
  rw [hquotient]
  refine rounded_bounds hu hden (congrArg Binary64.units hrank) ?_
  have hended := hindex.ended hnext
  rw [Nat.pow_succ, Nat.mul_comm] at hended
  exact Nat.le_of_lt hended

theorem sizeText_shown {suffix : Value} (h : sizeText u (layoutOf (.int places)) suffix.toText count = .ok s) :
    SizeShown u count places suffix.plain s := by
  unfold sizeText at h
  split at h
  · next hlt =>
    obtain ⟨t, ht, rfl⟩ := map_ok h
    rw [(Value.toText_ok.mp ht).2]
    exact .bytes hlt
  · next hle =>
    dsimp only at h
    split at h
    · cases h
    · next hfinite =>
      exact label_shown hu (hu.indexFor (Nat.le_of_not_lt hle)) (eq_false_of_ne_true hfinite) h

end

def unitsFor (binary : Value) : Units :=
  if binary.isTrue then binaryUnits else decimalUnits

theorem size_shown {binary suffix : Value} {count : Int} {places : Nat} {s : String}
    (h : size { binary, places := .int places, suffix } (.int count) = .ok s) :
    SizeShown (unitsFor binary) count places suffix.plain s := by
  have hu : (unitsFor binary).IsFamily := by
    unfold unitsFor
    split
    · exact Units.binaryUnits_isFamily
    · exact Units.decimalUnits_isFamily
  obtain ⟨-, -, h⟩ := bind_ok h
  exact sizeText_shown hu h

theorem size_shown_short : size {} (.int (-1048570)) = .ok "-1023.99 KiB" ∧
    SizeShown binaryUnits (-1048570) 2 "" "-1023.99 KiB" := by
  have hsize : size {} (.int (-1048570)) = .ok "-1023.99 KiB" := ok_of_toOption (by decide +kernel)
  exact ⟨hsize, @size_shown _ _ _ 2 _ hsize⟩

/-- The base of a unit is shown, though there is a larger unit. -/
theorem base_shown : size {} (.int 1048575) = .ok "1024.00 KiB" ∧ Binary64.Reads "1024.00" 2 102400 ∧
    ¬ 102400 < binaryUnits.base * 10 ^ 2 ∧ binaryUnits.letters[1]? = some 'M' := by
  have hnumber : Binary64.placed 2 102400 = "1024.00" := by decide +kernel
  refine ⟨ok_of_toOption (by decide +kernel), hnumber ▸ Binary64.reads_placed 2 102400, by decide, rfl⟩

end Display

end TorrentRemote
