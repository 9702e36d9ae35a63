import Mathlib.Algebra.Group.Nat.Defs
import TorrentRemote.Time.Duration

/-!
# Whole binary numbers

A whole number below 2^53 is a binary number as it is, so a count of seconds comes back from its
microseconds: `truncate_ofRatio_whole` and `wholeSeconds_mul`.
-/

namespace TorrentRemote

namespace Binary64

theorem log2_mul_two_pow {a : Nat} (h : a ≠ 0) (k : Nat) : (a * 2 ^ k).log2 = a.log2 + k := by
  have hpos : 0 < 2 ^ k := Nat.two_pow_pos k
  rw [Nat.log2_eq_iff (Nat.mul_ne_zero h (Nat.ne_of_gt hpos)), Nat.pow_add, Nat.add_right_comm, Nat.pow_add _ _ k]
  constructor
  · exact Nat.mul_le_mul_right _ (Nat.log2_self_le h)
  · exact Nat.mul_lt_mul_of_pos_right Nat.lt_log2_self hpos

theorem roundQuotient_mul (q : Nat) {den : Nat} (h : 0 < den) : roundQuotient (q * den) den = q := by
  unfold roundQuotient
  rw [Nat.mul_div_cancel _ h, Nat.mul_mod_left]
  simp [h]

/-- The rank of a magnitude from its scale and the binary digits at that scale. -/
theorem units_of_digits (shift : Nat) {q : Nat} (hlow : binade ≤ q) (hhigh : q < 2 * binade) :
    units (shift * binade + q) = q * 2 ^ shift := by
  have hpos : 0 < binade := Nat.two_pow_pos 52
  obtain ⟨r, rfl⟩ : ∃ r, q = binade + r := ⟨q - binade, by omega⟩
  have hr : r < binade := by omega
  have hrank : shift * binade + (binade + r) = (shift + 1) * binade + r := by rw [Nat.succ_mul, Nat.add_assoc]
  have hmod : ((shift + 1) * binade + r) % binade = r := by
    rw [Nat.add_comm, Nat.add_mul_mod_self_right, Nat.mod_eq_of_lt hr]
  have hdiv : ((shift + 1) * binade + r) / binade = shift + 1 := by
    rw [Nat.add_comm, Nat.add_mul_div_right _ _ hpos, Nat.div_eq_of_lt hr, Nat.zero_add]
  unfold units
  rw [hrank, hmod, hdiv, if_neg (by rw [Nat.succ_mul]; omega)]
  rfl

theorem unitsPerOne_eq {m n : Nat} (h : m + n = 1074) : unitsPerOne = 2 ^ m * 2 ^ n := by
  unfold unitsPerOne
  rw [← h]
  exact Nat.pow_add 2 m n

theorem unitsPerOne_pos : 0 < unitsPerOne := by decide +kernel

section
variable {a k : Nat} (hk : 0 < k)
include hk

theorem nearestRank_whole (ha : a ≠ 0) (hsmall : a < 2 ^ 53) :
    nearestRank (a * k) k = (a.log2 + 1022) * binade + a * 2 ^ (52 - a.log2) := by
  have hlog : a.log2 < 53 := (Nat.log2_lt ha).mpr hsmall
  have hunits := unitsPerOne_eq (show 52 - a.log2 + (a.log2 + 1022) = 1074 by omega)
  have hquotient : a * k * unitsPerOne / k = a * 2 ^ (52 - a.log2) * 2 ^ (a.log2 + 1022) := by
    rw [Nat.mul_right_comm, Nat.mul_div_cancel _ hk, hunits, Nat.mul_assoc]
  have hshift : (a * 2 ^ (52 - a.log2) * 2 ^ (a.log2 + 1022)).log2 - 52 = a.log2 + 1022 := by
    rw [Nat.mul_assoc, ← Nat.pow_add, log2_mul_two_pow ha]
    omega
  have hscaled : a * k * unitsPerOne = a * 2 ^ (52 - a.log2) * (k * 2 ^ (a.log2 + 1022)) := by
    rw [hunits, Nat.mul_mul_mul_comm]
  unfold nearestRank
  simp only [hquotient, hshift, Nat.pow_eq]
  rw [hscaled, roundQuotient_mul _ (Nat.mul_pos hk (Nat.two_pow_pos _))]

theorem units_nearestRank_whole (hsmall : a < 2 ^ 53) :
    nearestRank (a * k) k < topRank ∧ units (nearestRank (a * k) k) = a * unitsPerOne := by
  by_cases ha : a = 0
  · subst ha
    have hzero : nearestRank (0 * k) k = 0 := by simp [nearestRank, roundQuotient, hk]
    rw [hzero]
    exact ⟨by decide, by simp [units, binade]⟩
  · have hlog : a.log2 < 53 := (Nat.log2_lt ha).mpr hsmall
    have hlow : binade ≤ a * 2 ^ (52 - a.log2) := by
      have h := Nat.mul_le_mul_right (2 ^ (52 - a.log2)) (Nat.log2_self_le ha)
      rwa [← Nat.pow_add, show a.log2 + (52 - a.log2) = 52 by omega] at h
    have hhigh : a * 2 ^ (52 - a.log2) < 2 * binade := by
      have h := Nat.mul_lt_mul_of_pos_right (Nat.lt_log2_self (n := a)) (Nat.two_pow_pos (52 - a.log2))
      rwa [← Nat.pow_add, show a.log2 + 1 + (52 - a.log2) = 53 by omega] at h
    rw [nearestRank_whole hk ha hsmall]
    constructor
    · have h : (a.log2 + 1022) * binade ≤ 1074 * binade := Nat.mul_le_mul_right _ (by omega)
      unfold topRank
      omega
    · rw [units_of_digits _ hlow hhigh, Nat.mul_assoc, ← unitsPerOne_eq (by omega)]

theorem truncate_ofRatio_whole (negative : Bool) (hsmall : a < 2 ^ 53) :
    (ofRatio negative (a * k) k).truncate? = some (if negative then -(a : Int) else a) := by
  obtain ⟨htop, hunits⟩ := units_nearestRank_whole hk hsmall
  have hone : (0 : Int) < unitsPerOne := Int.natCast_pos.mpr unitsPerOne_pos
  unfold ofRatio ofRank
  rw [Nat.min_eq_left (Nat.le_of_lt htop)]
  have hval : (Fin.ofNat (topRank + 1) (nearestRank (a * k) k)).val = nearestRank (a * k) k :=
    Nat.mod_eq_of_lt (by omega)
  simp only [truncate?, isFinite, signed, isNegative, magnitude, hval, htop, hunits, decide_true, if_true]
  have hquotient : ((a * unitsPerOne : Nat) : Int).tdiv unitsPerOne = a := by
    rw [Int.natCast_mul, Int.mul_tdiv_cancel _ (Int.ne_of_gt hone)]
  cases negative with
  | false => simp only [Bool.false_eq_true, if_false, hquotient]
  | true => simp only [if_true, Int.neg_tdiv, hquotient]

end

end Binary64

theorem wholeSeconds_mul {n : Int} (h : n.natAbs < 2 ^ 53) : wholeSeconds (n * microsPerSecond) = n := by
  have hnatAbs : (n * microsPerSecond).natAbs = n.natAbs * microsPerSecond.natAbs := Int.natAbs_mul n _
  have hnegative : (n * microsPerSecond < 0) ↔ n < 0 := by unfold microsPerSecond; omega
  unfold wholeSeconds
  rw [hnatAbs, Binary64.truncate_ofRatio_whole (by decide) _ h]
  simp only [hnegative, decide_eq_true_eq, Option.getD_some]
  split <;> omega

end TorrentRemote
