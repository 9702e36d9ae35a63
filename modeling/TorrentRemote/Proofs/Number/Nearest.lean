import TorrentRemote.Proofs.Number.Rounding

/-!
# The nearest binary number

A ratio is taken to a binary number that no other one is nearer to, whatever its size and its sign, as long as it is not
past the largest one: `ofRatio_isNearest`.
-/

namespace TorrentRemote

namespace Binary64

/-- How far a number is from a quotient, in units and over the denominator. -/
def distance (num : Int) (den : Nat) (x : Binary64) : Nat :=
  (x.signed * den - num * unitsPerOne).natAbs

structure IsNearest (num : Int) (den : Nat) (x : Binary64) : Prop where
  finite : x.isFinite = true
  nearest : ∀ y : Binary64, y.isFinite = true → x.distance num den ≤ y.distance num den

theorem roundQuotient_nearest {num den : Nat} (hden : 0 < den) (m : Nat) :
    ((roundQuotient num den * den : Nat) - num : Int).natAbs ≤ ((m * den : Nat) - num : Int).natAbs := by
  have hsplit := Nat.div_add_mod num den
  have hmod := Nat.mod_lt num hden
  rw [Nat.mul_comm] at hsplit
  have hside : m * den ≤ num / den * den ∨ num / den * den + den ≤ m * den := by
    by_cases hle : m ≤ num / den
    · exact .inl (Nat.mul_le_mul_right den hle)
    · have hmul : (num / den + 1) * den ≤ m * den := Nat.mul_le_mul_right den (by omega)
      rw [Nat.succ_mul] at hmul
      exact .inr hmul
  unfold roundQuotient
  dsimp only
  split
  · omega
  · rw [Nat.succ_mul]
    omega

/-! ## Magnitudes -/

/-- Magnitudes from a scale on are whole multiples of its step, and the others are below the first one of that scale. -/
theorem units_multiple (shift rank : Nat) :
    (∃ m, units rank = m * 2 ^ shift) ∨ units rank < binade * 2 ^ shift := by
  by_cases hsmall : rank < binade
  · by_cases hzero : shift = 0
    · subst hzero
      exact .inl ⟨units rank, (Nat.mul_one _).symm⟩
    · right
      rw [units, if_pos hsmall]
      exact Nat.lt_of_lt_of_le hsmall (Nat.le_mul_of_pos_right _ (Nat.two_pow_pos shift))
  · rw [units, if_neg hsmall, Nat.pow_eq]
    by_cases hscale : shift ≤ rank / binade - 1
    · obtain ⟨more, hmore⟩ := Nat.exists_eq_add_of_le hscale
      refine .inl ⟨(binade + rank % binade) * 2 ^ more, ?_⟩
      rw [hmore, Nat.pow_add, Nat.mul_comm (2 ^ shift), Nat.mul_assoc]
    · right
      have hdigits : binade + rank % binade < binade * 2 := by
        have hmod : rank % binade < binade := Nat.mod_lt _ (by decide)
        omega
      calc
        _ < binade * 2 * 2 ^ (rank / binade - 1) := Nat.mul_lt_mul_of_pos_right hdigits (Nat.two_pow_pos _)
        _ = binade * 2 ^ (rank / binade - 1 + 1) := by rw [Nat.pow_succ', Nat.mul_assoc]
        _ ≤ binade * 2 ^ shift := Nat.mul_le_mul_left _ (Nat.pow_le_pow_right (by decide) (by omega))

theorem units_nearestRank_nearest {num den : Nat} (hden : 0 < den) (rank : Nat) :
    ((units (nearestRank num den) * den : Nat) - (num * unitsPerOne : Nat) : Int).natAbs ≤
      ((units rank * den : Nat) - (num * unitsPerOne : Nat) : Int).natAbs := by
  rw [units_nearestRank hden]
  dsimp only
  generalize hscaled : num * unitsPerOne = scaled
  generalize hshift : (scaled / den).log2 - 52 = shift
  have hswap : ∀ m, m * 2 ^ shift * den = m * (den * 2 ^ shift) := by
    intro m
    rw [Nat.mul_assoc, Nat.mul_comm (2 ^ shift)]
  have hnearest : ∀ m, ((roundQuotient scaled (den * 2 ^ shift) * 2 ^ shift * den : Nat) - scaled : Int).natAbs ≤
      ((m * 2 ^ shift * den : Nat) - scaled : Int).natAbs := by
    intro m
    rw [hswap, hswap]
    exact roundQuotient_nearest (Nat.mul_pos hden (Nat.two_pow_pos shift)) m
  rcases units_multiple shift rank with ⟨m, hm⟩ | hlt
  · rw [hm]
    exact hnearest m
  · by_cases hzero : shift = 0
    · subst hzero
      simpa only [Nat.pow_zero, Nat.mul_one] using hnearest (units rank)
    · -- a magnitude of a smaller scale is farther away than the first one of this scale
      have hne : scaled / den ≠ 0 := by
        intro hnil
        rw [hnil, Nat.log2_zero] at hshift
        omega
      have hfirst : binade * 2 ^ shift * den ≤ scaled := by
        have hle : 2 ^ (52 + shift) ≤ scaled / den := by
          rw [show 52 + shift = (scaled / den).log2 by omega]
          exact Nat.log2_self_le hne
        rw [Nat.pow_add] at hle
        exact (Nat.le_div_iff_mul_le hden).mp hle
      have hbelow : units rank * den ≤ binade * 2 ^ shift * den := Nat.mul_le_mul_right den (Nat.le_of_lt hlt)
      have hle := hnearest binade
      omega

/-! ## Signed numbers -/

section
variable (num : Int) (den : Nat)

theorem distance_eq (negative : Bool) (rank : Fin (topRank + 1)) : (ranked negative rank).distance num den =
    ((if negative then -1 else 1) * (units rank.val * den : Nat) -
      (if num < 0 then -1 else 1) * (num.natAbs * unitsPerOne : Nat) : Int).natAbs := by
  have hnum : num = (if num < 0 then -1 else 1) * (num.natAbs : Int) := by
    by_cases hneg : num < 0
    · simp only [hneg, if_true]
      omega
    · simp only [hneg, if_false]
      omega
  have hsigned : (ranked negative rank).signed = (if negative then -1 else 1) * (units rank.val : Int) := by
    cases negative <;> simp [signed, isNegative, magnitude]
  unfold distance
  rw [hsigned, Int.natCast_mul, Int.natCast_mul, ← Int.mul_assoc, ← Int.mul_assoc, ← hnum]

theorem distance_same_sign (rank : Fin (topRank + 1)) : (ranked (decide (num < 0)) rank).distance num den =
    ((units rank.val * den : Nat) - (num.natAbs * unitsPerOne : Nat) : Int).natAbs := by
  rw [distance_eq]
  by_cases hneg : num < 0
  · simp only [hneg, decide_true, if_true]
    omega
  · simp only [hneg, decide_false, Bool.false_eq_true, if_false]
    omega

/-- A number of the other sign is not nearer than zero is. -/
theorem distance_other_sign (rank : Fin (topRank + 1)) :
    num.natAbs * unitsPerOne ≤ (ranked (!decide (num < 0)) rank).distance num den := by
  rw [distance_eq]
  by_cases hneg : num < 0
  · simp only [hneg, decide_true, Bool.not_true, Bool.false_eq_true, if_true, if_false]
    omega
  · simp only [hneg, decide_false, Bool.not_false, if_true, if_false]
    omega

end

theorem ofRatio_isNearest {num : Int} {den : Nat} (hden : 0 < den)
    (hfinite : (ofRatio (num < 0) num.natAbs den).isInfinite = false) :
    IsNearest num den (ofRatio (num < 0) num.natAbs den) := by
  obtain ⟨rank, hx, htop, hrank⟩ := ofRatio_finite hfinite
  have hle := @units_nearestRank_nearest num.natAbs den hden
  rw [← hrank] at hle
  rw [hx]
  constructor
  · have hlt := rank.isLt
    simp only [isFinite, decide_eq_true_eq]
    omega
  · intro y hy
    rw [distance_same_sign]
    cases y with
    | nan => cases hy
    | ranked negative other =>
      by_cases hsign : negative = decide (num < 0)
      · rw [hsign, distance_same_sign]
        exact hle other.val
      · have hother := distance_other_sign num den other
        rw [← Bool.eq_not_of_ne hsign] at hother
        have hzero := hle 0
        rw [show units 0 = 0 from if_pos (by decide), Nat.zero_mul] at hzero
        omega

end Binary64

end TorrentRemote
