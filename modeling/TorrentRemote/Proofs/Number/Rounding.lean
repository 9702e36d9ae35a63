import TorrentRemote.Proofs.Number.Whole

/-!
# Bounds on rounded numbers

A quotient is not rounded past a whole number that bounds it, and it is rounded up to an even one exactly from half a
step below it: `roundQuotient_le` and `le_roundQuotient_iff`. The binary number nearest to a quotient has the same
bound: `units_nearestRank_le`.
-/

namespace TorrentRemote

namespace Binary64

/-! ## Whole bounds -/

section
variable {num den m : Nat} (hden : 0 < den)
include hden

theorem roundQuotient_le (h : num ≤ m * den) : roundQuotient num den ≤ m := by
  have hsplit := Nat.div_add_mod num den
  have hquotient : num / den ≤ m := Nat.div_le_of_le_mul (by rwa [Nat.mul_comm])
  unfold roundQuotient
  dsimp only
  split
  · exact hquotient
  · next hup =>
    rcases Nat.lt_or_eq_of_le hquotient with hlt | heq
    · exact hlt
    · -- a quotient that is the bound has no remainder that could round up
      rw [heq, Nat.mul_comm] at hsplit
      omega

/-- A tie goes to an even number, so that half of a step below it is enough. -/
theorem le_roundQuotient_iff (heven : m % 2 = 0) : m ≤ roundQuotient num den ↔ 2 * (m * den) ≤ 2 * num + den := by
  have hsplit := Nat.div_add_mod num den
  have hmod := Nat.mod_lt num hden
  unfold roundQuotient
  dsimp only
  rcases Nat.lt_trichotomy (num / den + 1) m with hlt | heq | hgt
  · have hmul : (num / den + 2) * den ≤ m * den := Nat.mul_le_mul_right den hlt
    rw [Nat.add_mul, Nat.mul_comm (num / den)] at hmul
    split <;> omega
  · subst heq
    rw [Nat.add_mul, Nat.mul_comm (num / den)]
    split <;> omega
  · have hmul : m * den ≤ num / den * den := Nat.mul_le_mul_right den (Nat.le_of_lt_succ hgt)
    rw [Nat.mul_comm (num / den)] at hmul
    split <;> omega

end

/-- The rank that a scale and the digits at that scale give. Digits that round up to the next power of two have the
rank where the next scale starts. -/
theorem units_rank {shift q : Nat} (hlow : shift = 0 ∨ binade ≤ q) (hhigh : q ≤ 2 * binade) :
    units (shift * binade + q) = q * 2 ^ shift := by
  by_cases htop : q = 2 * binade
  · subst htop
    have hrank : shift * binade + 2 * binade = (shift + 1) * binade + binade := by
      rw [← Nat.add_mul, ← Nat.succ_mul]
    rw [hrank, units_of_digits (shift + 1) (Nat.le_refl _) (by decide), Nat.pow_succ, Nat.mul_comm (2 ^ shift),
      ← Nat.mul_assoc, Nat.mul_comm binade]
  · by_cases hsmall : q < binade
    · rcases hlow with rfl | hlow
      · rw [Nat.zero_mul, Nat.zero_add, Nat.pow_zero, Nat.mul_one, units, if_pos hsmall]
      · omega
    · exact units_of_digits shift (Nat.le_of_not_lt hsmall) (Nat.lt_of_le_of_ne hhigh htop)

section
variable {num den m : Nat} (hden : 0 < den)
include hden

/-- The binary number nearest to a quotient, from the scale where the quotient has 53 binary digits. -/
theorem units_nearestRank : units (nearestRank num den) =
    let shift := (num * unitsPerOne / den).log2 - 52
    roundQuotient (num * unitsPerOne) (den * 2 ^ shift) * 2 ^ shift := by
  generalize hscaled : num * unitsPerOne = scaled
  generalize hshift : (scaled / den).log2 - 52 = shift
  have hpos : 0 < den * 2 ^ shift := Nat.mul_pos hden (Nat.two_pow_pos shift)
  have hhigh : roundQuotient scaled (den * 2 ^ shift) ≤ 2 * binade := by
    have hlt : scaled / den < 2 ^ (shift + 53) :=
      Nat.lt_of_lt_of_le Nat.lt_log2_self (Nat.pow_le_pow_right (by decide) (by omega))
    rw [Nat.div_lt_iff_lt_mul hden, Nat.pow_add, Nat.mul_comm (2 ^ shift), Nat.mul_assoc, Nat.mul_comm _ den] at hlt
    exact roundQuotient_le hpos (Nat.le_of_lt hlt)
  have hlow : shift = 0 ∨ binade ≤ roundQuotient scaled (den * 2 ^ shift) := by
    by_cases hzero : shift = 0
    · exact .inl hzero
    · have hne : scaled / den ≠ 0 := by
        intro hnil
        rw [hnil, Nat.log2_zero] at hshift
        omega
      have hle : 2 ^ (shift + 52) ≤ scaled / den := by
        rw [show shift + 52 = (scaled / den).log2 by omega]
        exact Nat.log2_self_le hne
      have hscale : binade * (den * 2 ^ shift) ≤ scaled := by
        rw [Nat.pow_add] at hle
        rw [Nat.mul_comm den, ← Nat.mul_assoc, Nat.mul_comm binade]
        exact (Nat.le_div_iff_mul_le hden).mp hle
      exact .inr ((le_roundQuotient_iff hpos (by decide)).mpr (by omega))
  unfold nearestRank
  simp only [hscaled, hshift, Nat.pow_eq]
  exact units_rank hlow hhigh

/-- A quotient is not rounded past a whole number that is itself a binary number. -/
theorem units_nearestRank_le (h : num ≤ m * den) (hm : m < 2 ^ 53) : units (nearestRank num den) ≤ m * unitsPerOne := by
  rw [units_nearestRank hden]
  dsimp only
  generalize hshift : (num * unitsPerOne / den).log2 - 52 = shift
  have hle : shift ≤ 1074 := by
    obtain ⟨e, he, hone⟩ : ∃ e, e = 1074 ∧ unitsPerOne = 2 ^ e := by
      refine ⟨1074, rfl, ?_⟩
      rw [unitsPerOne_eq (Nat.zero_add 1074), Nat.pow_zero, Nat.one_mul]
    have hlt : num * unitsPerOne / den < 2 ^ (53 + e) := by
      rw [Nat.div_lt_iff_lt_mul hden, Nat.pow_add, Nat.mul_right_comm, ← hone]
      refine Nat.mul_lt_mul_of_pos_right (Nat.lt_of_le_of_lt h ?_) unitsPerOne_pos
      exact Nat.mul_lt_mul_of_pos_right hm hden
    by_cases hne : num * unitsPerOne / den = 0
    · rw [hne, Nat.log2_zero] at hshift
      omega
    · have hlog := (Nat.log2_lt hne).mpr hlt
      omega
  obtain ⟨rest, hrest⟩ := Nat.exists_eq_add_of_le hle
  have hunits : unitsPerOne = 2 ^ rest * 2 ^ shift := unitsPerOne_eq (by omega)
  have hbound : num * unitsPerOne ≤ m * 2 ^ rest * (den * 2 ^ shift) := by
    rw [Nat.mul_mul_mul_comm, ← hunits]
    exact Nat.mul_le_mul_right _ h
  have hround := roundQuotient_le (Nat.mul_pos hden (Nat.two_pow_pos shift)) hbound
  calc
    _ ≤ m * 2 ^ rest * 2 ^ shift := Nat.mul_le_mul_right _ hround
    _ = m * unitsPerOne := by rw [hunits, Nat.mul_assoc]

end

theorem ofRatio_finite {negative : Bool} {num den : Nat} (h : (ofRatio negative num den).isInfinite = false) :
    ∃ rank : Fin (topRank + 1), ofRatio negative num den = .ranked negative rank ∧ rank.val ≠ topRank ∧
      rank.val = nearestRank num den := by
  have hval : (Fin.ofNat (topRank + 1) (min (nearestRank num den) topRank)).val = min (nearestRank num den) topRank :=
    Nat.mod_eq_of_lt (by omega)
  have hne : min (nearestRank num den) topRank ≠ topRank := by
    rw [← hval]
    exact of_decide_eq_false h
  exact ⟨_, rfl, by rwa [hval], by omega⟩

end Binary64

end TorrentRemote
