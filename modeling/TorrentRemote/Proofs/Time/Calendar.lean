import Mathlib.Data.Int.Init
import TorrentRemote.Time.Calendar

/-!
# Dates and their numbers

Dates are numbered in the order of the calendar (`before_iff`), and the date of a number stands in the calendar and
has that number (`ofDays_isGregorian`, `toDays_ofDays`).
-/

namespace TorrentRemote.Date

/-! ## The calendar -/

def IsLeap (year : Int) : Prop := 4 ∣ year ∧ (100 ∣ year → 400 ∣ year)

instance (year : Int) : Decidable (IsLeap year) :=
  inferInstanceAs (Decidable (_ ∧ _))

def monthLength (year : Int) (month : Nat) : Nat :=
  if month = 2 then (if IsLeap year then 29 else 28)
  else if month = 4 ∨ month = 6 ∨ month = 9 ∨ month = 11 then 30
  else 31

/-- A date that stands in the calendar. -/
structure IsGregorian (d : Date) : Prop where
  month_pos : 1 ≤ d.month
  month_le : d.month ≤ 12
  day_pos : 1 ≤ d.day
  day_le : d.day ≤ monthLength d.year d.month

def Before (d e : Date) : Prop :=
  d.year < e.year ∨ d.year = e.year ∧ (d.month < e.month ∨ d.month = e.month ∧ d.day < e.day)

theorem monthLength_pos (year : Int) (month : Nat) : 28 ≤ monthLength year month := by
  unfold monthLength
  split
  · split <;> omega
  · split <;> omega

/-! ## Numbers of dates -/

theorem marchDay_eq (year : Int) : marchDay year = 365 * year + year / 4 - year / 100 + year / 400 := by
  simp [marchDay, Int.fdiv_eq_ediv_of_nonneg]

theorem marchDay_leap (year : Int) :
    marchDay year = marchDay (year - 1) + 365 + (if IsLeap year then 1 else 0) := by
  simp only [marchDay_eq]
  by_cases h : IsLeap year
  · simp only [h, if_true]
    unfold IsLeap at h
    omega
  · simp only [h, if_false]
    unfold IsLeap at h
    omega

def daysBefore (year : Int) (month : Nat) : Int := toDays ⟨year, month, 0⟩

theorem toDays_eq (d : Date) : d.toDays = daysBefore d.year d.month + d.day := by
  simp only [daysBefore, toDays]
  omega

theorem month_cases {month : Nat} (hpos : 1 ≤ month) (hle : month ≤ 12) :
    month = 1 ∨ month = 2 ∨ month = 3 ∨ month = 4 ∨ month = 5 ∨ month = 6 ∨ month = 7 ∨ month = 8 ∨
      month = 9 ∨ month = 10 ∨ month = 11 ∨ month = 12 := by
  omega

/-- Each month starts where the one before it ends. -/
theorem daysBefore_next (year : Int) (month : Nat) (hpos : 1 ≤ month) (hle : month ≤ 12) :
    daysBefore year month + monthLength year month =
      if month = 12 then daysBefore (year + 1) 1 else daysBefore year (month + 1) := by
  have hleap := marchDay_leap year
  rcases month_cases hpos hle with rfl | rfl | rfl | rfl | rfl | rfl | rfl | rfl | rfl | rfl | rfl | rfl
  -- the years counted from March meet at the end of February
  case inr.inl =>
    by_cases h : IsLeap year
    · simp [daysBefore, toDays, monthLength, h] at hleap ⊢
      omega
    · simp [daysBefore, toDays, monthLength, h] at hleap ⊢
      omega
  all_goals
    simp [daysBefore, toDays, monthLength]
    omega

/-! ## Order -/

theorem daysBefore_month (year : Int) {month later : Nat} (hpos : 1 ≤ month) (h : month < later) (hle : later ≤ 12) :
    daysBefore year month + monthLength year month ≤ daysBefore year later := by
  induction later with
  | zero => omega
  | succ later ih =>
    by_cases heq : month = later
    · subst heq
      have hnext := daysBefore_next year month hpos (by omega)
      rw [if_neg (by omega)] at hnext
      exact Int.le_of_eq hnext
    · have hnext := daysBefore_next year later (by omega) (by omega)
      rw [if_neg (by omega)] at hnext
      have := ih (by omega) (by omega)
      omega

theorem daysBefore_newYear (year : Int) : daysBefore (year + 1) 1 = daysBefore year 12 + 31 := by
  have hnext := daysBefore_next year 12 (by omega) (by omega)
  rw [if_pos rfl] at hnext
  rw [← hnext]
  simp [monthLength]

theorem daysBefore_year {year later : Int} (h : year ≤ later) : daysBefore year 1 ≤ daysBefore later 1 := by
  induction later, h using Int.leInduction with
  | base => exact Int.le_refl _
  | succ later _ ih =>
    have hmonths := daysBefore_month later (Nat.le_refl 1) (show 1 < 12 by omega) (Nat.le_refl 12)
    have hyear := daysBefore_newYear later
    omega

theorem daysBefore_later {year later : Int} {month : Nat} (hpos : 1 ≤ month) (hle : month ≤ 12) (h : year < later) :
    daysBefore year month + monthLength year month ≤ daysBefore later 1 := by
  have hyear := daysBefore_year (show year + 1 ≤ later by omega)
  rw [daysBefore_newYear] at hyear
  by_cases heq : month = 12
  · subst heq
    simp [monthLength]
    omega
  · have := daysBefore_month year hpos (show month < 12 by omega) (by omega)
    omega

theorem daysBefore_first (year : Int) {month : Nat} (hpos : 1 ≤ month) (hle : month ≤ 12) :
    daysBefore year 1 ≤ daysBefore year month := by
  by_cases h : 1 < month
  · have := daysBefore_month year (Nat.le_refl 1) h hle
    omega
  · obtain rfl : month = 1 := by omega
    exact Int.le_refl _

theorem le_year_iff {d : Date} (hd : d.IsGregorian) (year : Int) : year ≤ d.year ↔ daysBefore year 1 < d.toDays := by
  obtain ⟨hpos, hle, hday, hlast⟩ := hd
  rw [toDays_eq]
  by_cases h : year ≤ d.year
  · have hyear := daysBefore_year h
    have hmonth := daysBefore_first d.year hpos hle
    simp only [h, true_iff]
    omega
  · have hlater := daysBefore_later hpos hle (show d.year < year by omega)
    simp only [h, false_iff]
    omega

section
variable {d e : Date} (hd : d.IsGregorian) (he : e.IsGregorian)
include hd he

theorem toDays_lt (h : d.Before e) : d.toDays < e.toDays := by
  obtain ⟨hpos, hle, -, hday⟩ := hd
  obtain ⟨hpos', hle', hday', -⟩ := he
  rw [toDays_eq, toDays_eq]
  rcases h with h | ⟨hyear, h | ⟨hmonth, h⟩⟩
  · have hlater := daysBefore_later hpos hle h
    have hmonth := daysBefore_first e.year hpos' hle'
    omega
  · have := daysBefore_month d.year hpos h hle'
    rw [← hyear]
    omega
  · rw [hyear, hmonth]
    omega

theorem before_iff : d.Before e ↔ d.toDays < e.toDays := by
  refine ⟨toDays_lt hd he, fun h => ?_⟩
  by_cases heq : d = e
  · rw [heq] at h
    omega
  · have hother : d.Before e ∨ e.Before d := by
      obtain ⟨year, month, day⟩ := d
      obtain ⟨year', month', day'⟩ := e
      simp only [Before, Date.mk.injEq] at heq ⊢
      omega
    rcases hother with hb | hb
    · exact hb
    · have := toDays_lt he hd hb
      omega

theorem toDays_inj (h : d.toDays = e.toDays) : d = e := by
  have hbefore := mt (toDays_lt hd he) (by omega)
  have hafter := mt (toDays_lt he hd) (by omega)
  obtain ⟨year, month, day⟩ := d
  obtain ⟨year', month', day'⟩ := e
  simp only [Before, Date.mk.injEq] at hbefore hafter ⊢
  omega

end

/-! ## Days of an era -/

/-- A day of four hundred years by centuries, spans of four years, years and days. The last century and the last year
of a span have a day more. -/
structure EraDay (n century span year day : Nat) : Prop where
  number : n = 36524 * century + (1461 * span + (365 * year + day))
  century_le : century ≤ 3
  year_le : year ≤ 3
  span_lt : 1461 * span + (365 * year + day) < 36524 ∨ 1461 * span + (365 * year + day) = 36524 ∧ century = 3
  day_lt : day < 365 ∨ day = 365 ∧ year = 3

theorem eraDay_exists {n : Nat} (h : n < eraDays) : ∃ century span year day, EraDay n century span year day := by
  unfold eraDays at h
  obtain ⟨century, inCentury, hc, hn, hcentury⟩ : ∃ century inCentury, century ≤ 3 ∧
      n = 36524 * century + inCentury ∧ (inCentury < 36524 ∨ inCentury = 36524 ∧ century = 3) :=
    ⟨min (n / 36524) 3, n - 36524 * min (n / 36524) 3, by omega⟩
  obtain ⟨span, inSpan, hs, hspan⟩ : ∃ span inSpan, inCentury = 1461 * span + inSpan ∧ inSpan < 1461 :=
    ⟨inCentury / 1461, inCentury % 1461, by omega⟩
  obtain ⟨year, day, hy, hyear, hday⟩ : ∃ year day, year ≤ 3 ∧ inSpan = 365 * year + day ∧
      (day < 365 ∨ day = 365 ∧ year = 3) :=
    ⟨min (inSpan / 365) 3, inSpan - 365 * min (inSpan / 365) 3, by omega⟩
  subst hs hyear
  exact ⟨century, span, year, day, hn, hc, hy, hcentury, hday⟩

namespace EraDay

section
variable {n century span year day : Nat} (h : EraDay n century span year day)
include h

theorem number_lt : n < eraDays := by
  obtain ⟨hn, hc, -, hs, -⟩ := h
  unfold eraDays
  omega

theorem span_le : span ≤ 24 := by
  obtain ⟨-, -, -, hs, -⟩ := h
  omega

theorem day_le : day ≤ 365 := by
  have := h.day_lt
  omega

theorem century_eq : n / 36524 = century + n / 146096 := by
  have hlt := h.number_lt
  unfold eraDays at hlt
  obtain ⟨hn, hc, -, hs, -⟩ := h
  by_cases hlast : n = 146096
  · subst hlast
    omega
  · have hlow : 36524 * century ≤ n := by omega
    have hhigh : n < 36524 * (century + 1) := by omega
    clear hn hs
    omega

/-- Quarters of 1460 days run ahead of the spans, and at most one more of them is full. -/
theorem quarter_eq : ∃ late, n / 1460 = 25 * century + span + late ∧ late ≤ day ∧ day < 365 + late := by
  have hspan := h.span_le
  obtain ⟨hn, hc, hy, hs, hd⟩ := h
  by_cases hlate : 24 * century + span + 365 * year + day < 1460
  · exact ⟨0, by omega, by omega, by omega⟩
  · exact ⟨1, by omega, by omega, by omega⟩

theorem year_eq : (n - n / 1460 + n / 36524 - n / 146096) / 365 = 100 * century + 4 * span + year := by
  obtain ⟨late, hquarter, hlate, hday⟩ := h.quarter_eq
  have hn := h.number
  rw [h.century_eq, hquarter]
  generalize n / 146096 = last
  exact Nat.div_eq_of_lt_le (by omega) (by omega)

theorem day_eq : n - (365 * (100 * century + 4 * span + year) + (100 * century + 4 * span + year) / 4 -
    (100 * century + 4 * span + year) / 100) = day := by
  have hspan := h.span_le
  obtain ⟨hn, hc, hy, -, -⟩ := h
  have hquarter : (100 * century + 4 * span + year) / 4 = 25 * century + span := by omega
  have hcentury : (100 * century + 4 * span + year) / 100 = century := by omega
  rw [hquarter, hcentury]
  omega

theorem march_eq (era : Int) :
    marchDay (era * 400 + (100 * century + 4 * span + year : Nat)) + day = era * eraDays + n := by
  have hspan := h.span_le
  obtain ⟨hn, hc, hy, -, -⟩ := h
  have hquarter : (era * 400 + (100 * century + 4 * span + year : Nat)) / 4 = era * 100 + 25 * century + span := by
    omega
  have hcentury : (era * 400 + (100 * century + 4 * span + year : Nat)) / 100 = era * 4 + century := by omega
  have hera : (era * 400 + (100 * century + 4 * span + year : Nat)) / 400 = era := by omega
  rw [marchDay_eq, hquarter, hcentury, hera]
  unfold eraDays
  omega

/-- A year with a day more ends in the February of a leap year. -/
theorem leap_of_long (hday : day = 365) (era : Int) :
    IsLeap (era * 400 + (100 * century + 4 * span + year : Nat) + 1) := by
  have hspan := h.span_le
  obtain ⟨-, hc, hy, hs, hd⟩ := h
  have hyear : year = 3 := by omega
  have hlast : span = 24 → century = 3 := by omega
  subst hyear
  clear hs hd
  unfold IsLeap
  refine ⟨by omega, fun h100 => ?_⟩
  have hcentury := hlast (by omega)
  omega

theorem ofDays_eq (era : Int) : ofDays (era * eraDays + n - 719468) =
    let fromMarch := (5 * day + 2) / 153
    let month := if fromMarch < 10 then fromMarch + 3 else fromMarch - 9
    let year : Int := era * 400 + (100 * century + 4 * span + year : Nat)
    { year := if month ≤ 2 then year + 1 else year
      month
      day := day - (153 * fromMarch + 2) / 5 + 1 } := by
  have hn := h.number_lt
  unfold eraDays at hn
  have hera : (era * eraDays + n - 719468 + 719468).fdiv eraDays = era := by
    rw [Int.fdiv_eq_ediv_of_nonneg _ (by decide)]
    unfold eraDays
    omega
  have hday : ((era * eraDays + n - 719468 + 719468).fmod eraDays).toNat = n := by
    rw [Int.fmod_eq_emod_of_nonneg _ (by decide)]
    unfold eraDays
    omega
  unfold ofDays
  simp only [hera, hday, h.year_eq, h.day_eq]

end

end EraDay

/-! ## Months of a year counted from March -/

theorem month_of_day {day fromMarch : Nat} (h : day ≤ 365) (hm : (5 * day + 2) / 153 = fromMarch) :
    fromMarch ≤ 11 ∧ (153 * fromMarch + 2) / 5 ≤ day ∧ day < (153 * (fromMarch + 1) + 2) / 5 := by
  omega

theorem monthLength_fromMarch {fromMarch : Nat} (h : fromMarch ≤ 10) (year : Int) :
    monthLength year (if fromMarch < 10 then fromMarch + 3 else fromMarch - 9) =
      (153 * (fromMarch + 1) + 2) / 5 - (153 * fromMarch + 2) / 5 := by
  rcases month_cases (Nat.le_add_left 1 fromMarch) (show fromMarch + 1 ≤ 12 by omega) with
    h | h | h | h | h | h | h | h | h | h | h | h
  all_goals
    obtain rfl := Nat.succ.inj h
    simp [monthLength] at *

/-! ## Dates of numbers -/

theorem ofDays_cases (n : Int) : ∃ era m century span year day,
    n = era * eraDays + (m : Nat) - 719468 ∧ EraDay m century span year day := by
  have hpos : (0 : Int) < eraDays := by decide
  have hnonneg := Int.emod_nonneg (n + 719468) (Int.ne_of_gt hpos)
  have hlt := Int.emod_lt_of_pos (n + 719468) hpos
  obtain ⟨century, span, year, day, h⟩ :=
    eraDay_exists (n := ((n + 719468) % eraDays).toNat) (by omega)
  have hsum := Int.mul_ediv_add_emod (n + 719468) eraDays
  rw [Int.mul_comm] at hsum
  exact ⟨(n + 719468) / eraDays, _, century, span, year, day, by omega, h⟩

theorem toDays_ofDays (n : Int) : (ofDays n).toDays = n := by
  obtain ⟨era, m, century, span, year, day, rfl, h⟩ := ofDays_cases n
  have hmarch := h.march_eq era
  rw [h.ofDays_eq]
  obtain ⟨fromMarch, hm⟩ : ∃ fromMarch, (5 * day + 2) / 153 = fromMarch := ⟨_, rfl⟩
  obtain ⟨hle, hlow, -⟩ := month_of_day h.day_le hm
  simp only [hm, toDays]
  by_cases hlate : fromMarch < 10
  · have hmonth : (fromMarch + 3 + 9) % 12 = fromMarch := by omega
    simp only [hlate, if_true, hmonth, if_neg (show ¬ fromMarch + 3 ≤ 2 by omega)]
    omega
  · have hmonth : (fromMarch - 9 + 9) % 12 = fromMarch := by omega
    simp only [hlate, if_false, hmonth, if_pos (show fromMarch - 9 ≤ 2 by omega), Int.add_sub_cancel]
    omega

theorem ofDays_isGregorian (n : Int) : (ofDays n).IsGregorian := by
  obtain ⟨era, m, century, span, year, day, rfl, h⟩ := ofDays_cases n
  have hleap := fun hday => h.leap_of_long hday era
  rw [h.ofDays_eq]
  generalize era * 400 + ((100 * century + 4 * span + year : Nat) : Int) = marchYear at hleap ⊢
  obtain ⟨fromMarch, hm⟩ : ∃ fromMarch, (5 * day + 2) / 153 = fromMarch := ⟨_, rfl⟩
  obtain ⟨hle, hlow, hhigh⟩ := month_of_day h.day_le hm
  simp only [hm]
  refine ⟨?_, ?_, Nat.le_add_left _ _, ?_⟩
  · dsimp only
    split <;> omega
  · dsimp only
    split <;> omega
  · dsimp only
    by_cases hlast : fromMarch = 11
    · subst hlast
      by_cases hday : day = 365
      · simp [monthLength, hleap hday, hday]
      · have hfebruary : day - 337 + 1 ≤ 28 := by
          have := h.day_le
          omega
        have hlength : 28 ≤ monthLength (marchYear + 1) 2 := monthLength_pos _ _
        simpa using Nat.le_trans hfebruary hlength
    · rw [monthLength_fromMarch (by omega)]
      omega

example : ofDays 0 = ⟨1970, 1, 1⟩ := by decide

end TorrentRemote.Date
