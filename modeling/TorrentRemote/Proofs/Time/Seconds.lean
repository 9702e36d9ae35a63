import TorrentRemote.Proofs.Time.Calendar
import TorrentRemote.Proofs.Value.Shown
import TorrentRemote.Proofs.Wire

/-!
# Counts of seconds as times and durations

A count of seconds that is read as a time is the date and clock time that it counts to, later counts are later times,
and writing gives the count back. The same holds of durations. What is refused lies outside of one interval.
-/

namespace TorrentRemote

namespace Moment

/-! ## Parts -/

/-- What a time is compared by, the year first. -/
def parts (m : Moment) : List Int :=
  [m.date.year, m.date.month, m.date.day, m.hour, m.minute, m.second, m.microsecond]

section
variable (m m' : Moment)

theorem toDays_date : m.date.toDays = m.wall / 86400000000 := by
  rw [date, Date.toDays_ofDays, Int.fdiv_eq_ediv_of_nonneg _ (by decide)]
  rfl

theorem secondOfDay_eq : (m.secondOfDay : Int) = m.wall / 1000000 % 86400 := by
  rw [secondOfDay, Int.fdiv_eq_ediv_of_nonneg _ (by decide), Int.fmod_eq_emod_of_nonneg _ (by decide)]
  simp only [secondsPerDay, microsPerSecond]
  omega

theorem microsecond_eq : (m.microsecond : Int) = m.wall % 1000000 := by
  rw [microsecond, Int.fmod_eq_emod_of_nonneg _ (by decide)]
  simp only [microsPerSecond]
  omega

theorem date_isGregorian : m.date.IsGregorian :=
  Date.ofDays_isGregorian _

theorem date_inj (h : m.date.toDays = m'.date.toDays) : m.date = m'.date :=
  Date.toDays_inj m.date_isGregorian m'.date_isGregorian h

theorem parts_lt_lex : m.parts < m'.parts ↔ m.date.Before m'.date ∨ m.date = m'.date ∧
    (m.secondOfDay < m'.secondOfDay ∨ m.secondOfDay = m'.secondOfDay ∧ m.microsecond < m'.microsecond) := by
  simp only [parts, List.cons_lt_cons_iff, hour, minute, second, Date.Before]
  generalize m.date = d, m'.date = d', m.secondOfDay = s, m'.secondOfDay = s'
  obtain ⟨year, month, day⟩ := d
  obtain ⟨year', month', day'⟩ := d'
  simp only [Date.mk.injEq, List.not_lt_nil, and_false, or_false]
  omega

/-- The order of the parts is that of the time that has passed on the clock. -/
theorem parts_lt_iff : m.parts < m'.parts ↔ m.wall < m'.wall := by
  have hbefore := Date.before_iff m.date_isGregorian m'.date_isGregorian
  have hsame := m.date_inj m'
  have hdays := m.toDays_date
  have hdays' := m'.toDays_date
  have hseconds := m.secondOfDay_eq
  have hseconds' := m'.secondOfDay_eq
  have hmicros := m.microsecond_eq
  have hmicros' := m'.microsecond_eq
  rw [parts_lt_lex, hbefore]
  by_cases heq : m.date = m'.date
  · rw [heq] at hdays ⊢
    simp
    omega
  · have hne : m.date.toDays ≠ m'.date.toDays := fun h => heq (hsame h)
    simp [heq]
    omega

end

/-! ## Times of counts of seconds -/

/-- The date and clock time, in universal time, a number of seconds after the start of 1970. -/
structure Shows (m : Moment) (n : Int) : Prop where
  offset : m.offset = none
  date : m.date.IsGregorian
  year : 1 ≤ m.date.year ∧ m.date.year ≤ 9999
  hour : m.hour < 24
  minute : m.minute < 60
  second : m.second < 60
  microsecond : m.microsecond = 0
  seconds : m.date.toDays * 86400 + (m.hour * 3600 + m.minute * 60 + m.second : Nat) = n

theorem ofSeconds_eq_some {n : Int} {m : Moment} : ofSeconds? n = some m ↔
    (-62135510400 ≤ n ∧ n ≤ 253402300799) ∧ m = ⟨n * 1000000, none⟩ := by
  unfold ofSeconds?
  have hrange : (firstSecond + secondsPerDay ≤ n ∧ n ≤ lastSecond) ↔ -62135510400 ≤ n ∧ n ≤ 253402300799 := by
    simp [firstSecond, secondsPerDay, lastSecond]
  by_cases h : -62135510400 ≤ n ∧ n ≤ 253402300799
  · rw [if_pos (hrange.mpr h)]
    simp [h, microsPerSecond, eq_comm]
  · rw [if_neg (mt hrange.mp h)]
    simp [h]

theorem ofSeconds_eq_none {n : Int} : ofSeconds? n = none ↔ n < -62135510400 ∨ 253402300799 < n := by
  rw [Option.eq_none_iff_forall_ne_some]
  simp only [ne_eq, ofSeconds_eq_some]
  constructor
  · intro h
    have := h ⟨n * 1000000, none⟩
    simp at this
    omega
  · intro h m
    omega

theorem shows_of_ofSeconds {n : Int} {m : Moment} (h : ofSeconds? n = some m) : m.Shows n := by
  obtain ⟨⟨hlow, hhigh⟩, rfl⟩ := ofSeconds_eq_some.mp h
  generalize hm : (⟨n * 1000000, none⟩ : Moment) = m
  have hwall : m.wall = n * 1000000 := by rw [← hm]
  have hdays := m.toDays_date
  have hseconds := m.secondOfDay_eq
  have hmicros := m.microsecond_eq
  have hfirst := Date.le_year_iff m.date_isGregorian 1
  have hlast := Date.le_year_iff m.date_isGregorian 10000
  have hdays1 : Date.daysBefore 1 1 = -719163 := by decide
  have hdays10000 : Date.daysBefore 10000 1 = 2932896 := by decide
  constructor
  · rw [← hm]
  · exact m.date_isGregorian
  · omega
  · unfold hour
    omega
  · unfold minute
    omega
  · unfold second
    omega
  · omega
  · unfold hour minute second
    omega

end Moment

namespace Duration

/-! ## Durations of counts of seconds -/

/-- The days and seconds of a count of seconds, the seconds never negative. -/
structure Lasts (d : Duration) (n : Int) : Prop where
  days : -999999999 ≤ d.days ∧ d.days ≤ 999999999
  seconds : d.seconds < 86400
  microseconds : d.microseconds = 0
  total : d.days * 86400 + d.seconds = n

theorem ofSeconds_eq_some {n : Int} {d : Duration} : ofSeconds? n = some d ↔
    (-86399999913600 ≤ n ∧ n ≤ 86399999999999) ∧ d = ⟨n * 1000000⟩ := by
  have hrange : (-mostDays ≤ n.fdiv secondsPerDay ∧ n.fdiv secondsPerDay ≤ mostDays) ↔
      -86399999913600 ≤ n ∧ n ≤ 86399999999999 := by
    rw [Int.fdiv_eq_ediv_of_nonneg _ (by decide)]
    simp only [mostDays, secondsPerDay]
    omega
  unfold ofSeconds?
  by_cases h : -86399999913600 ≤ n ∧ n ≤ 86399999999999
  · simp only [if_pos (hrange.mpr h)]
    simp [h, microsPerSecond, eq_comm]
  · simp only [if_neg (mt hrange.mp h)]
    simp [h]

theorem ofSeconds_eq_none {n : Int} : ofSeconds? n = none ↔ n < -86399999913600 ∨ 86399999999999 < n := by
  rw [Option.eq_none_iff_forall_ne_some]
  simp only [ne_eq, ofSeconds_eq_some]
  constructor
  · intro h
    have := h ⟨n * 1000000⟩
    simp at this
    omega
  · intro h d
    omega

theorem lasts_of_ofSeconds {n : Int} {d : Duration} (h : ofSeconds? n = some d) : d.Lasts n := by
  obtain ⟨⟨hlow, hhigh⟩, rfl⟩ := ofSeconds_eq_some.mp h
  have hdays : days ⟨n * 1000000⟩ = n * 1000000 / 86400000000 := by
    rw [days, Int.fdiv_eq_ediv_of_nonneg _ (by decide)]
    rfl
  have hseconds : (seconds ⟨n * 1000000⟩ : Int) = n * 1000000 / 1000000 % 86400 := by
    rw [seconds, Int.fdiv_eq_ediv_of_nonneg _ (by decide), Int.fmod_eq_emod_of_nonneg _ (by decide)]
    simp only [secondsPerDay, microsPerSecond]
    omega
  have hmicros : (microseconds ⟨n * 1000000⟩ : Int) = n * 1000000 % 1000000 := by
    rw [microseconds, Int.fmod_eq_emod_of_nonneg _ (by decide)]
    simp only [microsPerSecond]
    omega
  constructor <;> omega

end Duration

namespace Wire

/-! ## Reading and writing -/

/-- What a count of seconds is read as for a time. -/
inductive TimeOf (n : Int) : Except Failure (Option Moment) → Prop
  | unset : n = 0 → TimeOf n (.ok none)
  | set {m : Moment} : n ≠ 0 → -62135510400 ≤ n → n ≤ 253402300799 → m.Shows n → write (.time m) = .ok (.int n) →
      TimeOf n (.ok (some m))
  | refused : n < -62135510400 ∨ 253402300799 < n → Value.HasDigits n →
      TimeOf n (.error (.client (.scalar (some .time) (.int n))))
  | unshown : ¬ Value.HasDigits n → TimeOf n (.error .integerTooLong)

inductive DurationOf (n : Int) : Except Failure Duration → Prop
  | held {d : Duration} : -86399999913600 ≤ n → n ≤ 86399999999999 → d.Lasts n →
      write (.duration d) = .ok (.int n) → DurationOf n (.ok d)
  | refused : n < -86399999913600 ∨ 86399999999999 < n → Value.HasDigits n →
      DurationOf n (.error (.client (.scalar (some .duration) (.int n))))
  | unshown : ¬ Value.HasDigits n → DurationOf n (.error .integerTooLong)

/-- The failure of a scalar shows an integer unless it is too long. -/
theorem scalar_refused (kind : ScalarKind) (n : Int) :
    (Value.HasDigits n ∧
      Failure.about (.int n) (.scalar (some kind) (.int n)) = .client (.scalar (some kind) (.int n))) ∨
    (¬ Value.HasDigits n ∧ Failure.about (.int n) (.scalar (some kind) (.int n)) = .integerTooLong) := by
  by_cases h : Value.HasDigits n
  · exact .inl ⟨h, Failure.showing_shown (Value.hasText_int.mpr h) _⟩
  · exact .inr ⟨h, Failure.showing_unshown (eq_false_of_ne_true fun htext => h (Value.hasText_int.mp htext)) _⟩

theorem readTime_timeOf (n : Int) : TimeOf n (readTime (.int n)) := by
  by_cases hn : n = 0
  · subst hn
    exact .unset rfl
  · cases hm : Moment.ofSeconds? n with
    | some m =>
      obtain ⟨⟨hlow, hhigh⟩, -⟩ := Moment.ofSeconds_eq_some.mp hm
      rw [readTime_int hn hm]
      refine .set hn hlow hhigh (Moment.shows_of_ofSeconds hm) ?_
      rw [write, ofSeconds_toSeconds hm]
    | none =>
      have herror : readTime (.int n) = .error (.about (.int n) (.scalar (some .time) (.int n))) :=
        readTime_error.mpr ⟨rfl, fun k hk => by cases hk; exact ⟨hn, hm⟩⟩
      rw [herror]
      rcases scalar_refused .time n with ⟨hdigits, h⟩ | ⟨hlong, h⟩
      · rw [h]
        exact .refused (Moment.ofSeconds_eq_none.mp hm) hdigits
      · rw [h]
        exact .unshown hlong

theorem readDuration_durationOf (n : Int) : DurationOf n (readDuration (.int n)) := by
  cases hd : Duration.ofSeconds? n with
  | some d =>
    obtain ⟨⟨hlow, hhigh⟩, -⟩ := Duration.ofSeconds_eq_some.mp hd
    rw [readDuration_int hd]
    refine .held hlow hhigh (Duration.lasts_of_ofSeconds hd) ?_
    rw [write, duration_toSeconds hd]
  | none =>
    have herror : readDuration (.int n) = .error (.about (.int n) (.scalar (some .duration) (.int n))) :=
      readDuration_error.mpr ⟨rfl, fun k hk => by cases hk; exact hd⟩
    rw [herror]
    rcases scalar_refused .duration n with ⟨hdigits, h⟩ | ⟨hlong, h⟩
    · rw [h]
      exact .refused (Duration.ofSeconds_eq_none.mp hd) hdigits
    · rw [h]
      exact .unshown hlong

theorem readTime_long {n : Int} (h : ¬ Value.HasDigits n) : readTime (.int n) = .error .integerTooLong := by
  have hshort : n.natAbs < 10 ^ 12 → False := fun hn => h (Value.hasDigits_of_lt (by decide) hn)
  have hread := readTime_timeOf n
  generalize readTime (.int n) = r at hread ⊢
  cases hread with
  | unset hn => exact (hshort (by omega)).elim
  | set _ hlow hhigh => exact (hshort (by omega)).elim
  | refused _ hn => exact absurd hn h
  | unshown => rfl

theorem readDuration_long {n : Int} (h : ¬ Value.HasDigits n) : readDuration (.int n) = .error .integerTooLong := by
  have hshort : n.natAbs < 10 ^ 14 → False := fun hn => h (Value.hasDigits_of_lt (by decide) hn)
  have hread := readDuration_durationOf n
  generalize readDuration (.int n) = r at hread ⊢
  cases hread with
  | held hlow hhigh => exact (hshort (by omega)).elim
  | refused _ hn => exact absurd hn h
  | unshown => rfl

/-- Counts of seconds come back from the times and durations that they are read as, each kind has one interval of them,
and a later time has later parts. -/
theorem seconds_return (n : Int) : TimeOf n (readTime (.int n)) ∧ DurationOf n (readDuration (.int n)) ∧
    ∀ (n' : Int) (m m' : Moment), readTime (.int n) = .ok (some m) → readTime (.int n') = .ok (some m') →
      (n < n' ↔ m.parts < m'.parts) := by
  refine ⟨readTime_timeOf n, readDuration_durationOf n, fun n' m m' hm hm' => ?_⟩
  obtain ⟨k, -, hk, hm⟩ := readTime_ok hm
  obtain ⟨k', -, hk', hm'⟩ := readTime_ok hm'
  cases hk
  cases hk'
  rw [(Moment.ofSeconds_eq_some.mp hm).2, (Moment.ofSeconds_eq_some.mp hm').2, Moment.parts_lt_iff]
  show _ ↔ _ * _ < _ * _
  omega

theorem seconds_return_ends : ∃ m m', readTime (.int (-62135510400)) = .ok (some m) ∧
    readTime (.int 253402300799) = .ok (some m') ∧ m.parts < m'.parts :=
  ⟨_, _, rfl, rfl, ((seconds_return (-62135510400)).2.2 253402300799 _ _ rfl rfl).mp (by decide)⟩

/-- A flag is no count of seconds, and the error for an integer with too many digits cannot show it and is
another one. -/
theorem seconds_refused_otherwise :
    (readDuration (.int 1) = .ok ⟨1000000⟩ ∧
      readDuration (.bool true) = .error (.client (.scalar (some .duration) (.bool true)))) ∧
    readTime (.int Value.leastLong) = .error .integerTooLong ∧
    readDuration (.int Value.leastLong) = .error .integerTooLong ∧
    ¬ ∀ n : Int, (∃ m, readTime (.int n) = .ok m) ∨
      readTime (.int n) = .error (.client (.scalar (some .time) (.int n))) := by
  have htime := readTime_long Value.leastLong_not_hasDigits
  refine ⟨⟨rfl, rfl⟩, htime, readDuration_long Value.leastLong_not_hasDigits, fun h => ?_⟩
  rcases h Value.leastLong with ⟨m, hm⟩ | hm
  · rw [htime] at hm
    cases hm
  · rw [htime] at hm
    cases hm

example : Moment.parts ⟨-62135510400 * 1000000, none⟩ = [1, 1, 2, 0, 0, 0, 0] := by decide

example : Moment.parts ⟨253402300799 * 1000000, none⟩ = [9999, 12, 31, 23, 59, 59, 0] := by decide

end Wire

end TorrentRemote
