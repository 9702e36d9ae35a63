import Mathlib.Algebra.Group.Nat.Defs
import TorrentRemote.Proofs.Except
import TorrentRemote.Proofs.Value.Tree
import TorrentRemote.Value.Convert

/-!
# Values that have a text

An integer has a text if it has few enough digits, and a value that holds others if all of them have. So all that a
JSON text can stand for has a text as well (`IsJson.hasText`), and a failure that shows it is what it says.
-/

namespace TorrentRemote

namespace Value

theorem hasDigits_iff {n : Int} : HasDigits n ↔ n.natAbs < 10 ^ Numeral.digitLimit :=
  Nat.length_toDigits_le_iff (by decide) (by decide)

theorem hasDigits_of_lt {n : Int} {k : Nat} (hk : k ≤ Numeral.digitLimit) (h : n.natAbs < 10 ^ k) : HasDigits n :=
  hasDigits_iff.mpr (Nat.lt_of_lt_of_le h (Nat.pow_le_pow_right (by decide) hk))

/-- The least integer that is too long. -/
def leastLong : Int :=
  Int.ofNat (10 ^ Numeral.digitLimit)

theorem leastLong_not_hasDigits : ¬ HasDigits leastLong := by
  rw [hasDigits_iff, leastLong, Int.ofNat_eq_natCast, Int.natAbs_natCast]
  exact Nat.lt_irrefl _

theorem hasText_int {n : Int} : (Value.int n).hasText = true ↔ HasDigits n := by
  rw [hasText, decide_eq_true_eq, HasDigits]

theorem haveText_iff {vs : List Value} : haveText vs = true ↔ ∀ v ∈ vs, v.hasText = true := by
  induction vs with
  | nil => simp [haveText]
  | cons v vs ih => simp [haveText, ih]

theorem entriesHaveText_iff {es : List (Value × Value)} :
    entriesHaveText es = true ↔ ∀ e ∈ es, e.1.hasText = true ∧ e.2.hasText = true := by
  induction es with
  | nil => simp [entriesHaveText]
  | cons e es ih => simp [entriesHaveText, ih, and_assoc]

theorem IsJson.hasText {v : Value} (h : v.IsJson) : v.hasText = true := by
  unfold IsJson at h
  induction h with
  | @leaf v hleaf =>
    obtain ⟨hplain, hdigits⟩ := hleaf
    cases v with
    | int n => exact hasText_int.mpr (hdigits n rfl)
    | null | bool | float | text => rfl
    | _ => cases hplain
  | list _ ih =>
    rw [Value.hasText]
    exact haveText_iff.mpr ih
  | mapping _ _ ih =>
    rw [ofFields, Value.hasText, entriesHaveText_iff]
    intro e he
    obtain ⟨f, hf, rfl⟩ := List.mem_map.mp he
    exact ⟨rfl, ih f hf⟩

theorem toText_ok {v : Value} {s : String} : v.toText = .ok s ↔ v.hasText = true ∧ s = v.plain := by
  unfold toText
  cases v.hasText <;> simp [eq_comm]

end Value

namespace Failure
variable {v : Value}

theorem showing_shown (h : v.hasText = true) (e : Failure) : showing v e = e :=
  if_pos h

theorem showing_unshown (h : v.hasText = false) (e : Failure) : showing v e = .integerTooLong :=
  if_neg (by simp [h])

end Failure

end TorrentRemote
