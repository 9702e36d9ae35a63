import Mathlib.Data.List.Forall2
import TorrentRemote.Identifier
import TorrentRemote.Proofs.Except
import TorrentRemote.Proofs.Value.Equivalence

/-!
# Valid identifiers

An identifier is a number of 64 bits, the keyword or a text or ASCII bytes that spell a hash; `Names` says with
which wire form. Checking a list succeeds exactly when all of it are identifiers (`checkAll_iff`), and otherwise
it fails for the first one that is none (`checkAll_error_iff`).
-/

namespace TorrentRemote

def InfoHash.Spells (s : String) : Prop :=
  (s.toList.length = fullLength ∨ s.toList.length = shortLength) ∧ ∀ c ∈ s.toList, Text.isHexDigit c = true

instance (s : String) : Decidable (InfoHash.Spells s) :=
  have := List.decidableBAll (fun c => Text.isHexDigit c = true) s.toList
  inferInstanceAs (Decidable (_ ∧ _))

namespace Identifier
open InfoHash Value

inductive Names : Value → Value → Prop
  | number {v : Value} {n : Int} : v.int? = some n → -0x8000000000000000 ≤ n → n < 0x8000000000000000 →
      Names v v
  | keyword {v : Value} : v.text? = some recentlyActive → Names v (.text recentlyActive)
  | hash {v : Value} {s : String} : (spelling v).text? = some s → Spells s →
      Names v (.text (String.ofList (s.toList.map Char.toLower)))

theorem inRange_iff {n : Int} : inRange n = true ↔ -0x8000000000000000 ≤ n ∧ n < 0x8000000000000000 := by
  simp only [inRange, Bool.and_eq_true, decide_eq_true_eq]
  omega

theorem ofText_iff {s : String} {h : InfoHash} :
    ofText? s = some h ↔ Spells s ∧ h = ⟨String.ofList (s.toList.map Char.toLower)⟩ := by
  have hhex : (s.toList.length = fullLength ∨ s.toList.length = shortLength) ∧ Text.isHex s.toList ↔ Spells s := by
    unfold Spells Text.isHex
    constructor
    · rintro ⟨hlength, hall⟩
      simp only [Bool.and_eq_true, List.all_eq_true] at hall
      exact ⟨hlength, hall.2⟩
    · rintro ⟨hlength, hall⟩
      refine ⟨hlength, ?_⟩
      have hne : s.toList ≠ [] := by
        intro hnil
        rw [hnil] at hlength
        rcases hlength with h | h <;> cases h
      simpa [hne] using hall
  unfold ofText?
  dsimp only
  split
  · next hspells => simp [hhex.mp hspells, eq_comm]
  · next hspells => simp [mt hhex.mpr hspells]

theorem spelling_text {v : Value} {s : String} (h : v.text? = some s) : spelling v = v := by
  cases v <;> first | rfl | cases h

theorem int?_none_of_spelling {v : Value} {s : String} (h : (spelling v).text? = some s) : v.int? = none := by
  cases v with
  | member m => cases m <;> first | rfl | cases h
  | _ => first | rfl | cases h

theorem spelled_iff {v : Value} {s : String} : (spelling v).text? = some s ↔
    v.text? = some s ∨ ∃ bs, v.byteContent? = some bs ∧ asciiText? bs = some s := by
  cases v with
  | bytes bs | buffer bs => cases h : asciiText? bs <;> simp [spelling, h, text?, byteContent?]
  | _ => simp [spelling, byteContent?]

theorem int?_scalar {v : Value} {n : Int} (hn : v.int? = some n) : v.scalar? = some (.number (.whole n)) := by
  apply scalar?_eq_number.mpr
  cases v with
  | int m => rw [← Option.some.inj hn, quantity?]
  | member m => simp [quantity?, hn]
  | _ => cases hn

theorem not_spells_recentlyActive : ¬ Spells recentlyActive := by
  decide +kernel

theorem keyword_not_hash {v : Value} (hv : v.text? = some recentlyActive) {s : String}
    (hs : (spelling v).text? = some s) : ¬ Spells s := by
  rw [spelling_text hv, hv] at hs
  rw [← Option.some.inj hs]
  exact not_spells_recentlyActive

theorem check_iff {v w : Value} : check v = .ok w ↔ Names v w := by
  constructor
  · intro h
    unfold check at h
    split at h
    · next n hn =>
      split at h
      · next hrange =>
        cases h
        exact .number hn (inRange_iff.mp hrange).1 (inRange_iff.mp hrange).2
      · cases h
    · split at h
      · next hkeyword =>
        cases h
        exact .keyword hkeyword
      · obtain ⟨hash, hof, rfl⟩ := map_ok h
        unfold ofValue at hof
        dsimp only at hof
        split at hof
        · next hash' hspelled =>
          cases hof
          obtain ⟨s, hs, hhash⟩ := Option.bind_eq_some_iff.mp hspelled
          obtain ⟨hspells, rfl⟩ := ofText_iff.mp hhash
          exact .hash hs hspells
        · cases hof
  · intro h
    unfold check
    cases h with
    | @number n hn hlow hhigh =>
      rw [hn]
      exact if_pos (inRange_iff.mpr ⟨hlow, hhigh⟩)
    | keyword hkeyword =>
      have hnone : v.int? = none := int?_none_of_spelling (by rwa [spelling_text hkeyword])
      rw [hnone]
      exact if_pos hkeyword
    | @hash s hs hspells =>
      have hother : v.text? ≠ some recentlyActive := by
        intro hkeyword
        rw [spelling_text hkeyword, hkeyword] at hs
        exact not_spells_recentlyActive (Option.some.inj hs ▸ hspells)
      have hof : ofValue v = .ok ⟨String.ofList (s.toList.map Char.toLower)⟩ := by
        unfold ofValue
        simp only [hs, Option.bind_some, ofText_iff.mpr ⟨hspells, rfl⟩]
      rw [int?_none_of_spelling hs]
      simp only [hother, if_false, hof]
      rfl

/-- The list is checked item by item, and an empty one has no wire form. -/
theorem checkAll_iff {ids : List Value} {checked : Option (List Value)} : checkAll ids = .ok checked ↔
    ∃ ws, List.Forall₂ Names ids ws ∧ checked = if ws.isEmpty then none else some ws := by
  have hcheck : (fun v w => check v = .ok w) = Names := by
    funext v w
    exact propext check_iff
  cases ids with
  | nil =>
    constructor
    · intro h
      cases h
      exact ⟨[], .nil, rfl⟩
    · rintro ⟨ws, hws, rfl⟩
      cases hws
      rfl
  | cons v vs =>
    rw [checkAll, ← hcheck]
    · constructor
      · intro h
        obtain ⟨ws, hws, rfl⟩ := map_ok h
        rw [mapM_iff] at hws
        cases hws with
        | cons hw hws => exact ⟨_, .cons hw hws, rfl⟩
      · rintro ⟨ws, hws, rfl⟩
        rw [mapM_iff.mpr hws]
        cases hws
        rfl
    · rintro ⟨⟩

/-! ## Refusals -/

theorem spelling_int {v : Value} {n : Int} (h : v.int? = some n) : spelling v = v := by
  cases v <;> first | rfl | cases h

def refusal (v : Value) : Failure :=
  .about (spelling v) (.identifier (spelling v))

theorem spelling_hasText (v : Value) : (spelling v).hasText = v.hasText := by
  cases v with
  | bytes bs | buffer bs => cases h : asciiText? bs <;> simp [spelling, h, hasText]
  | _ => rfl

theorem refusal_eq (v : Value) :
    refusal v = if v.hasText then .client (.identifier (spelling v)) else .integerTooLong := by
  rw [refusal, Failure.about, Failure.showing, spelling_hasText]

theorem check_error {v : Value} {e : Failure} (h : check v = .error e) : e = refusal v := by
  unfold check at h
  split at h
  · next n hn =>
    split at h
    · cases h
    · cases h
      rw [refusal, spelling_int hn]
  · split at h
    · cases h
    · have hof := map_error h
      unfold ofValue at hof
      dsimp only at hof
      split at hof
      · cases hof
      · exact (Except.error.inj hof).symm

theorem check_error_iff {v : Value} {e : Failure} :
    check v = .error e ↔ (∀ w, ¬ Names v w) ∧ e = refusal v := by
  constructor
  · intro h
    refine ⟨fun w hw => ?_, check_error h⟩
    rw [check_iff.mpr hw] at h
    cases h
  · rintro ⟨hnone, rfl⟩
    cases h : check v with
    | ok w => exact absurd (check_iff.mp h) (hnone w)
    | error e => rw [check_error h]

/-- A list is refused for the first of its items that is no identifier. -/
theorem checkAll_error_iff {ids : List Value} {e : Failure} : checkAll ids = .error e ↔
    ∃ front v rest, ids = front ++ v :: rest ∧ (∀ u ∈ front, ∃ w, Names u w) ∧ (∀ w, ¬ Names v w) ∧
      e = refusal v := by
  have hmap : checkAll ids = .error e ↔ ids.mapM check = .error e := by
    cases ids with
    | nil => exact iff_of_false nofun nofun
    | cons v vs => exact ⟨map_error, fun h => by rw [checkAll, h]; exacts [rfl, nofun]⟩
  rw [hmap, mapM_error_iff]
  simp only [check_iff, check_error_iff]

section
variable {ids : List Value}

theorem checkAll_ok_iff : (∃ checked, checkAll ids = .ok checked) ↔ ∀ v ∈ ids, ∃ w, Names v w := by
  constructor
  · rintro ⟨checked, h⟩ v hv
    have hne : ids ≠ [] := List.ne_nil_of_mem hv
    rw [checkAll] at h
    · obtain ⟨ws, hws, -⟩ := map_ok h
      obtain ⟨w, -, hcheck⟩ := mapM_ok_of_mem hws v hv
      exact ⟨w, check_iff.mp hcheck⟩
    · exact hne
  · intro h
    apply ok_of_not_fails
    rintro ⟨e, he⟩
    obtain ⟨front, v, rest, rfl, -, hnone, -⟩ := checkAll_error_iff.mp he
    obtain ⟨w, hw⟩ := h v (List.mem_append_right _ List.mem_cons_self)
    exact hnone w hw

theorem checkAll_misnamed (h : ∃ v ∈ ids, ∀ w, ¬ Names v w) :
    ∃ v ∈ ids, (∀ w, ¬ Names v w) ∧ checkAll ids = .error (refusal v) := by
  cases hcheck : checkAll ids with
  | error e =>
    obtain ⟨front, v, rest, rfl, -, hnone, rfl⟩ := checkAll_error_iff.mp hcheck
    exact ⟨v, List.mem_append_right _ List.mem_cons_self, hnone, rfl⟩
  | ok checked =>
    obtain ⟨v, hv, hnone⟩ := h
    obtain ⟨w, hw⟩ := checkAll_ok_iff.mp ⟨checked, hcheck⟩ v hv
    exact absurd hw (hnone w)

end

end Identifier

end TorrentRemote
