import Mathlib.Order.Bounds.Basic
import TorrentRemote.Proofs.Display.Size
import TorrentRemote.Proofs.Number.Nearest

/-!
# The unit of a size

On the way up through the units a count is divided by the base again and again, and what is left of it is always the
whole quotient of the count by the unit. The way ends at the largest unit that the count holds one of, and what is shown
is the ratio to that unit, rounded once: `size_scaled`.
-/

namespace TorrentRemote

namespace FixedLayout

/-- A whole number, a flag or a code as the count of places has no mark. -/
theorem ofPlaces_whole {v : Value} {n : Int} {l : FixedLayout} (hv : v.quantity? = some (.whole n))
    (h : ofPlaces v.plain = .ok l) : ∃ places, l = { places } := by
  apply ofPlaces_unaligned _ h
  intro c hc
  cases v with
  | int m => exact alignment_int hc
  | bool b => cases b <;> cases hc <;> rfl
  | member m =>
    simp only [Value.quantity?, Value.int?] at hv
    simp only [Value.plain] at hc
    cases hcode : m.code with
    | number k =>
      rw [hcode] at hc
      exact alignment_int hc
    | word w =>
      rw [hcode] at hv
      cases hv
  | _ => cases hv

end FixedLayout

namespace Display

namespace Units

/-! ## The way up -/

/-- A unit on the way up: how many bytes it has, and how many whole ones of it the count holds. -/
structure Rung where
  index : Nat
  divisor : Nat
  rest : Nat

def Rung.next? (u : Units) (r : Rung) : Option Rung :=
  if u.base ≤ r.rest ∧ r.index < u.letters.length - 1 then
    some ⟨r.index + 1, r.divisor * u.base, r.rest / u.base⟩
  else none

inductive Climbs (u : Units) (count : Nat) : Rung → Prop
  | first : Climbs u count ⟨0, u.base, count / u.base⟩
  | next {r r' : Rung} : Climbs u count r → r.next? u = some r' → Climbs u count r'

structure Rung.Holds (u : Units) (count : Nat) (r : Rung) : Prop where
  divisor : r.divisor = u.base ^ (r.index + 1)
  rest : r.rest = count / r.divisor
  inside : r.index < u.letters.length

section
variable {u : Units} {count : Nat} {r r' : Rung}

theorem Rung.next_cases (h : r.next? u = some r') : u.base ≤ r.rest ∧ r.index < u.letters.length - 1 ∧
    r' = ⟨r.index + 1, r.divisor * u.base, r.rest / u.base⟩ := by
  unfold Rung.next? at h
  by_cases hgo : u.base ≤ r.rest ∧ r.index < u.letters.length - 1
  · rw [if_pos hgo] at h
    exact ⟨hgo.1, hgo.2, (Option.some.inj h).symm⟩
  · rw [if_neg hgo] at h
    cases h

theorem Rung.Holds.next (hr : r.Holds u count) (h : r.next? u = some r') : r'.Holds u count := by
  obtain ⟨-, hindex, rfl⟩ := Rung.next_cases h
  refine ⟨?_, ?_, ?_⟩
  · show r.divisor * u.base = u.base ^ (r.index + 1 + 1)
    rw [hr.divisor, ← Nat.pow_succ]
  · show r.rest / u.base = count / (r.divisor * u.base)
    rw [hr.rest, Nat.div_div_eq_div_mul]
  · show r.index + 1 < u.letters.length
    omega

theorem Climbs.holds (hu : u.IsFamily) (h : u.Climbs count r) : r.Holds u count := by
  induction h with
  | first => exact ⟨(Nat.pow_one _).symm, rfl, hu.letters⟩
  | next _ hnext ih => exact ih.next hnext

theorem Climbs.index_eq (h : u.Climbs count r) :
    u.indexFor count = r.index + climb u.base (u.letters.length - 1 - r.index) r.rest := by
  induction h with
  | first => rw [Nat.sub_zero, Nat.zero_add]; rfl
  | @next r r' _ hnext ih =>
    obtain ⟨hbase, hindex, rfl⟩ := Rung.next_cases hnext
    obtain ⟨limit, hlimit⟩ : ∃ limit, u.letters.length - 1 - r.index = limit + 1 :=
      ⟨u.letters.length - 1 - r.index - 1, by omega⟩
    have hrest : u.letters.length - 1 - (r.index + 1) = limit := by omega
    rw [ih, hlimit, climb, if_neg (Nat.not_lt.mpr hbase)]
    show r.index + (climb u.base limit (r.rest / u.base) + 1) =
      r.index + 1 + climb u.base (u.letters.length - 1 - (r.index + 1)) (r.rest / u.base)
    rw [hrest]
    omega

theorem Climbs.last_index (h : u.Climbs count r) (hlast : r.next? u = none) : r.index = u.indexFor count := by
  have hstop : climb u.base (u.letters.length - 1 - r.index) r.rest = 0 := by
    unfold Rung.next? at hlast
    cases hlimit : u.letters.length - 1 - r.index with
    | zero => rfl
    | succ limit =>
      rw [climb, if_pos]
      by_cases hbase : u.base ≤ r.rest
      · rw [if_pos ⟨hbase, by omega⟩] at hlast
        cases hlast
      · omega
  rw [h.index_eq, hstop, Nat.add_zero]

theorem climbs_end (u : Units) (count : Nat) : ∃ r, u.Climbs count r ∧ r.next? u = none := by
  -- there are so many units above each one on the way
  have hfrom : ∀ (left : Nat) (r : Rung), u.Climbs count r → u.letters.length - 1 - r.index = left →
      ∃ last, u.Climbs count last ∧ last.next? u = none := by
    intro left
    induction left with
    | zero =>
      intro r hr hleft
      refine ⟨r, hr, ?_⟩
      unfold Rung.next?
      rw [if_neg (by omega)]
    | succ left ih =>
      intro r hr hleft
      cases hnext : r.next? u with
      | none => exact ⟨r, hr, hnext⟩
      | some r' =>
        have hr' : u.Climbs count r' := hr.next hnext
        obtain ⟨-, -, rfl⟩ := Rung.next_cases hnext
        exact ih _ hr' (by show u.letters.length - 1 - (r.index + 1) = left; omega)
  exact hfrom _ _ .first rfl

/-- The unit of a count that holds at least one of the first: the largest of eight that it holds one of, where the way
up ends. -/
structure IsScale (u : Units) (count index : Nat) : Prop where
  greatest : IsGreatest {e | e ≤ 7 ∧ u.base ^ (e + 1) ≤ count} index
  onTheWay : ∀ r, u.Climbs count r → r.Holds u count ∧ r.index ≤ index
  last : ∃ r, u.Climbs count r ∧ r.next? u = none ∧ r.index = index

theorem IsFamily.isScale (hu : u.IsFamily) (height : u.letters.length = 8) (hcount : u.base ≤ count) :
    u.IsScale count (u.indexFor count) := by
  have hindex := hu.indexFor hcount
  refine ⟨⟨⟨?_, hindex.reached⟩, ?_⟩, ?_, ?_⟩
  · have hinside := hindex.inside
    omega
  · intro e he
    obtain ⟨hletters, hreached⟩ := he
    -- a larger unit would be reached only if the next one were
    by_contra hlarger
    have hended := hindex.ended (by omega)
    have hpow : u.base ^ (u.indexFor count + 2) ≤ u.base ^ (e + 1) :=
      Nat.pow_le_pow_right hu.positive (by omega)
    omega
  · intro r hr
    refine ⟨hr.holds hu, ?_⟩
    rw [hr.index_eq]
    exact Nat.le_add_right _ _
  · obtain ⟨r, hr, hlast⟩ := climbs_end u count
    exact ⟨r, hr, hlast, hr.last_index hlast⟩

end

/-! ## The number -/

theorem quotient_neg (u : Units) {count : Int} (hcount : 0 < count) (index : Nat) :
    ∃ rank, u.quotient count index = .ranked false rank ∧ u.quotient (-count) index = .ranked true rank := by
  refine ⟨Fin.ofNat _ (min (Binary64.nearestRank count.natAbs (u.base ^ (index + 1))) Binary64.topRank), ?_, ?_⟩
  · unfold quotient
    rw [decide_eq_false (by omega)]
    rfl
  · unfold quotient
    rw [decide_eq_true (by omega), Int.natAbs_neg]
    rfl

end Units

section
variable {u : Units} {layout : Except Failure FixedLayout} {suffix : Value} {s : String} {count : Int}

theorem sizeText_small (hcount : count.natAbs < u.base) :
    sizeText u layout suffix.toText count = suffix.toText.map (toString count ++ " B" ++ ·) :=
  if_pos hcount

theorem sizeText_scaled (hcount : u.base ≤ count.natAbs) : sizeText u layout suffix.toText count =
    if (u.quotient count (u.indexFor count.natAbs)).isInfinite then .error .quotientTooLarge
    else u.label layout suffix.toText (u.indexFor count.natAbs) (u.quotient count (u.indexFor count.natAbs)) :=
  if_neg (Nat.not_lt.mpr hcount)

/-- The text of a negative count has nothing more than a minus in front, where the layout only gives places. -/
theorem sizeText_neg (hlayout : ∀ l, layout = .ok l → ∃ places, l = { places }) (hcount : 0 < count)
    (h : sizeText u layout suffix.toText count = .ok s) :
    sizeText u layout suffix.toText (-count) = .ok ("-" ++ s) := by
  by_cases hsmall : count.natAbs < u.base
  · rw [sizeText_small hsmall] at h
    obtain ⟨t, ht, rfl⟩ := map_ok h
    have hminus : toString (-count) = "-" ++ toString count := by
      obtain ⟨n, rfl⟩ : ∃ n : Nat, count = n + 1 := ⟨count.toNat - 1, by omega⟩
      rfl
    rw [sizeText_small (by rwa [Int.natAbs_neg]), ht, hminus, Except.map]
    simp only [String.append_assoc]
  · have hbase := Nat.le_of_not_lt hsmall
    obtain ⟨rank, hpos, hneg⟩ := u.quotient_neg hcount (u.indexFor count.natAbs)
    rw [sizeText_scaled hbase, hpos] at h
    have hsame : (Binary64.ranked true rank).isInfinite = (Binary64.ranked false rank).isInfinite := rfl
    rw [sizeText_scaled (by rwa [Int.natAbs_neg]), Int.natAbs_neg, hneg, hsame]
    by_cases hinfinite : (Binary64.ranked false rank).isInfinite = true
    · rw [if_pos hinfinite] at h
      cases h
    · rw [if_neg hinfinite] at h ⊢
      obtain ⟨hsuffix, l, hl, rfl⟩ := Units.label_ok_iff.mp h
      obtain ⟨places, rfl⟩ := hlayout l hl
      refine Units.label_ok_iff.mpr ⟨hsuffix, _, hl, ?_⟩
      simp only [FixedLayout.set_places, Binary64.isNegative, Binary64.abs, if_true, Bool.false_eq_true, if_false,
        String.empty_append, String.append_assoc]

end

theorem unitsFor_isFamily (binary : Value) : (unitsFor binary).IsFamily ∧ (unitsFor binary).letters.length = 8 := by
  unfold unitsFor
  split
  · exact ⟨Units.binaryUnits_isFamily, rfl⟩
  · exact ⟨Units.decimalUnits_isFamily, rfl⟩

/-! ## The text -/

theorem size_scaled {binary places suffix : Value} {count : Int} {s : String}
    (h : size { binary, places, suffix } (.int count) = .ok s) :
    (count.natAbs < (unitsFor binary).base → s = toString count ++ " B" ++ suffix.plain) ∧
    ((unitsFor binary).base ≤ count.natAbs → ∃ index letter l, (unitsFor binary).IsScale count.natAbs index ∧
      (unitsFor binary).letters[index]? = some letter ∧ FixedLayout.ofPlaces places.plain = .ok l ∧
      ((unitsFor binary).quotient count index).IsNearest count ((unitsFor binary).base ^ (index + 1)) ∧
      s = l.set ((unitsFor binary).quotient count index) ++ " " ++ String.ofList [letter] ++ (unitsFor binary).ending ++
        suffix.plain) ∧
    (0 < count → (∃ n, places.quantity? = some (.whole n)) →
      size { binary, places, suffix } (.int (-count)) = .ok ("-" ++ s)) := by
  obtain ⟨hu, height⟩ := unitsFor_isFamily binary
  obtain ⟨⟨⟩, hkey, htext⟩ := bind_ok h
  change sizeText (unitsFor binary) _ _ _ = _ at htext
  refine ⟨fun hsmall => ?_, fun hbase => ?_, fun hcount ⟨n, hn⟩ => ?_⟩
  · rw [sizeText_small hsmall] at htext
    obtain ⟨t, ht, rfl⟩ := map_ok htext
    rw [← (Value.toText_ok.mp ht).2]
  · have hscale := hu.isScale height hbase
    obtain ⟨r, hr, -, hindex⟩ := hscale.last
    have hletter := (hscale.onTheWay r hr).1.inside
    rw [hindex] at hletter
    rw [sizeText_scaled hbase] at htext
    split at htext
    · cases htext
    · next hfinite =>
      obtain ⟨-, l, hl, hlabel⟩ := Units.label_ok_iff.mp htext
      refine ⟨_, _, l, hscale, List.getElem?_eq_getElem hletter, layoutOf_ok hl, ?_, ?_⟩
      · exact Binary64.ofRatio_isNearest (Nat.pow_pos hu.positive) (eq_false_of_ne_true hfinite)
      · rw [List.getD_eq_getElem?_getD, List.getElem?_eq_getElem hletter, Option.getD_some] at hlabel
        exact hlabel
  · have hneg := sizeText_neg (fun l hl => FixedLayout.ofPlaces_whole hn (layoutOf_ok hl)) hcount htext
    change checkKey [.int (-count), binary, places, suffix] = .ok _ at hkey
    show (checkKey [.int (-count), binary, places, suffix] >>= _) = _
    rw [hkey]
    exact hneg

end Display

end TorrentRemote
