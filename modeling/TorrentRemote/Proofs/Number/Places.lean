import TorrentRemote.Number.FixedLayout
import TorrentRemote.Proofs.Except
import TorrentRemote.Proofs.Json.RoundTrip

/-!
# Texts of numbers with fixed places

A layout that only gives a count of places sets a number as its sign and its rounded magnitude, whose text reads as the
whole number of last places that it was rounded to: `set_finite` and `reads_placed`.
-/

namespace TorrentRemote

namespace Binary64

/-- A text is a number with some places: a point stands in front of the last ones, if there are any, and without it the
text is the number of last places in decimal digits. -/
def Reads (text : String) (places digits : Nat) : Prop :=
  ∃ whole fraction, text.toList = whole ++ (if places = 0 then [] else '.' :: fraction) ∧ whole ≠ [] ∧
    fraction.length = places ∧ (∀ c ∈ whole ++ fraction, c.isDigit = true) ∧
    Nat.ofDigitChars 10 (whole ++ fraction) 0 = digits

theorem reads_placed (places digits : Nat) : Reads (placed places digits) places digits := by
  unfold placed
  generalize hpadded : List.replicate (places + 1 - (Nat.toDigits 10 digits).length) '0' ++ Nat.toDigits 10 digits =
    padded
  have hlength : places < padded.length := by
    rw [← hpadded, List.length_append, List.length_replicate]
    omega
  refine ⟨padded.take (padded.length - places), padded.drop (padded.length - places), ?_, ?_, ?_, ?_, ?_⟩
  · rw [String.toList_ofList, hpadded]
  · intro hnil
    have := congrArg List.length hnil
    rw [List.length_take, List.length_nil] at this
    omega
  · rw [List.length_drop]
    omega
  · rw [List.take_append_drop, ← hpadded]
    intro c hc
    rcases List.mem_append.mp hc with hc | hc
    · rw [List.eq_of_mem_replicate hc]
      rfl
    · exact Json.digits_isDigit hc
  · rw [List.take_append_drop, ← hpadded, Nat.ofDigitChars_append, Nat.ofDigitChars_replicate_zero, Nat.mul_zero,
      Nat.ofDigitChars_ten_toDigits]

end Binary64

namespace FixedLayout

theorem set_places (places : Nat) (x : Binary64) :
    set { places } x = (if x.isNegative then "-" else "") ++ x.abs.fixed places := by
  have hbody : body { places } x.abs = (x.abs.fixed places).toList := by
    unfold body
    simp
  have hfront : front { places } x = (if x.isNegative then "-" else "" : String).toList := by
    unfold front
    cases x.isNegative <;> simp
  apply String.toList_injective
  rw [set, String.toList_ofList, fill, hbody, hfront, String.toList_append]

theorem set_finite (places : Nat) {negative : Bool} {rank : Fin (Binary64.topRank + 1)}
    (h : rank.val ≠ Binary64.topRank) :
    set { places } (.ranked negative rank) = (if negative then "-" else "") ++
      Binary64.placed places ((Binary64.ranked negative rank).lastPlaces places) := by
  rw [set_places, Binary64.abs, Binary64.fixed, if_neg h]
  cases negative <;> simp [Binary64.isNegative, Binary64.lastPlaces, Binary64.magnitude]

/-! ## Counts of places -/

section
variable {ds rest : List Char} (hds : ∀ c ∈ ds, c.isDigit = true)
include hds

theorem decimalValue_digit {c : Char} (h : c ∈ ds) : Text.decimalValue? c = some (c.toNat - 48) := by
  have hdigit := hds c h
  have hle : c.toNat ≤ 57 := (Char.isDigit_iff_toNat.mp hdigit).2
  unfold Text.decimalValue?
  rw [if_pos (by omega), if_pos hdigit]

theorem filterMap_digits : ds.filterMap Text.decimalValue? = ds.map fun c => c.toNat - 48 := by
  rw [← List.filterMap_eq_map]
  exact List.filterMap_congr fun c hc => decimalValue_digit hds hc

theorem takeNumber_digits (hne : ds ≠ []) (hrest : ∀ c, rest.head? = some c → Text.decimalValue? c = none) :
    takeNumber (ds ++ rest) =
      if Nat.ofDigitChars 10 ds 0 > numberLimit then .error .tooManyDigits
      else .ok (some (Nat.ofDigitChars 10 ds 0), rest) := by
  have htake : (ds ++ rest).takeWhile (fun c => (Text.decimalValue? c).isSome) = ds := by
    have hnone : rest.takeWhile (fun c => (Text.decimalValue? c).isSome) = [] := by
      cases rest with
      | nil => rfl
      | cons c rest => rw [List.takeWhile_cons_of_neg (by simp [hrest c rfl])]
    rw [List.takeWhile_append_of_pos fun c hc => by rw [decimalValue_digit hds hc]; rfl, hnone, List.append_nil]
  have hvalue : (ds.map fun c => c.toNat - 48).foldl (fun n d => 10 * n + d) 0 = Nat.ofDigitChars 10 ds 0 := by
    rw [Nat.ofDigitChars_eq_foldl, List.foldl_map]
    rfl
  unfold takeNumber
  simp only [htake, filterMap_digits hds, hvalue, List.isEmpty_map, List.length_map, List.drop_left,
    List.isEmpty_eq_false_iff.mpr hne]
  rfl

end

theorem alignment_digit {c : Char} (h : c.isDigit = true) : alignment? c = none := by
  unfold alignment?
  split
  case h_5 => rfl
  all_goals cases h

/-- A layout that starts with the point has nothing in front of the count of places. -/
theorem readAligned_point (text : String) (align : Option Alignment) (cs : List Char) :
    readAligned text align ('.' :: cs) = takePlaces ('.' :: cs) >>= fun (places, rest) =>
      if rest.length > 1 then .error (.malformed text)
      else if places.any (· > placesLimit) then .error .tooManyPlaces
      else .ok { align, places := places.getD 6 } := by
  have hnumber : takeNumber ('.' :: cs) = .ok (none, '.' :: cs) := rfl
  unfold readAligned
  show (takeNumber ('.' :: cs) >>= _) = _
  rw [hnumber]
  show (takePlaces ('.' :: cs) >>= _) = _
  rcases takePlaces ('.' :: cs) with e | ⟨places, rest⟩
  · rfl
  · rw [ok_bind, ok_bind]
    dsimp only
    by_cases hlength : rest.length > 1
    · rw [if_pos hlength, if_pos hlength]
      rfl
    · rw [if_neg hlength, if_neg hlength]
      by_cases hmany : places.any (· > placesLimit) = true
      · rw [if_pos hmany, if_pos hmany]
        rfl
      · rw [if_neg hmany, if_neg hmany]
        rfl

/-- A count of places that is written in decimal digits gives a layout with nothing else. -/
theorem ofPlaces_ok {places : Nat} {l : FixedLayout} (h : ofPlaces (toString places) = .ok l) : l = { places } := by
  have htext : (toString places).toList = Nat.toDigits 10 places := by
    rw [Nat.toString_eq_ofList_toDigits, String.toList_ofList]
  have hread : ofPlaces (toString places) = readAligned ("." ++ toString places ++ "f") none
      ('.' :: (Nat.toDigits 10 places ++ ['f'])) := by
    obtain ⟨c, tail, htail, hc⟩ := Json.digits_cons places
    unfold ofPlaces
    simp only [String.toList_append, htext, htail, alignment_digit hc]
    rfl
  have hnumber : takeNumber (Nat.toDigits 10 places ++ ['f']) =
      if places > numberLimit then .error .tooManyDigits else .ok (some places, ['f']) := by
    rw [takeNumber_digits (fun c hc => Json.digits_isDigit hc) Nat.toDigits_ne_nil (by rintro c ⟨⟩; rfl),
      Nat.ofDigitChars_ten_toDigits]
  have hplaces : takePlaces ('.' :: (Nat.toDigits 10 places ++ ['f'])) =
      if places > numberLimit then .error .tooManyDigits else .ok (some places, ['f']) := by
    show (takeNumber (Nat.toDigits 10 places ++ ['f']) >>= _) = _
    rw [hnumber]
    split <;> rfl
  rw [hread, readAligned_point, hplaces] at h
  split at h
  · cases h
  · rw [ok_bind] at h
    dsimp only at h
    split at h
    · cases h
    · split at h
      · cases h
      · exact (Except.ok.inj h).symm

/-- Without a mark in front, nothing but the count of places is read. -/
theorem ofPlaces_unaligned {s : String} {l : FixedLayout} (hs : ∀ c, s.toList.head? = some c → alignment? c = none)
    (h : ofPlaces s = .ok l) : ∃ places, l = { places } := by
  have hread : ofPlaces s = readAligned ("." ++ s ++ "f") none ('.' :: (s.toList ++ ['f'])) := by
    have htext : ("." ++ s ++ "f").toList = '.' :: (s.toList ++ ['f']) := by simp [String.toList_append]
    unfold ofPlaces
    dsimp only
    rw [htext]
    cases hlist : s.toList with
    | nil => rfl
    | cons c rest =>
      dsimp only
      rw [hs c (by rw [hlist, List.head?_cons])]
  rw [hread, readAligned_point] at h
  obtain ⟨⟨places, rest⟩, -, h⟩ := bind_ok h
  dsimp only at h
  split at h
  · cases h
  · split at h
    · cases h
    · exact ⟨_, (Except.ok.inj h).symm⟩

theorem alignment_int {n : Int} {c : Char} (h : (toString n).toList.head? = some c) : alignment? c = none := by
  have hnat : ∀ m : Nat, (toString m).toList.head? = some c → alignment? c = none := by
    intro m hm
    obtain ⟨d, tail, htail, hd⟩ := Json.digits_cons m
    rw [Nat.toString_eq_ofList_toDigits, String.toList_ofList, htail] at hm
    cases hm
    exact alignment_digit hd
  cases n with
  | ofNat m => exact hnat m h
  | negSucc m =>
    rw [show toString (Int.negSucc m) = "-" ++ toString (m + 1) from rfl, String.toList_append] at h
    cases h
    rfl

end FixedLayout

end TorrentRemote
