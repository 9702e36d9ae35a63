import TorrentRemote.Json.Reader
import TorrentRemote.Proofs.Except

/-!
# What the readers of JSON can do

Each reader takes a value off the front of its input and gives back what is left, or names a problem,
or refuses a whole number with too many digits. In the last case the digits stand in the input:
`readText_tooLong`. The fuel of a reader bounds its recursion and never its result: `readText_fuel`.
-/

namespace TorrentRemote.Json

/-- Somewhere in a text there is a whole number, with no fraction and no exponent, that has more digits
than it may. -/
def HasLongNumber (count : Nat) (cs : List Char) : Prop :=
  Numeral.digitLimit < count ∧ ∃ rest, rest <:+ cs ∧ (wholeDigits rest).length = count ∧
    fractionDigits (rest.drop count) = [] ∧ exponentPart? (rest.drop count) = none

theorem HasLongNumber.of_suffix {count : Nat} {cs cs' : List Char} (h : HasLongNumber count cs) (hs : cs <:+ cs') :
    HasLongNumber count cs' := by
  obtain ⟨hlimit, rest, hrest, hwhole⟩ := h
  exact ⟨hlimit, rest, hrest.trans hs, hwhole⟩

/-- What a reader may answer to an input. -/
inductive Reads {α : Type} (i : Input) : Except Fault (α × Input) → Prop
  | taken (a : α) {tail : Input} : tail.rest <:+ i.rest → Reads i (.ok (a, tail))
  | refused (position : Nat) (problem : Problem) : Reads i (.error (.at position problem))
  | tooLong {count : Nat} : HasLongNumber count i.rest → Reads i (.error (.tooManyDigits count))

namespace Reads

variable {α β : Type} {i j : Input} {x : Except Fault (α × Input)}

theorem of_suffix (h : Reads j x) (hs : j.rest <:+ i.rest) : Reads i x := by
  cases h with
  | taken a ht => exact .taken a (ht.trans hs)
  | refused position problem => exact .refused position problem
  | tooLong hl => exact .tooLong (hl.of_suffix hs)

theorem bind {f : α × Input → Except Fault (β × Input)} (h : Reads i x)
    (hf : ∀ a tail, tail.rest <:+ i.rest → Reads i (f (a, tail))) : Reads i (x >>= f) := by
  cases h with
  | taken a ht => exact hf a _ ht
  | refused position problem => exact .refused position problem
  | tooLong hl => exact .tooLong hl

theorem bind_congr {f g : α × Input → Except Fault (β × Input)} (hx : Reads i x)
    (h : ∀ a tail, tail.rest <:+ i.rest → f (a, tail) = g (a, tail)) : (x >>= f) = (x >>= g) := by
  cases hx with
  | taken a ht => exact h a _ ht
  | refused => rfl
  | tooLong => rfl

theorem map {f : α × Input → β × Input} (h : Reads i x) (hf : ∀ a tail, (f (a, tail)).2 = tail) :
    Reads i (x.map f) := by
  cases h with
  | @taken a tail ht => exact .taken (f (a, tail)).1 (by rw [hf]; exact ht)
  | refused position problem => exact .refused position problem
  | tooLong hl => exact .tooLong hl

end Reads

theorem drop_suffix (i : Input) (n : Nat) : (i.drop n).rest <:+ i.rest :=
  List.drop_suffix n i.rest

theorem skipSpaceFrom_suffix : ∀ (position : Nat) (cs : List Char), (skipSpaceFrom position cs).rest <:+ cs
  | _, [] => List.suffix_refl _
  | position, c :: cs => by
    rw [skipSpaceFrom]
    split
    · exact (skipSpaceFrom_suffix (position + 1) cs).trans (List.suffix_cons c cs)
    · exact List.suffix_refl _

theorem skipSpace_suffix (i : Input) : i.skipSpace.rest <:+ i.rest :=
  skipSpaceFrom_suffix i.position i.rest

theorem skip_suffix {i j : Input} (h : j.rest <:+ i.rest) : j.skipSpace.rest <:+ i.rest :=
  (skipSpace_suffix j).trans h

theorem step_suffix {i j : Input} (h : j.rest <:+ i.rest) (n : Nat) : (j.drop n).rest <:+ i.rest :=
  (drop_suffix j n).trans h

/-! ## Numbers -/

/-- The only way for a number to be refused for its length is a whole part that is too long. -/
theorem readNumber_reads (i : Input) : Reads i (readNumber i) := by
  unfold readNumber
  dsimp only
  have hbody : (if i.rest.head? = some '-' then i.drop 1 else i).rest <:+ i.rest := by
    split
    · exact drop_suffix i 1
    · exact List.suffix_refl _
  generalize (if i.rest.head? = some '-' then i.drop 1 else i) = body at hbody
  split
  · exact .refused _ _
  have hwhole := step_suffix hbody (wholeDigits body.rest).length
  generalize hafter : body.drop (wholeDigits body.rest).length = afterWhole at hwhole
  -- only a number with neither a fraction nor an exponent is read as a whole one
  split
  · next hfraction hexponent =>
    simp only [hfraction, List.isEmpty_nil, if_true] at hexponent
    split
    · next hlimit =>
      refine .tooLong ⟨hlimit, body.rest, hbody, rfl, ?_⟩
      rw [← hafter] at hfraction hexponent
      exact ⟨hfraction, hexponent⟩
    · exact .taken _ hwhole
  all_goals
    have hfraction : (if (fractionDigits afterWhole.rest).isEmpty then afterWhole
        else afterWhole.drop ((fractionDigits afterWhole.rest).length + 1)).rest <:+ i.rest := by
      split
      · exact hwhole
      · exact step_suffix hwhole _
  · exact .taken _ hfraction
  · exact .taken _ (step_suffix hfraction _)

theorem readAtom_reads (i : Input) : Reads i (readAtom i) := by
  unfold readAtom
  split
  · exact .taken _ (drop_suffix i _)
  · exact readNumber_reads i

/-! ## Strings -/

theorem readChars_reads (start : Nat) : ∀ (fuel : Nat) (i : Input), Reads i (readChars start fuel i)
  | 0, i => .refused _ _
  | fuel + 1, i => by
    have taken : ∀ (k : Nat) {f : List Char × Input → List Char × Input}, (∀ cs tail, (f (cs, tail)).2 = tail) →
        Reads i ((readChars start fuel (i.drop k)).map f) := fun k _ hf =>
      ((readChars_reads start fuel (i.drop k)).of_suffix (drop_suffix i k)).map hf
    unfold readChars
    split
    · exact .refused _ _
    · exact .taken _ (drop_suffix i 1)
    · exact .refused _ _
    · split
      · exact .refused _ _
      · dsimp only
        split
        · split
          · exact taken 6 fun _ _ => rfl
          · exact .refused _ _
          · split
            · exact taken 12 fun _ _ => rfl
            · exact taken 6 fun _ _ => rfl
        · exact taken 6 fun _ _ => rfl
    · split
      · exact .refused _ _
      · exact taken 2 fun _ _ => rfl
    · split
      · exact .refused _ _
      · exact taken 1 fun _ _ => rfl

theorem readString_reads (i : Input) : Reads i (readString i) :=
  ((readChars_reads i.position i.rest.length (i.drop 1)).of_suffix (drop_suffix i 1)).map fun _ _ => rfl

/-! ## Values -/

mutual

theorem readValue_reads : ∀ (fuel : Nat) (i : Input), Reads i (readValue fuel i)
  | 0, i => .refused _ _
  | fuel + 1, i => by
    have inner : (i.drop 1).skipSpace.rest <:+ i.rest := skip_suffix (drop_suffix i 1)
    unfold readValue
    split
    · exact (readString_reads i).map fun _ _ => rfl
    · dsimp only
      split
      · exact .taken _ (step_suffix inner 1)
      · exact ((readItems_reads fuel _).of_suffix inner).map fun _ _ => rfl
    · dsimp only
      split
      · exact .taken _ (step_suffix inner 1)
      · exact ((readEntries_reads fuel _).of_suffix inner).map fun _ _ => rfl
    · exact readAtom_reads i

theorem readItems_reads : ∀ (fuel : Nat) (i : Input), Reads i (readItems fuel i)
  | 0, i => .refused _ _
  | fuel + 1, i => by
    unfold readItems
    refine (readValue_reads fuel i).bind fun v afterValue hv => ?_
    have next := skip_suffix hv
    dsimp only
    split
    · exact .taken _ (step_suffix next 1)
    · refine ((readItems_reads fuel _).of_suffix (skip_suffix (step_suffix next 1))).bind fun vs tail hvs => ?_
      exact .taken _ hvs
    · exact .refused _ _

theorem readEntries_reads : ∀ (fuel : Nat) (i : Input), Reads i (readEntries fuel i)
  | 0, i => .refused _ _
  | fuel + 1, i => by
    unfold readEntries
    split
    · exact .refused _ _
    refine (readString_reads i).bind fun key afterKey hkey => ?_
    have colon := skip_suffix hkey
    dsimp only
    split
    · exact .refused _ _
    refine ((readValue_reads fuel _).of_suffix (skip_suffix (step_suffix colon 1))).bind fun v afterValue hv => ?_
    have next := skip_suffix hv
    dsimp only
    split
    · exact .taken _ (step_suffix next 1)
    · refine ((readEntries_reads fuel _).of_suffix (skip_suffix (step_suffix next 1))).bind fun entries tail ht => ?_
      exact .taken _ ht
    · exact .refused _ _

end

theorem readText_tooLong {cs : List Char} {count : Nat} (h : readText cs = .error (.tooManyDigits count)) :
    HasLongNumber count cs := by
  unfold readText at h
  have hv := readValue_reads (2 * cs.length + 2) (skipSpaceFrom 0 cs)
  cases hr : readValue (2 * cs.length + 2) (skipSpaceFrom 0 cs) with
  | ok taken =>
    -- after a value only what stands behind it can be wrong
    rw [hr] at h
    change (if _ then _ else _) = _ at h
    split at h <;> cases h
  | error fault =>
    rw [hr] at h hv
    cases h
    cases hv with
    | tooLong hl => exact hl.of_suffix (skipSpaceFrom_suffix 0 cs)

theorem parseChars_tooLong {cs : List Char} {count : Nat} (h : parseChars cs = .error (.tooManyDigits count)) :
    HasLongNumber count cs := by
  obtain ⟨fault, hread, hplace⟩ := mapError_error h
  cases fault with
  | «at» position problem => cases hplace
  | tooManyDigits n =>
    cases hplace
    exact readText_tooLong hread

/-! ## Fuel

The reader of values never runs out of fuel: more of it changes nothing. A value takes one unit and an item or
entry another one, and each of them takes a character off. -/

theorem length_drop_lt {i : Input} {c : Char} {cs : List Char} (h : i.rest = c :: cs) {n : Nat} (hn : 0 < n) :
    (i.drop n).rest.length < i.rest.length := by
  show (i.rest.drop n).length < _
  rw [List.length_drop, h, List.length_cons]
  omega

theorem length_inner {i : Input} {c : Char} {cs : List Char} (h : i.rest = c :: cs) :
    (i.drop 1).skipSpace.rest.length < i.rest.length :=
  Nat.lt_of_le_of_lt (skipSpace_suffix _).length_le (length_drop_lt h (by decide))

mutual

theorem readValue_fuel : ∀ (fuel : Nat) (i : Input), 2 * i.rest.length < fuel →
    readValue (fuel + 1) i = readValue fuel i
  | 0, i, h => by omega
  | fuel + 1, i, h => by
    rw [readValue]
    conv => rhs; rw [readValue]
    split
    · rfl
    · next hr =>
      have hinner := length_inner hr
      dsimp only
      rw [readItems_fuel fuel _ (by omega)]
    · next hr =>
      have hinner := length_inner hr
      dsimp only
      rw [readEntries_fuel fuel _ (by omega)]
    · rfl

theorem readItems_fuel : ∀ (fuel : Nat) (i : Input), 2 * i.rest.length + 1 < fuel →
    readItems (fuel + 1) i = readItems fuel i
  | 0, i, h => by omega
  | fuel + 1, i, h => by
    rw [readItems]
    conv => rhs; rw [readItems]
    rw [readValue_fuel fuel i (by omega)]
    refine (readValue_reads fuel i).bind_congr fun v afterValue hv => ?_
    dsimp only
    split
    · rfl
    · next hr =>
      have hinner := length_inner hr
      have hnext := (skip_suffix hv).length_le
      rw [readItems_fuel fuel _ (by omega)]
    · rfl

theorem readEntries_fuel : ∀ (fuel : Nat) (i : Input), 2 * i.rest.length + 1 < fuel →
    readEntries (fuel + 1) i = readEntries fuel i
  | 0, i, h => by omega
  | fuel + 1, i, h => by
    rw [readEntries]
    conv => rhs; rw [readEntries]
    split
    · rfl
    refine (readString_reads i).bind_congr fun key afterKey hkey => ?_
    dsimp only
    split
    · rfl
    have hvalue := skip_suffix (step_suffix (skip_suffix hkey) 1)
    rw [readValue_fuel fuel _ (by have := hvalue.length_le; omega)]
    refine ((readValue_reads fuel _).of_suffix hvalue).bind_congr fun v afterValue hv => ?_
    dsimp only
    split
    · rfl
    · next hr =>
      have hinner := length_inner hr
      have hnext := (skip_suffix hv).length_le
      rw [readEntries_fuel fuel _ (by omega)]
    · rfl

end

theorem readText_fuel (cs : List Char) {fuel : Nat} (h : 2 * cs.length + 2 ≤ fuel) : readText cs = (do
    let (v, tail) ← readValue fuel (skipSpaceFrom 0 cs)
    let rest := tail.skipSpace
    if rest.rest.isEmpty then return v else rest.fail .extraData) := by
  have hspace := (skipSpaceFrom_suffix 0 cs).length_le
  induction h with
  | refl => rfl
  | @step fuel hle ih => rw [readValue_fuel fuel _ (by have := Nat.le_of_succ_le hle; omega), ih]

/-! ## Long numbers -/

theorem wholeDigits_one {cs : List Char} (h : ∀ c ∈ cs, c.isDigit) : wholeDigits ('1' :: cs) = '1' :: cs := by
  have htake : ('1' :: cs ++ []).takeWhile Char.isDigit = '1' :: cs ++ [].takeWhile Char.isDigit :=
    List.takeWhile_append_of_pos (by simpa using h)
  simpa [wholeDigits, digits] using htake

theorem readNumber_one {cs : List Char} (h : ∀ c ∈ cs, c.isDigit) (hlimit : Numeral.digitLimit < cs.length + 1) :
    readNumber ⟨0, '1' :: cs⟩ = .error (.tooManyDigits (cs.length + 1)) := by
  have hnegative : ('1' :: cs).head? ≠ some '-' := by simp
  have hdrop : Input.drop ⟨0, '1' :: cs⟩ (cs.length + 1) = ⟨0 + (cs.length + 1), []⟩ := by simp [Input.drop]
  unfold readNumber
  simp only [hnegative, if_false, wholeDigits_one h, List.length_cons, hdrop, fractionDigits, exponentPart?,
    List.isEmpty_nil, if_true]
  rw [if_pos hlimit]

theorem readText_one {cs : List Char} (h : ∀ c ∈ cs, c.isDigit) (hlimit : Numeral.digitLimit < cs.length + 1) :
    readText ('1' :: cs) = .error (.tooManyDigits (cs.length + 1)) := by
  have hspace : skipSpaceFrom 0 ('1' :: cs) = ⟨0, '1' :: cs⟩ := by rfl
  have hvalue : ∀ fuel, readValue (fuel + 1) ⟨0, '1' :: cs⟩ = readNumber ⟨0, '1' :: cs⟩ := fun _ => by rfl
  rw [readText, hspace, hvalue, readNumber_one h hlimit]
  rfl

end TorrentRemote.Json
