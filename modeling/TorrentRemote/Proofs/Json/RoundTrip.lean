import TorrentRemote.Json.Writer
import TorrentRemote.Proofs.Json.Reader
import TorrentRemote.Proofs.Text.Utf8
import TorrentRemote.Proofs.Value.Tree

/-!
# Reading back what was written

A value without fractions has a JSON text (`write_stands`), and the text is read as the value (`Stands.readText`). Each
part of the text is read as what it was written for, whatever comes after it, and gives the rest back.
-/

namespace TorrentRemote.Json

/-- The reader has taken a value off and left the rest of the text, wherever that starts. -/
def Leaves {α : Type} (x : Except Fault (α × Input)) (a : α) (rest : List Char) : Prop :=
  ∃ position, x = .ok (a, ⟨position, rest⟩)

section
variable {α β : Type} {x : Except Fault (α × Input)} {a : α} {b : β} {rest rest' : List Char}

theorem Leaves.bind {f : α × Input → Except Fault (β × Input)} (h : Leaves x a rest)
    (hf : ∀ position, Leaves (f (a, ⟨position, rest⟩)) b rest') : Leaves (x >>= f) b rest' := by
  obtain ⟨position, rfl⟩ := h
  exact hf position

theorem Leaves.map {f : α × Input → β × Input} (h : Leaves x a rest)
    (hf : ∀ position, f (a, ⟨position, rest⟩) = (b, ⟨position, rest⟩)) : Leaves (x.map f) b rest := by
  obtain ⟨position, rfl⟩ := h
  exact ⟨position, congrArg _ (hf position)⟩

end

/-- What may stand behind a value: nothing that goes on with a number. -/
def Closed : List Char → Prop
  | [] => True
  | c :: _ => c = ',' ∨ c = ']' ∨ c = '\x7d'

theorem closed_comma (rest : List Char) : Closed (',' :: rest) := .inl rfl

theorem closed_bracket (rest : List Char) : Closed (']' :: rest) := .inr (.inl rfl)

theorem closed_brace (rest : List Char) : Closed ('\x7d' :: rest) := .inr (.inr rfl)

def Starts (cs : List Char) : Prop :=
  ∃ c tail, cs = c :: tail ∧ isSpace c = false ∧ c ≠ ']'

theorem Starts.skip {cs : List Char} (h : Starts cs) (position : Nat) (rest : List Char) :
    skipSpaceFrom position (cs ++ rest) = ⟨position, cs ++ rest⟩ := by
  obtain ⟨c, tail, rfl, hc, -⟩ := h
  simp [skipSpaceFrom, hc]

/-! ## Characters and strings -/

theorem hexNumber_control : ∀ n < 0x20, Text.hexNumber? (Text.hexDigits 4 n) = some n := by decide

theorem fourDigits_hexDigits (n : Nat) {rest : List Char} (hrest : rest ≠ []) :
    fourDigits? (Text.hexDigits 4 n ++ rest) = Text.hexNumber? (Text.hexDigits 4 n) := by
  have hlength : (Text.hexDigits 4 n).length = 4 := rfl
  rw [fourDigits?, List.drop_left' hlength, List.take_left' hlength, if_neg (by simpa using hrest)]

theorem readChars_plain {c : Char} (hquote : c ≠ '"') (hescape : c ≠ '\\') (hcontrol : ¬ c.toNat < 0x20)
    (start fuel position : Nat) (rest : List Char) :
    readChars start (fuel + 1) ⟨position, c :: rest⟩ =
      (readChars start fuel ⟨position + 1, rest⟩).map fun (cs, tail) => (c :: cs, tail) := by
  rw [readChars]
  split
  · next h => cases h
  · next h =>
    cases h
    exact absurd rfl hquote
  · next h =>
    cases h
    exact absurd rfl hescape
  · next h =>
    cases h
    exact absurd rfl hescape
  · next h =>
    cases h
    exact absurd rfl hescape
  · next h =>
    cases h
    rw [if_neg hcontrol]
    rfl

theorem readChars_control {c : Char} (hcontrol : c.toNat < 0x20) (start fuel position : Nat) {rest : List Char}
    (hrest : rest ≠ []) :
    readChars start (fuel + 1) ⟨position, '\\' :: 'u' :: (Text.hexDigits 4 c.toNat ++ rest)⟩ =
      (readChars start fuel ⟨position + 6, rest⟩).map fun (cs, tail) => (c :: cs, tail) := by
  have hhigh : Text.isHighHalf c.toNat = false := by
    simp only [Text.isHighHalf, Bool.and_eq_false_iff, decide_eq_false_iff_not]
    omega
  rw [readChars]
  simp only [fourDigits_hexDigits _ hrest, hexNumber_control _ hcontrol, hhigh, Text.charOfNumber_toNat]
  rfl

theorem readChars_writeChar (c : Char) (start fuel position : Nat) {rest : List Char} (hrest : rest ≠ []) :
    ∃ position', readChars start (fuel + 1) ⟨position, writeChar c ++ rest⟩ =
      (readChars start fuel ⟨position', rest⟩).map fun (cs, tail) => (c :: cs, tail) := by
  unfold writeChar
  split
  · next h => rcases h with rfl | rfl <;> exact ⟨position + 2, rfl⟩
  next hspecial =>
  obtain ⟨hquote, hescape⟩ := not_or.mp hspecial
  split
  · next h => exact h ▸ ⟨position + 2, rfl⟩
  split
  · next h => exact h ▸ ⟨position + 2, rfl⟩
  split
  · next h => exact h ▸ ⟨position + 2, rfl⟩
  split
  · next h => exact h ▸ ⟨position + 2, rfl⟩
  split
  · next h => exact h ▸ ⟨position + 2, rfl⟩
  split
  · next hcontrol => exact ⟨position + 6, readChars_control hcontrol start fuel position hrest⟩
  · next hcontrol => exact ⟨position + 1, readChars_plain hquote hescape hcontrol start fuel position rest⟩

theorem readChars_written (start : Nat) (rest : List Char) : ∀ (cs : List Char) (fuel position : Nat),
    cs.length < fuel → Leaves (readChars start fuel ⟨position, cs.flatMap writeChar ++ '"' :: rest⟩) cs rest
  | _, 0, _, hfuel => by omega
  | [], fuel + 1, position, _ => ⟨position + 1, rfl⟩
  | c :: cs, fuel + 1, position, hfuel => by
    have hne : cs.flatMap writeChar ++ '"' :: rest ≠ [] := by simp
    obtain ⟨position', hread⟩ := readChars_writeChar c start fuel position hne
    rw [List.flatMap_cons, List.append_assoc, hread]
    rw [List.length_cons] at hfuel
    exact (readChars_written start rest cs fuel position' (by omega)).map fun _ => rfl

theorem length_writeChar (c : Char) : 0 < (writeChar c).length := by
  unfold writeChar
  repeat' split
  all_goals simp

theorem length_written (cs : List Char) : cs.length ≤ (cs.flatMap writeChar).length := by
  induction cs with
  | nil => exact Nat.le_refl _
  | cons c cs ih =>
    have hpos := length_writeChar c
    rw [List.flatMap_cons, List.length_append, List.length_cons]
    omega

theorem toList_writeString (s : String) : (writeString s).toList = '"' :: (s.toList.flatMap writeChar ++ ['"']) := by
  rw [writeString, String.toList_ofList, List.cons_append]

theorem readString_written (s : String) (position : Nat) (rest : List Char) :
    Leaves (readString ⟨position, (writeString s).toList ++ rest⟩) s rest := by
  have hlength := length_written s.toList
  rw [toList_writeString, List.cons_append, List.append_assoc, List.singleton_append, readString]
  refine (readChars_written position rest s.toList _ (position + 1) ?_).map fun _ => ?_
  · rw [List.length_cons, List.length_append]
    omega
  · simp only [String.ofList_toList]

/-! ## Numbers -/

theorem digits_head {n : Nat} (hn : 0 < n) : ∃ c tail, Nat.toDigits 10 n = c :: tail ∧ c ≠ '0' := by
  induction n using Nat.strongRecOn with
  | ind n ih =>
    by_cases hsmall : n < 10
    · refine ⟨n.digitChar, [], Nat.toDigits_of_lt_base hsmall, ?_⟩
      have hdigit : ∀ m < 10, 0 < m → m.digitChar ≠ '0' := by decide
      exact hdigit n hsmall hn
    · obtain ⟨c, tail, htail, hc⟩ := ih (n / 10) (by omega) (by omega)
      refine ⟨c, tail ++ [(n % 10).digitChar], ?_, hc⟩
      rw [Nat.toDigits_of_base_le (by decide) (by omega), htail, List.cons_append]

theorem digits_isDigit {n : Nat} {c : Char} (h : c ∈ Nat.toDigits 10 n) : c.isDigit = true :=
  Nat.isDigit_of_mem_toDigits (by decide) (by decide) h

theorem Closed.no_digits {rest : List Char} (h : Closed rest) : digits rest = [] := by
  cases rest with
  | nil => rfl
  | cons c rest => rcases h with rfl | rfl | rfl <;> rfl

theorem Closed.no_fraction {rest : List Char} (h : Closed rest) : fractionDigits rest = [] := by
  cases rest with
  | nil => rfl
  | cons c rest => rcases h with rfl | rfl | rfl <;> rfl

theorem Closed.no_exponent {rest : List Char} (h : Closed rest) : exponentPart? rest = none := by
  cases rest with
  | nil => rfl
  | cons c rest => rcases h with rfl | rfl | rfl <;> rfl

theorem wholeDigits_written (n : Nat) {rest : List Char} (h : Closed rest) :
    wholeDigits (Nat.toDigits 10 n ++ rest) = Nat.toDigits 10 n := by
  by_cases hn : n = 0
  · subst hn
    rfl
  obtain ⟨c, tail, htail, hc⟩ := digits_head (Nat.pos_of_ne_zero hn)
  have htake : digits (Nat.toDigits 10 n ++ rest) = Nat.toDigits 10 n ++ digits rest :=
    List.takeWhile_append_of_pos fun d hd => digits_isDigit hd
  rw [h.no_digits, List.append_nil, htail] at htake
  rw [htail, List.cons_append, wholeDigits]
  · exact htake
  · intro tail' heq
    cases heq
    exact hc rfl

def signed (negative : Bool) (n : Nat) : List Char :=
  if negative then '-' :: Nat.toDigits 10 n else Nat.toDigits 10 n

theorem head_signed (negative : Bool) (n : Nat) (rest : List Char) :
    (signed negative n ++ rest).head? = some '-' ↔ negative = true := by
  cases negative with
  | true => simp [signed]
  | false =>
    cases hds : Nat.toDigits 10 n with
    | nil => exact absurd hds Nat.toDigits_ne_nil
    | cons c tail =>
      have hdigit : c.isDigit = true := digits_isDigit (hds ▸ List.mem_cons_self)
      simp only [signed, Bool.false_eq_true, if_false, hds, List.cons_append, List.head?_cons, Option.some.injEq,
        iff_false]
      rintro rfl
      cases hdigit

theorem readNumber_written (negative : Bool) {n : Nat} (hn : decimalLength n ≤ Numeral.digitLimit) (position : Nat)
    {rest : List Char} (hrest : Closed rest) :
    Leaves (readNumber ⟨position, signed negative n ++ rest⟩) (.int (if negative then -n else n)) rest := by
  have hbody : ∃ position', (if negative = true then Input.drop ⟨position, signed negative n ++ rest⟩ 1
      else ⟨position, signed negative n ++ rest⟩) = ⟨position', Nat.toDigits 10 n ++ rest⟩ := by
    cases negative
    · exact ⟨position, rfl⟩
    · exact ⟨position + 1, rfl⟩
  obtain ⟨position', hbody⟩ := hbody
  have hdrop : Input.drop ⟨position', Nat.toDigits 10 n ++ rest⟩ (Nat.toDigits 10 n).length =
      ⟨position' + (Nat.toDigits 10 n).length, rest⟩ := by
    rw [Input.drop, List.drop_left]
  have hlimit : ¬ (Nat.toDigits 10 n).length > Numeral.digitLimit := Nat.not_lt.mpr hn
  have hvalue : Numeral.digitsValue (Nat.toDigits 10 n) = n := Nat.ofDigitChars_ten_toDigits
  -- behind the digits there is no fraction and no exponent, so that the number is a whole one
  unfold readNumber
  simp only [head_signed, hbody, wholeDigits_written n hrest]
  split
  · next h => exact absurd h Nat.toDigits_ne_nil
  · simp only [hdrop, hrest.no_fraction, List.isEmpty_nil, if_true, hrest.no_exponent, hlimit, if_false, hvalue]
    exact ⟨_, rfl⟩

theorem toList_int (n : Int) : (toString n).toList = signed (decide (n < 0)) n.natAbs := by
  rw [Int.toString_eq_repr, Int.repr_eq_if]
  by_cases h : n < 0
  · have habs : (-n).toNat = n.natAbs := by omega
    rw [if_neg (by omega), String.toList_append, habs, Nat.toList_repr]
    simp [signed, h]
  · have habs : n.toNat = n.natAbs := by omega
    rw [if_pos (by omega), habs, Nat.toList_repr]
    simp [signed, h]

theorem readNumber_int {n : Int} (hn : Value.HasDigits n) (position : Nat) {rest : List Char} (hrest : Closed rest) :
    Leaves (readNumber ⟨position, (toString n).toList ++ rest⟩) (.int n) rest := by
  have hsign : (if decide (n < 0) = true then -(n.natAbs : Int) else n.natAbs) = n := by
    by_cases h : n < 0
    · simp only [h, decide_true, if_true]
      omega
    · simp only [h, decide_false, Bool.false_eq_true, if_false]
      omega
  have hread := readNumber_written (decide (n < 0)) hn position hrest
  rwa [hsign, ← toList_int] at hread

/-! ## Values -/

/-- The property holds of all fuel from some point on. -/
def Enough (p : Nat → Prop) : Prop :=
  ∃ least, ∀ fuel, least ≤ fuel → p fuel

section
variable {p q : Nat → Prop}

theorem Enough.mono (h : Enough p) (hpq : ∀ fuel, p fuel → q fuel) : Enough q := by
  obtain ⟨least, hp⟩ := h
  exact ⟨least, fun fuel hfuel => hpq fuel (hp fuel hfuel)⟩

theorem Enough.and (h : Enough p) (h' : Enough q) : Enough fun fuel => p fuel ∧ q fuel := by
  obtain ⟨least, hp⟩ := h
  obtain ⟨least', hq⟩ := h'
  exact ⟨max least least', fun fuel hfuel => ⟨hp fuel (by omega), hq fuel (by omega)⟩⟩

theorem Enough.step (h : Enough fun fuel => p (fuel + 1)) : Enough p := by
  obtain ⟨least, hp⟩ := h
  refine ⟨least + 1, fun fuel hfuel => ?_⟩
  obtain ⟨fuel, rfl⟩ : ∃ k, fuel = k + 1 := ⟨fuel - 1, by omega⟩
  exact hp fuel (by omega)

end

/-- With enough fuel the value is taken off any text that starts with the characters. -/
structure Stands (cs : List Char) (v : Value) : Prop where
  starts : Starts cs
  taken : Enough fun fuel => ∀ position rest, Closed rest → Leaves (readValue fuel ⟨position, cs ++ rest⟩) v rest

theorem Stands.of_fuel {cs : List Char} {v : Value} (hs : Starts cs) (h : ∀ fuel position rest, Closed rest →
    Leaves (readValue (fuel + 1) ⟨position, cs ++ rest⟩) v rest) : Stands cs v :=
  ⟨hs, Enough.step ⟨0, fun fuel _ => h fuel⟩⟩

theorem stands_null : Stands "null".toList .null :=
  .of_fuel ⟨'n', _, rfl, by decide, by decide⟩ fun _ position _ _ => ⟨position + 4, rfl⟩

theorem stands_bool (b : Bool) : Stands (writeBool b).toList (.bool b) := by
  cases b
  · exact .of_fuel ⟨'f', _, rfl, by decide, by decide⟩ fun _ position _ _ => ⟨position + 5, rfl⟩
  · exact .of_fuel ⟨'t', _, rfl, by decide, by decide⟩ fun _ position _ _ => ⟨position + 4, rfl⟩

theorem stands_text (s : String) : Stands (writeString s).toList (.text s) := by
  refine .of_fuel ⟨'"', _, toList_writeString s, by decide, by decide⟩ fun fuel position rest _ => ?_
  have hread := readString_written s position rest
  rw [toList_writeString] at hread ⊢
  exact hread.map fun _ => rfl

theorem digit_ne {c d : Char} (hc : c.isDigit = true) (hd : d.isDigit = false) : d ≠ c := by
  rintro rfl
  rw [hc] at hd
  cases hd

theorem digits_cons (n : Nat) : ∃ c tail, Nat.toDigits 10 n = c :: tail ∧ c.isDigit = true := by
  cases h : Nat.toDigits 10 n with
  | nil => exact absurd h Nat.toDigits_ne_nil
  | cons c tail => exact ⟨c, tail, rfl, digits_isDigit (h ▸ List.mem_cons_self)⟩

theorem signed_no_word (negative : Bool) (n : Nat) (rest : List Char) :
    words.find? (fun word => word.1.isPrefixOf (signed negative n ++ rest)) = none := by
  obtain ⟨c, tail, htail, hc⟩ := digits_cons n
  have hother : ∀ d ∈ ['n', 't', 'f', 'N', 'I', '-'], (d == c) = false := by
    have hdigit : (['n', 't', 'f', 'N', 'I', '-'].all fun d => !d.isDigit) = true := by rfl
    intro d hd
    simpa using digit_ne hc (by simpa using List.all_eq_true.mp hdigit d hd)
  simp only [List.forall_mem_cons] at hother
  cases negative <;> simp [words, signed, htail, List.isPrefixOf, hother]

theorem readValue_signed (negative : Bool) (n : Nat) (fuel position : Nat) (rest : List Char) :
    readValue (fuel + 1) ⟨position, signed negative n ++ rest⟩ = readNumber ⟨position, signed negative n ++ rest⟩ := by
  have hatom : readAtom ⟨position, signed negative n ++ rest⟩ = readNumber ⟨position, signed negative n ++ rest⟩ := by
    rw [readAtom, signed_no_word]
  rw [← hatom]
  obtain ⟨c, tail, htail, hc⟩ := digits_cons n
  cases negative with
  | true => rfl
  | false =>
    have hquote := digit_ne hc (show '"'.isDigit = false from rfl)
    have hbracket := digit_ne hc (show '['.isDigit = false from rfl)
    have hbrace := digit_ne hc (show '\x7b'.isDigit = false from rfl)
    simp only [signed, Bool.false_eq_true, if_false, htail, List.cons_append]
    rw [readValue]
    split
    · next h => exact absurd (List.cons.inj h).1.symm hquote
    · next h => exact absurd (List.cons.inj h).1.symm hbracket
    · next h => exact absurd (List.cons.inj h).1.symm hbrace
    · rfl

theorem stands_int {n : Int} (hn : Value.HasDigits n) : Stands (toString n).toList (.int n) := by
  refine .of_fuel ?_ fun fuel position rest hrest => ?_
  · obtain ⟨c, tail, htail, hc⟩ := digits_cons n.natAbs
    rw [toList_int, signed]
    split
    · exact ⟨'-', _, rfl, by decide, by decide⟩
    · have hspace : isSpace c = false := by
        have h1 := digit_ne hc (show ' '.isDigit = false from rfl)
        have h2 := digit_ne hc (show '\t'.isDigit = false from rfl)
        have h3 := digit_ne hc (show '\n'.isDigit = false from rfl)
        have h4 := digit_ne hc (show '\r'.isDigit = false from rfl)
        simp [isSpace, h1.symm, h2.symm, h3.symm, h4.symm]
      exact ⟨c, tail, htail, hspace, (digit_ne hc (show ']'.isDigit = false from rfl)).symm⟩
  · have hread := readNumber_int hn position hrest
    rw [toList_int] at hread ⊢
    rw [readValue_signed]
    exact hread

/-! ## Lists -/

theorem Starts.skip_comma {cs : List Char} (h : Starts cs) (position : Nat) (rest : List Char) :
    Input.skipSpace (Input.drop ⟨position, ',' :: ' ' :: (cs ++ rest)⟩ 1) = ⟨position + 2, cs ++ rest⟩ := by
  show skipSpaceFrom (position + 1) (' ' :: (cs ++ rest)) = _
  rw [skipSpaceFrom, if_pos (by decide), h.skip]

theorem Starts.append {cs : List Char} (h : Starts cs) (rest : List Char) : Starts (cs ++ rest) := by
  obtain ⟨c, tail, rfl, hc⟩ := h
  exact ⟨c, tail ++ rest, rfl, hc⟩

theorem toList_intercalate_cons {s : String} {ss : List String} (h : Starts (", ".intercalate ss).toList) :
    (", ".intercalate (s :: ss)).toList = s.toList ++ ',' :: ' ' :: (", ".intercalate ss).toList := by
  have hne : ss ≠ [] := by
    rintro rfl
    obtain ⟨c, tail, hnil, -⟩ := h
    simp at hnil
  rw [String.intercalate_cons_of_ne_nil hne, String.toList_append, String.toList_append, List.append_assoc]
  rfl

/-- Off the text the items are taken one by one, up to the closing bracket. -/
structure ItemsStand (cs : List Char) (vs : List Value) : Prop where
  starts : Starts cs
  taken : Enough fun fuel => ∀ position rest, Leaves (readItems fuel ⟨position, cs ++ ']' :: rest⟩) vs rest

theorem ItemsStand.last {cs : List Char} {v : Value} (h : Stands cs v) : ItemsStand cs [v] := by
  refine ⟨h.starts, Enough.step (h.taken.mono fun fuel htaken position rest => ?_)⟩
  rw [readItems]
  exact (htaken position _ (closed_bracket rest)).bind fun position' => ⟨position' + 1, rfl⟩

theorem ItemsStand.more {cs cs' : List Char} {v : Value} {vs : List Value} (h : Stands cs v) (hs : ItemsStand cs' vs) :
    ItemsStand (cs ++ ',' :: ' ' :: cs') (v :: vs) := by
  refine ⟨h.starts.append _, Enough.step ((h.taken.and hs.taken).mono fun fuel htaken position rest => ?_)⟩
  obtain ⟨hfirst, hrest⟩ := htaken
  have hskip := hs.starts.skip_comma
  rw [List.append_assoc, List.cons_append, List.cons_append, readItems]
  refine (hfirst position (',' :: ' ' :: (cs' ++ ']' :: rest)) (closed_comma _)).bind fun position' => ?_
  have hnext : Input.skipSpace ⟨position', ',' :: ' ' :: (cs' ++ ']' :: rest)⟩ =
      ⟨position', ',' :: ' ' :: (cs' ++ ']' :: rest)⟩ := rfl
  simp only [hnext, hskip]
  exact (hrest (position' + 2) rest).bind fun position'' => ⟨position'', rfl⟩

theorem stands_empty_list : Stands "[]".toList (.list []) :=
  .of_fuel ⟨'[', _, rfl, by decide, by decide⟩ fun _ position _ _ => ⟨position + 2, rfl⟩

theorem ItemsStand.list {cs : List Char} {vs : List Value} (h : ItemsStand cs vs) :
    Stands ('[' :: cs ++ [']']) (.list vs) := by
  have hstarts : Starts ('[' :: cs ++ [']']) := ⟨'[', _, rfl, by decide, by decide⟩
  refine ⟨hstarts, Enough.step (h.taken.mono fun fuel htaken position rest hrest => ?_)⟩
  obtain ⟨c, tail, hcs, hspace, hbracket⟩ := h.starts
  have hinner : Input.skipSpace (Input.drop ⟨position, '[' :: (cs ++ ']' :: rest)⟩ 1) =
      ⟨position + 1, cs ++ ']' :: rest⟩ := h.starts.skip (position + 1) _
  have hhead : (cs ++ ']' :: rest).head? ≠ some ']' := by
    rw [hcs]
    simpa using hbracket
  rw [List.cons_append, List.cons_append, List.append_assoc, List.singleton_append, readValue]
  simp only [hinner, hhead, if_false]
  exact (htaken (position + 1) rest).map fun _ => rfl

/-! ## Mappings -/

structure EntriesStand (cs : List Char) (fields : List (String × Value)) : Prop where
  starts : ∃ tail, cs = '"' :: tail
  taken : Enough fun fuel => ∀ position rest, Leaves (readEntries fuel ⟨position, cs ++ '\x7d' :: rest⟩) fields rest

def entryText (key : String) (cs : List Char) : List Char :=
  (writeString key).toList ++ ':' :: ' ' :: cs

theorem entry_starts (key : String) (cs : List Char) : ∃ tail, entryText key cs = '"' :: tail := by
  rw [entryText, toList_writeString]
  exact ⟨_, rfl⟩

theorem starts_of_quote {cs : List Char} (h : ∃ tail, cs = '"' :: tail) : Starts cs := by
  obtain ⟨tail, rfl⟩ := h
  exact ⟨'"', tail, rfl, by decide, by decide⟩

/-- What `readEntries` does behind an entry. -/
def readBehind (fuel : Nat) (entry : String × Value) (i : Input) : Except Fault (List (String × Value) × Input) :=
  match i.skipSpace.rest with
  | '\x7d' :: _ => .ok ([entry], i.skipSpace.drop 1)
  | ',' :: _ => do
    let (entries, tail) ← readEntries fuel (i.skipSpace.drop 1).skipSpace
    return (entry :: entries, tail)
  | _ => i.skipSpace.fail .expectingComma

theorem readEntries_entry (key : String) {cs : List Char} {v : Value} (h : Stands cs v) :
    Enough fun fuel => ∀ position rest, Closed rest → ∃ position',
      readEntries (fuel + 1) ⟨position, entryText key cs ++ rest⟩ = readBehind fuel (key, v) ⟨position', rest⟩ := by
  refine h.taken.mono fun fuel htaken position rest hrest => ?_
  obtain ⟨position₁, hkey⟩ := readString_written key position (':' :: ' ' :: (cs ++ rest))
  obtain ⟨position₂, hvalue⟩ := htaken (position₁ + 2) rest hrest
  have hhead : (entryText key cs ++ rest).head? = some '"' := by
    obtain ⟨tail, htail⟩ := entry_starts key cs
    rw [htail]
    rfl
  have hcolon : Input.skipSpace ⟨position₁, ':' :: ' ' :: (cs ++ rest)⟩ = ⟨position₁, ':' :: ' ' :: (cs ++ rest)⟩ := rfl
  have hbehind : Input.skipSpace (Input.drop ⟨position₁, ':' :: ' ' :: (cs ++ rest)⟩ 1) =
      ⟨position₁ + 2, cs ++ rest⟩ := by
    show skipSpaceFrom (position₁ + 1) (' ' :: (cs ++ rest)) = _
    rw [skipSpaceFrom, if_pos (by decide), h.starts.skip]
  refine ⟨position₂, ?_⟩
  rw [readEntries]
  simp only [hhead, ne_eq, not_true_eq_false, if_false]
  rw [entryText, List.append_assoc, List.cons_append, List.cons_append, hkey, ok_bind]
  simp only [hcolon, List.head?_cons, not_true_eq_false, if_false, hbehind, hvalue]
  rfl

theorem EntriesStand.last (key : String) {cs : List Char} {v : Value} (h : Stands cs v) :
    EntriesStand (entryText key cs) [(key, v)] := by
  refine ⟨entry_starts key cs, Enough.step ((readEntries_entry key h).mono fun fuel hentry position rest => ?_)⟩
  obtain ⟨position', hread⟩ := hentry position _ (closed_brace rest)
  rw [hread]
  exact ⟨position' + 1, rfl⟩

theorem EntriesStand.more (key : String) {cs cs' : List Char} {v : Value} {fields : List (String × Value)}
    (h : Stands cs v) (hs : EntriesStand cs' fields) :
    EntriesStand (entryText key cs ++ ',' :: ' ' :: cs') ((key, v) :: fields) := by
  obtain ⟨tail, htail⟩ := entry_starts key cs
  refine ⟨⟨_, by rw [htail, List.cons_append]⟩, ?_⟩
  refine Enough.step (((readEntries_entry key h).and hs.taken).mono fun fuel htaken position rest => ?_)
  obtain ⟨hentry, hrest⟩ := htaken
  have hskip := (starts_of_quote hs.starts).skip_comma
  rw [List.append_assoc, List.cons_append, List.cons_append]
  obtain ⟨position', hread⟩ := hentry position _ (closed_comma (' ' :: (cs' ++ '\x7d' :: rest)))
  have hnext : Input.skipSpace ⟨position', ',' :: ' ' :: (cs' ++ '\x7d' :: rest)⟩ =
      ⟨position', ',' :: ' ' :: (cs' ++ '\x7d' :: rest)⟩ := rfl
  rw [hread, readBehind]
  simp only [hnext, hskip]
  exact (hrest (position' + 2) rest).bind fun position'' => ⟨position'', rfl⟩

theorem putEntry_new {key : String} {v : Value} : ∀ {es : List (Value × Value)}, (∀ e ∈ es, e.1.text? ≠ some key) →
    putEntry key v es = es ++ [(.text key, v)]
  | [], _ => rfl
  | (k, w) :: es, h => by
    rw [putEntry, if_neg (h _ List.mem_cons_self), putEntry_new fun e he => h e (List.mem_cons_of_mem _ he)]
    rfl

theorem collect_distinct {fields : List (String × Value)} (h : (fields.map Prod.fst).Nodup) :
    collect fields = fields.map fun f => (.text f.1, f.2) := by
  have hfold : ∀ (fields : List (String × Value)) (out : List (Value × Value)), (fields.map Prod.fst).Nodup →
      (∀ f ∈ fields, ∀ e ∈ out, e.1.text? ≠ some f.1) →
      fields.foldl (fun out f => putEntry f.1 f.2 out) out = out ++ fields.map fun f => (.text f.1, f.2) := by
    -- what has been put in stays apart from the keys still to come
    intro fields
    induction fields with
    | nil =>
      intro out _ _
      exact (List.append_nil out).symm
    | cons f fields ih =>
      intro out hn hnew
      obtain ⟨hfresh, hn⟩ := List.nodup_cons.mp hn
      have hput : putEntry f.1 f.2 out = out ++ [(.text f.1, f.2)] := putEntry_new (hnew f List.mem_cons_self)
      rw [List.foldl_cons, hput, ih _ hn, List.append_assoc]
      · rfl
      · intro g hg e he
        rcases List.mem_append.mp he with he | he
        · exact hnew g (List.mem_cons_of_mem _ hg) e he
        · rw [List.mem_singleton.mp he]
          intro heq
          exact hfresh (List.mem_map.mpr ⟨g, hg, (Option.some.inj heq).symm⟩)
  exact hfold fields [] h (by simp)

theorem stands_empty_mapping : Stands "\x7b\x7d".toList (.mapping []) :=
  .of_fuel ⟨'\x7b', _, rfl, by decide, by decide⟩ fun _ position _ _ => ⟨position + 2, rfl⟩

theorem EntriesStand.mapping {cs : List Char} {fields : List (String × Value)} (h : EntriesStand cs fields)
    (hn : (fields.map Prod.fst).Nodup) : Stands ('\x7b' :: cs ++ ['\x7d']) (Value.ofFields fields) := by
  have hstarts : Starts ('\x7b' :: cs ++ ['\x7d']) := ⟨'\x7b', _, rfl, by decide, by decide⟩
  refine ⟨hstarts, Enough.step (h.taken.mono fun fuel htaken position rest hrest => ?_)⟩
  have hinner : Input.skipSpace (Input.drop ⟨position, '\x7b' :: (cs ++ '\x7d' :: rest)⟩ 1) =
      ⟨position + 1, cs ++ '\x7d' :: rest⟩ := (starts_of_quote h.starts).skip (position + 1) _
  have hhead : (cs ++ '\x7d' :: rest).head? ≠ some '\x7d' := by
    obtain ⟨tail, rfl⟩ := h.starts
    simp
  rw [List.cons_append, List.cons_append, List.append_assoc, List.singleton_append, readValue]
  simp only [hinner, hhead, if_false]
  refine (htaken (position + 1) rest).map fun _ => ?_
  simp only [collect_distinct hn]
  rfl

/-! ## Whole texts -/

theorem writeAll_stands : ∀ {v : Value} {vs : List Value}, (∀ w ∈ v :: vs, ∃ s, write w = .ok s ∧ Stands s.toList w) →
    ∃ ss, writeAll (v :: vs) = .ok ss ∧ ItemsStand (", ".intercalate ss).toList (v :: vs)
  | v, [], h => by
    obtain ⟨s, hs, hstands⟩ := h v List.mem_cons_self
    refine ⟨[s], by rw [writeAll, hs]; rfl, ?_⟩
    rw [String.intercalate_singleton]
    exact .last hstands
  | v, w :: vs, h => by
    obtain ⟨s, hs, hstands⟩ := h v List.mem_cons_self
    obtain ⟨ss, hss, hrest⟩ := writeAll_stands fun x hx => h x (List.mem_cons_of_mem _ hx)
    refine ⟨s :: ss, by rw [writeAll, hs, hss]; rfl, ?_⟩
    rw [toList_intercalate_cons hrest.starts]
    exact .more hstands hrest

theorem toList_entry (key s : String) : (writeString key ++ ": " ++ s).toList = entryText key s.toList := by
  rw [String.toList_append, String.toList_append, List.append_assoc, entryText]
  rfl

theorem writeEntries_stand : ∀ {f : String × Value} {fields : List (String × Value)},
    (∀ g ∈ f :: fields, ∃ s, write g.2 = .ok s ∧ Stands s.toList g.2) →
    ∃ ss, writeEntries ((f :: fields).map fun g => (.text g.1, g.2)) = .ok ss ∧
      EntriesStand (", ".intercalate ss).toList (f :: fields)
  | (key, v), [], h => by
    obtain ⟨s, hs, hstands⟩ := h _ List.mem_cons_self
    refine ⟨[writeString key ++ ": " ++ s], by rw [List.map_cons, writeEntries, keyText, hs]; rfl, ?_⟩
    rw [String.intercalate_singleton, toList_entry]
    exact .last key hstands
  | (key, v), g :: fields, h => by
    obtain ⟨s, hs, hstands⟩ := h _ List.mem_cons_self
    obtain ⟨ss, hss, hrest⟩ := writeEntries_stand fun x hx => h x (List.mem_cons_of_mem _ hx)
    refine ⟨(writeString key ++ ": " ++ s) :: ss, by rw [List.map_cons, writeEntries, keyText, hs, hss]; rfl, ?_⟩
    rw [toList_intercalate_cons (starts_of_quote hrest.starts), toList_entry]
    exact .more key hstands hrest

/-- An object that is not empty has a text, which starts with two ASCII characters. -/
theorem write_fields {fields : List (String × Value)} (hne : fields ≠ []) (hn : (fields.map Prod.fst).Nodup)
    (h : ∀ f ∈ fields, ∃ s, write f.2 = .ok s ∧ Stands s.toList f.2) :
    ∃ s tail, write (Value.ofFields fields) = .ok s ∧ s.toList = '\x7b' :: '"' :: tail ∧
      Stands s.toList (Value.ofFields fields) := by
  obtain ⟨f, fields, rfl⟩ := List.exists_cons_of_ne_nil hne
  obtain ⟨ss, hss, hstands⟩ := writeEntries_stand h
  obtain ⟨tail, htail⟩ := hstands.starts
  have htext : ("\x7b" ++ ", ".intercalate ss ++ "\x7d").toList =
      '\x7b' :: (", ".intercalate ss).toList ++ ['\x7d'] := by
    rw [String.toList_append, String.toList_append]
    rfl
  refine ⟨_, tail ++ ['\x7d'], ?_, ?_, htext ▸ hstands.mapping hn⟩
  · have hwrite : write (Value.ofFields (f :: fields)) =
        (writeEntries ((f :: fields).map fun g => (.text g.1, g.2))).map
          fun ss => "\x7b" ++ ", ".intercalate ss ++ "\x7d" := by
      rw [Value.ofFields, write]
      exact bind_pure_eq_map _ _
    rw [hwrite, hss]
    rfl
  · rw [htext, htail]
    rfl

theorem write_stands {v : Value} (h : v.IsExact) : ∃ s, write v = .ok s ∧ Stands s.toList v := by
  induction h with
  | @leaf v h =>
    cases v with
    | null => exact ⟨_, rfl, stands_null⟩
    | bool b => exact ⟨_, rfl, stands_bool b⟩
    | text s => exact ⟨_, rfl, stands_text s⟩
    | int n =>
      have hlimit : ¬ decimalLength n.natAbs > Numeral.digitLimit := Nat.not_lt.mpr h
      exact ⟨toString n, by rw [write, writeInt, if_neg hlimit], stands_int h⟩
    | _ => cases h
  | @list vs _ ih =>
    cases vs with
    | nil => exact ⟨_, rfl, stands_empty_list⟩
    | cons v vs =>
      obtain ⟨ss, hss, hstands⟩ := writeAll_stands ih
      have htext : ("[" ++ ", ".intercalate ss ++ "]").toList = '[' :: (", ".intercalate ss).toList ++ [']'] := by
        rw [String.toList_append, String.toList_append]
        rfl
      refine ⟨_, ?_, htext ▸ hstands.list⟩
      rw [write, hss]
      rfl
  | @mapping fields hn _ ih =>
    by_cases hne : fields = []
    · subst hne
      exact ⟨_, rfl, stands_empty_mapping⟩
    · obtain ⟨s, -, hs, -, hstands⟩ := write_fields hne hn ih
      exact ⟨s, hs, hstands⟩

theorem Stands.readText {cs : List Char} {v : Value} (h : Stands cs v) : readText cs = .ok v := by
  obtain ⟨least, htaken⟩ := h.taken
  obtain ⟨position, hread⟩ := htaken (max least (2 * cs.length + 2)) (by omega) 0 [] trivial
  have hskip : skipSpaceFrom 0 cs = ⟨0, cs⟩ := by simpa using h.starts.skip 0 []
  rw [List.append_nil] at hread
  rw [readText_fuel cs (Nat.le_max_right least _), hskip, hread]
  rfl

end TorrentRemote.Json
