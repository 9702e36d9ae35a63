import TorrentRemote.Text.Utf8

/-!
# Reading text back from UTF-8

The bytes of a text are those of its characters one after the other, and they are read as the same
characters (`decode_encode`). No character of a text is a surrogate, so it does not matter whether these
are allowed.
-/

namespace TorrentRemote.Text

theorem charOfNumber_toNat (c : Char) : charOfNumber c.toNat = c := by
  have hvalid : c.toNat.isValidChar := c.valid
  simp only [charOfNumber, hvalid, if_true, Char.ofNat_toNat]

namespace Utf8

/-! ## Bytes of a text -/

theorem toList_loop (bs : ByteArray) (i : Nat) (r : List UInt8) :
    ByteArray.toList.loop bs i r = r.reverse ++ bs.data.toList.drop i := by
  fun_induction ByteArray.toList.loop bs i r with
  | case1 i r hi ih =>
    have hlt : i < bs.data.toList.length := by simpa using hi
    have hget : bs.get! i = bs.data.toList[i] := getElem!_pos bs.data i (by simpa using hi)
    rw [ih, List.drop_eq_getElem_cons hlt, hget]
    simp
  | case2 i r hi =>
    have hle : bs.data.toList.length ≤ i := by simpa using hi
    rw [List.drop_eq_nil_of_le hle, List.append_nil]

theorem encode_eq (s : String) : encode s = s.toList.flatMap String.utf8EncodeChar := by
  show s.toByteArray.toList = _
  rw [ByteArray.toList, toList_loop, ← String.utf8Encode_toList, List.utf8Encode, List.data_toByteArray]
  simp

/-! ## One character -/

section
variable {low high bits width owed : Nat} {n : Nat} {rest : List UInt8}

theorem follow_last : follow bits width 0 low high rest = .char (charOfNumber bits) width := by
  rw [follow]

theorem follow_more (hn : n < 256) (hlow : low ≤ n) (hhigh : n ≤ high) :
    follow bits width (owed + 1) low high (UInt8.ofNat n :: rest) =
      follow (bits * 64 + (n - 0x80)) (width + 1) owed 0x80 0xBF rest := by
  have hbyte : (UInt8.ofNat n).toNat = n := by simpa using hn
  rw [follow, hbyte, if_pos ⟨hlow, hhigh⟩]

theorem front_lead (hn : n < 256) {lead : Lead} (h : lead? n = some lead) :
    front (UInt8.ofNat n :: rest) = follow lead.bits 1 lead.owed lead.low lead.high rest := by
  have hbyte : (UInt8.ofNat n).toNat = n := by simpa using hn
  rw [front, hbyte, h]

end

theorem lead_two {n : Nat} (hlow : 0xC2 ≤ n) (hhigh : n < 0xE0) : lead? n = some ⟨n - 0xC0, 1, 0x80, 0xBF⟩ := by
  have h1 : ¬ n < 0x80 := by omega
  have h2 : ¬ n < 0xC2 := by omega
  simp only [lead?, h1, h2, hhigh, if_false, if_true]

theorem lead_three {n : Nat} (hlow : 0xE0 ≤ n) (hhigh : n < 0xF0) :
    lead? n = some ⟨n - 0xE0, 2, if n = 0xE0 then 0xA0 else 0x80, if n = 0xED then 0x9F else 0xBF⟩ := by
  have h1 : ¬ n < 0x80 := by omega
  have h2 : ¬ n < 0xC2 := by omega
  have h3 : ¬ n < 0xE0 := by omega
  by_cases hfirst : n = 0xE0
  · subst hfirst
    rfl
  by_cases hsurrogate : n = 0xED
  · subst hsurrogate
    rfl
  simp only [lead?, h1, h2, h3, hfirst, hsurrogate, hhigh, if_false, if_true]

theorem lead_four {n : Nat} (hlow : 0xF0 ≤ n) (hhigh : n ≤ 0xF4) :
    lead? n = some ⟨n - 0xF0, 3, if n = 0xF0 then 0x90 else 0x80, if n = 0xF4 then 0x8F else 0xBF⟩ := by
  have hn : n = 0xF0 ∨ n = 0xF1 ∨ n = 0xF2 ∨ n = 0xF3 ∨ n = 0xF4 := by omega
  rcases hn with rfl | rfl | rfl | rfl | rfl <;> rfl

theorem front_encodeChar (c : Char) (rest : List UInt8) :
    front (String.utf8EncodeChar c ++ rest) = .char c (String.utf8EncodeChar c).length := by
  have hvalid : c.toNat < 0xD800 ∨ (0xDFFF < c.toNat ∧ c.toNat < 0x110000) := c.valid
  have hread : ∀ m width, m = c.toNat → Front.char (charOfNumber m) width = .char c width := by
    intro m width hm
    rw [hm, charOfNumber_toNat]
  unfold String.utf8EncodeChar
  rw [show c.val.toNat = c.toNat from rfl]
  generalize c.toNat = n at hvalid hread
  dsimp only
  split
  · next h =>
    have hlead : lead? n = some ⟨n, 0, 0x80, 0xBF⟩ := by
      rw [lead?, if_pos (by omega)]
    rw [List.cons_append, front_lead (by omega) hlead, follow_last]
    exact hread _ _ rfl
  split
  · simp only [List.cons_append, List.nil_append]
    rw [front_lead (by omega) (lead_two (by omega) (by omega))]
    dsimp only
    rw [follow_more (by omega) (by omega) (by omega), follow_last]
    exact hread _ _ (by omega)
  split
  · simp only [List.cons_append, List.nil_append]
    rw [front_lead (by omega) (lead_three (by omega) (by omega))]
    dsimp only
    rw [follow_more (by omega) (by split <;> omega) (by split <;> omega), follow_more (by omega) (by omega) (by omega),
      follow_last]
    exact hread _ _ (by omega)
  · simp only [List.cons_append, List.nil_append]
    rw [front_lead (by omega) (lead_four (by omega) (by omega))]
    dsimp only
    rw [follow_more (by omega) (by split <;> omega) (by split <;> omega), follow_more (by omega) (by omega) (by omega),
      follow_more (by omega) (by omega) (by omega), follow_last]
    exact hread _ _ (by omega)

theorem frontOrSurrogate_encodeChar (c : Char) (rest : List UInt8) :
    frontOrSurrogate (String.utf8EncodeChar c ++ rest) = .char c (String.utf8EncodeChar c).length := by
  have hfront := front_encodeChar c rest
  unfold frontOrSurrogate
  split
  · next b d tail h =>
    rw [h] at hfront
    split
    · next hs =>
      -- the strict reader has refused such a second byte
      have hsecond : ¬ (0x80 ≤ b.toNat ∧ b.toNat ≤ 0x9F) := by
        simp only [isSurrogateTail, Bool.and_eq_true, decide_eq_true_eq, UInt8.le_iff_toNat_le] at hs
        obtain ⟨⟨⟨hb, -⟩, -⟩, -⟩ := hs
        have hlow : 0xA0 ≤ b.toNat := hb
        omega
      have hlead : lead? (0xED : UInt8).toNat = some ⟨0xD, 2, 0x80, 0x9F⟩ := rfl
      rw [front, hlead] at hfront
      dsimp only at hfront
      rw [follow, if_neg hsecond] at hfront
      cases hfront
    · exact hfront
  · exact hfront

/-! ## A whole text -/

theorem readPieces_chars (name : String) : ∀ cs : List Char, Encoding.readPieces name (cs.map .char) = .ok cs
  | [] => rfl
  | c :: cs => by
    rw [List.map_cons, Encoding.readPieces, readPieces_chars name cs]
    rfl

theorem encodeChar_pos (c : Char) : 0 < (String.utf8EncodeChar c).length := by
  rw [String.length_utf8EncodeChar]
  exact Char.utf8Size_pos c

section
variable {encoding : Encoding} (hreads : ∀ (c : Char) (rest : List UInt8),
  encoding.front (String.utf8EncodeChar c ++ rest) = .char c (String.utf8EncodeChar c).length)
include hreads

theorem piecesFrom_cons (c : Char) (rest : List UInt8) (fuel position : Nat) :
    encoding.piecesFrom (fuel + 1) position (String.utf8EncodeChar c ++ rest) =
      .char c :: encoding.piecesFrom fuel (position + (String.utf8EncodeChar c).length) rest := by
  have hfront := hreads c rest
  have hpos := encodeChar_pos c
  cases hbytes : String.utf8EncodeChar c with
  | nil =>
    rw [hbytes] at hpos
    cases hpos
  | cons b bs =>
    rw [hbytes, List.cons_append] at hfront
    have hmax : max (b :: bs).length 1 = (b :: bs).length := Nat.max_eq_left (by simp)
    have hdrop : (bs ++ rest).drop ((b :: bs).length - 1) = rest := by simp
    rw [List.cons_append, Encoding.piecesFrom]
    simp only [hfront, hmax, hdrop]

theorem piecesFrom_encode : ∀ (cs : List Char) (fuel position : Nat),
    (cs.flatMap String.utf8EncodeChar).length ≤ fuel →
      encoding.piecesFrom fuel position (cs.flatMap String.utf8EncodeChar) = cs.map .char
  | [], fuel, position, _ => by
    cases fuel <;> rfl
  | c :: cs, fuel, position, hfuel => by
    have hpos := encodeChar_pos c
    rw [List.flatMap_cons, List.length_append] at hfuel
    obtain ⟨fuel, rfl⟩ : ∃ k, fuel = k + 1 := ⟨fuel - 1, by omega⟩
    rw [List.flatMap_cons, piecesFrom_cons hreads, List.map_cons]
    exact congrArg _ (piecesFrom_encode cs fuel _ (by omega))

theorem decode_eq (s : String) (position : Nat) :
    encoding.decode position (encode s) = .ok s.toList := by
  have hpieces := piecesFrom_encode hreads s.toList _ position (Nat.le_refl _)
  rw [Encoding.decode, Encoding.pieces, encode_eq, hpieces, readPieces_chars]

end

theorem decode_encode (s : String) (position : Nat) : withSurrogates.decode position (encode s) = .ok s.toList :=
  decode_eq frontOrSurrogate_encodeChar s position

end Utf8

end TorrentRemote.Text
