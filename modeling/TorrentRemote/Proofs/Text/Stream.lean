import TorrentRemote.Proofs.Except
import TorrentRemote.Proofs.Text.Utf8
import TorrentRemote.Text.Stream

/-!
# Files in UTF-8

A file is read chunk by chunk, and what a chunk cuts off goes in front of the next one. However it is cut, a file is
read exactly if it is UTF-8, as the text that it is the UTF-8 of (`decodeFile_iff`).
-/

namespace TorrentRemote.Text

namespace Utf8

/-! ## Bytes that stand for a character -/

theorem toNat_charOfNumber {n : Nat} (h : n.isValidChar) : (charOfNumber n).val.toNat = n := by
  rw [charOfNumber, if_pos h, Char.ofNat, dif_pos h]
  rfl

theorem ofNat_eq {n : Nat} {b : UInt8} (h : n = b.toNat) : UInt8.ofNat n = b := by
  rw [h, UInt8.ofNat_toNat]

section
variable {b d e f : UInt8} {n : Nat}

theorem encode_one (hb : b.toNat < 0x80) : String.utf8EncodeChar (charOfNumber b.toNat) = [b] := by
  rw [String.utf8EncodeChar, toNat_charOfNumber (.inl (by omega)), if_pos (by omega), UInt8.ofNat_toNat]

theorem encode_two (hb : 0xC2 ≤ b.toNat) (hb' : b.toNat < 0xE0) (hd : 0x80 ≤ d.toNat) (hd' : d.toNat ≤ 0xBF)
    (hn : n = (b.toNat - 0xC0) * 64 + (d.toNat - 0x80)) : String.utf8EncodeChar (charOfNumber n) = [b, d] := by
  have hfirst : n / 64 % 32 + 192 = b.toNat := by omega
  have hsecond : n % 64 + 128 = d.toNat := by omega
  rw [String.utf8EncodeChar, toNat_charOfNumber (.inl (by omega)), if_neg (by omega), if_pos (by omega),
    ofNat_eq hfirst, ofNat_eq hsecond]

theorem encode_three (hb : 0xE0 ≤ b.toNat) (hb' : b.toNat < 0xF0) (hd : 0x80 ≤ d.toNat) (hd' : d.toNat ≤ 0xBF)
    (hlow : b.toNat = 0xE0 → 0xA0 ≤ d.toNat) (hhigh : b.toNat = 0xED → d.toNat ≤ 0x9F)
    (he : 0x80 ≤ e.toNat) (he' : e.toNat ≤ 0xBF)
    (hn : n = ((b.toNat - 0xE0) * 64 + (d.toNat - 0x80)) * 64 + (e.toNat - 0x80)) :
    String.utf8EncodeChar (charOfNumber n) = [b, d, e] := by
  have hfirst : n / 4096 % 16 + 224 = b.toNat := by omega
  have hsecond : n / 64 % 64 + 128 = d.toNat := by omega
  have hthird : n % 64 + 128 = e.toNat := by omega
  have hvalid : n < 0xD800 ∨ (0xDFFF < n ∧ n < 0x110000) := by omega
  rw [String.utf8EncodeChar, toNat_charOfNumber hvalid, if_neg (by omega), if_neg (by omega), if_pos (by omega),
    ofNat_eq hfirst, ofNat_eq hsecond, ofNat_eq hthird]

theorem encode_four (hb : 0xF0 ≤ b.toNat) (hb' : b.toNat ≤ 0xF4) (hd : 0x80 ≤ d.toNat) (hd' : d.toNat ≤ 0xBF)
    (hlow : b.toNat = 0xF0 → 0x90 ≤ d.toNat) (hhigh : b.toNat = 0xF4 → d.toNat ≤ 0x8F)
    (he : 0x80 ≤ e.toNat) (he' : e.toNat ≤ 0xBF) (hf : 0x80 ≤ f.toNat) (hf' : f.toNat ≤ 0xBF)
    (hn : n = (((b.toNat - 0xF0) * 64 + (d.toNat - 0x80)) * 64 + (e.toNat - 0x80)) * 64 + (f.toNat - 0x80)) :
    String.utf8EncodeChar (charOfNumber n) = [b, d, e, f] := by
  have hfirst : n / 262144 % 8 + 240 = b.toNat := by omega
  have hsecond : n / 4096 % 64 + 128 = d.toNat := by omega
  have hthird : n / 64 % 64 + 128 = e.toNat := by omega
  have hfourth : n % 64 + 128 = f.toNat := by omega
  rw [String.utf8EncodeChar, toNat_charOfNumber (.inr (by omega)), if_neg (by omega), if_neg (by omega),
    if_neg (by omega), ofNat_eq hfirst, ofNat_eq hsecond, ofNat_eq hthird, ofNat_eq hfourth]

end

theorem follow_ok {bits width owed low high w : Nat} {bs : List UInt8} {c : Char}
    (h : follow bits width (owed + 1) low high bs = .char c w) :
    ∃ b rest, bs = b :: rest ∧ low ≤ b.toNat ∧ b.toNat ≤ high ∧
      follow (bits * 64 + (b.toNat - 0x80)) (width + 1) owed 0x80 0xBF rest = .char c w := by
  cases bs with
  | nil => cases h
  | cons b rest =>
    rw [follow] at h
    split at h
    · next hb => exact ⟨b, rest, rfl, hb.1, hb.2, h⟩
    · cases h

theorem follow_done {bits width low high w : Nat} {bs : List UInt8} {c : Char}
    (h : follow bits width 0 low high bs = .char c w) : charOfNumber bits = c ∧ width = w := by
  rw [follow] at h
  exact Front.char.inj h

/-- A first byte starts a character of one, two, three or four bytes, or none at all. -/
theorem lead_cases {n : Nat} {lead : Lead} (h : lead? n = some lead) :
    (n < 0x80 ∧ lead = ⟨n, 0, 0x80, 0xBF⟩) ∨
    (0xC2 ≤ n ∧ n < 0xE0 ∧ lead = ⟨n - 0xC0, 1, 0x80, 0xBF⟩) ∨
    (0xE0 ≤ n ∧ n < 0xF0 ∧
      lead = ⟨n - 0xE0, 2, if n = 0xE0 then 0xA0 else 0x80, if n = 0xED then 0x9F else 0xBF⟩) ∨
    (0xF0 ≤ n ∧ n ≤ 0xF4 ∧
      lead = ⟨n - 0xF0, 3, if n = 0xF0 then 0x90 else 0x80, if n = 0xF4 then 0x8F else 0xBF⟩) := by
  by_cases h1 : n < 0x80
  · rw [lead?, if_pos h1] at h
    exact .inl ⟨h1, (Option.some.inj h).symm⟩
  by_cases h2 : n < 0xC2
  · rw [lead?, if_neg h1, if_pos h2] at h
    cases h
  by_cases h3 : n < 0xE0
  · rw [lead_two (by omega) h3] at h
    exact .inr (.inl ⟨by omega, h3, (Option.some.inj h).symm⟩)
  by_cases h4 : n < 0xF0
  · rw [lead_three (by omega) h4] at h
    exact .inr (.inr (.inl ⟨by omega, h4, (Option.some.inj h).symm⟩))
  by_cases h5 : n ≤ 0xF4
  · rw [lead_four (by omega) h5] at h
    exact .inr (.inr (.inr ⟨by omega, h5, (Option.some.inj h).symm⟩))
  · have hnone : lead? n = none := by
      unfold lead?
      repeat rw [if_neg (by omega)]
    rw [hnone] at h
    cases h

theorem second_bounds {n first last low high m : Nat} (hlow : 0x80 ≤ low) (hhigh : high ≤ 0xBF)
    (h : (if n = first then low else 0x80) ≤ m) (h' : m ≤ if n = last then high else 0xBF) :
    0x80 ≤ m ∧ m ≤ 0xBF ∧ (n = first → low ≤ m) ∧ (n = last → m ≤ high) := by
  split at h <;> split at h' <;> omega

theorem front_char {bs : List UInt8} {c : Char} {width : Nat} (h : front bs = .char c width) :
    ∃ rest, bs = String.utf8EncodeChar c ++ rest ∧ width = (String.utf8EncodeChar c).length := by
  cases bs with
  | nil => cases h
  | cons b rest =>
    rw [front] at h
    split at h
    · cases h
    · next lead hlead =>
      rcases lead_cases hlead with ⟨hb, rfl⟩ | ⟨hb, hb', rfl⟩ | ⟨hb, hb', rfl⟩ | ⟨hb, hb', rfl⟩
      · obtain ⟨rfl, rfl⟩ := follow_done h
        rw [encode_one hb]
        exact ⟨rest, rfl, rfl⟩
      · obtain ⟨d, rest, rfl, hd, hd', h⟩ := follow_ok h
        obtain ⟨rfl, rfl⟩ := follow_done h
        rw [encode_two hb hb' hd hd' rfl]
        exact ⟨rest, rfl, rfl⟩
      · obtain ⟨d, rest, rfl, hd, hd', h⟩ := follow_ok h
        obtain ⟨e, rest, rfl, he, he', h⟩ := follow_ok h
        obtain ⟨rfl, rfl⟩ := follow_done h
        obtain ⟨h80, hBF, hlow, hhigh⟩ := second_bounds (by decide) (by decide) hd hd'
        rw [encode_three hb hb' h80 hBF hlow hhigh he he' rfl]
        exact ⟨rest, rfl, rfl⟩
      · obtain ⟨d, rest, rfl, hd, hd', h⟩ := follow_ok h
        obtain ⟨e, rest, rfl, he, he', h⟩ := follow_ok h
        obtain ⟨f, rest, rfl, hf, hf', h⟩ := follow_ok h
        obtain ⟨rfl, rfl⟩ := follow_done h
        obtain ⟨h80, hBF, hlow, hhigh⟩ := second_bounds (by decide) (by decide) hd hd'
        rw [encode_four hb hb' h80 hBF hlow hhigh he he' hf hf' rfl]
        exact ⟨rest, rfl, rfl⟩

/-! ## Characters that are cut off -/

theorem follow_width : ∀ {owed bits width low high w : Nat} {bs : List UInt8} {c : Char},
    follow bits width owed low high bs = .char c w → w = width + owed
  | 0, _, _, _, _, _, _, _, h => (follow_done h).2.symm
  | owed + 1, _, width, _, _, w, _, _, h => by
    obtain ⟨b, rest, -, -, -, h⟩ := follow_ok h
    have hrest := follow_width h
    omega

theorem follow_cut : ∀ {owed bits width low high w : Nat} {p q : List UInt8} {c : Char},
    follow bits width owed low high (p ++ q) = .char c w → p.length < owed →
      follow bits width owed low high p = .bad (width + p.length) Encoding.cutOff
  | 0, _, _, _, _, _, _, _, _, _, hlt => by cases hlt
  | owed + 1, _, _, _, _, _, [], _, _, _, _ => rfl
  | owed + 1, bits, width, low, high, w, b :: p, q, c, h, hlt => by
    obtain ⟨b', rest, hbs, hlow, hhigh, h⟩ := follow_ok h
    cases hbs
    rw [follow, if_pos ⟨hlow, hhigh⟩, follow_cut h (Nat.lt_of_succ_lt_succ hlt), List.length_cons]
    congr 1
    omega

theorem front_cut {p q : List UInt8} {c : Char} {width : Nat} (h : front (p ++ q) = .char c width) (hp : p ≠ [])
    (hlt : p.length < width) : front p = .bad p.length Encoding.cutOff := by
  cases p with
  | nil => exact absurd rfl hp
  | cons b p =>
    rw [List.cons_append, front] at h
    split at h
    · cases h
    · next lead hlead =>
      have hwidth := follow_width h
      rw [List.length_cons] at hlt
      rw [front, hlead]
      dsimp only
      rw [follow_cut h (by omega), List.length_cons, Nat.add_comm]

theorem sortPieces_cut (name : String) {fuel position size : Nat} {p : List UInt8} (hp : p ≠ [])
    (hfront : front p = .bad p.length Encoding.cutOff) (hfuel : p.length ≤ fuel) (hsize : position + p.length = size) :
    sortPieces name size (strict.piecesFrom fuel position p) = ([], none, p.length) := by
  cases p with
  | nil => exact absurd rfl hp
  | cons b p =>
    rw [List.length_cons] at hfuel
    obtain ⟨fuel, rfl⟩ : ∃ k, fuel = k + 1 := ⟨fuel - 1, by omega⟩
    rw [Encoding.piecesFrom]
    simp only [strict, hfront]
    rw [sortPieces, if_pos ⟨rfl, hsize⟩]

/-! ## Chunks -/

/-- A chunk of a text is read up to the bytes that are cut off at its end. -/
theorem sortPieces_encoded (name : String) : ∀ (cs : List Char) {fuel position size : Nat} {chunk rest : List UInt8},
    chunk ++ rest = cs.flatMap String.utf8EncodeChar → chunk.length ≤ fuel → position + chunk.length = size →
      ∃ done left kept, cs = done ++ left ∧ kept ++ rest = left.flatMap String.utf8EncodeChar ∧
        chunk = done.flatMap String.utf8EncodeChar ++ kept ∧
        sortPieces name size (strict.piecesFrom fuel position chunk) = (done, none, kept.length)
  | [], fuel, position, size, chunk, rest, h, _, _ => by
    obtain ⟨rfl, rfl⟩ := List.append_eq_nil_iff.mp h
    exact ⟨[], [], [], rfl, rfl, rfl, by cases fuel <;> rfl⟩
  | c :: cs, fuel, position, size, chunk, rest, h, hfuel, hsize => by
    have hpos := encodeChar_pos c
    rw [List.flatMap_cons] at h
    have hchunk : chunk <+: String.utf8EncodeChar c ++ cs.flatMap String.utf8EncodeChar := ⟨rest, h⟩
    have hchar := List.prefix_append (String.utf8EncodeChar c) (cs.flatMap String.utf8EncodeChar)
    rcases Nat.lt_or_ge chunk.length (String.utf8EncodeChar c).length with hlt | hge
    · refine ⟨[], c :: cs, chunk, rfl, h, rfl, ?_⟩
      by_cases hempty : chunk = []
      · subst hempty
        cases fuel <;> rfl
      · obtain ⟨more, hmore⟩ := List.prefix_of_prefix_length_le hchunk hchar (Nat.le_of_lt hlt)
        have hfront := front_encodeChar c []
        rw [List.append_nil] at hfront
        rw [← hmore] at hfront hlt
        exact sortPieces_cut name hempty (front_cut hfront hempty hlt) hfuel hsize
    · obtain ⟨chunk', rfl⟩ := List.prefix_of_prefix_length_le hchar hchunk hge
      rw [List.append_assoc] at h
      rw [List.length_append] at hfuel hsize
      obtain ⟨fuel, rfl⟩ : ∃ k, fuel = k + 1 := ⟨fuel - 1, by omega⟩
      have hfuel' : chunk'.length ≤ fuel := by omega
      have hsize' : position + (String.utf8EncodeChar c).length + chunk'.length = size := by omega
      obtain ⟨done, left, kept, rfl, hleft, rfl, hsorted⟩ :=
        sortPieces_encoded name cs (List.append_cancel_left h) hfuel' hsize'
      refine ⟨c :: done, left, kept, rfl, hleft, by rw [List.flatMap_cons, List.append_assoc], ?_⟩
      rw [piecesFrom_cons front_encodeChar, sortPieces, hsorted]

theorem encoded_of_sortPieces {name : String} : ∀ {fuel position size : Nat} {chunk : List UInt8} {cs : List Char}
    {left : Nat}, chunk.length ≤ fuel → position + chunk.length = size →
      sortPieces name size (strict.piecesFrom fuel position chunk) = (cs, none, left) →
      ∃ kept, chunk = cs.flatMap String.utf8EncodeChar ++ kept ∧ left = kept.length
  | fuel, position, size, [], cs, left, _, _, h => by
    have hnil : strict.piecesFrom fuel position [] = [] := by cases fuel <;> rfl
    rw [hnil] at h
    cases h
    exact ⟨[], rfl, rfl⟩
  | 0, _, _, b :: chunk, _, _, hfuel, _, _ => by cases hfuel
  | fuel + 1, position, size, b :: chunk, cs, left, hfuel, hsize, h => by
    cases hfront : front (b :: chunk) with
    | bad width reason =>
      rw [Encoding.piecesFrom] at h
      simp only [strict, hfront] at h
      rw [sortPieces] at h
      split at h
      · next hcut =>
        cases h
        exact ⟨b :: chunk, rfl, by omega⟩
      · cases h
    | char c width =>
      obtain ⟨rest, hbytes, -⟩ := front_char hfront
      have hpos := encodeChar_pos c
      have hlength := congrArg List.length hbytes
      rw [List.length_append] at hlength
      rw [hbytes, piecesFrom_cons front_encodeChar, sortPieces] at h
      obtain ⟨cs', error, left', hsorted⟩ : ∃ cs' error left', sortPieces name size (strict.piecesFrom fuel
          (position + (String.utf8EncodeChar c).length) rest) = (cs', error, left') := ⟨_, _, _, rfl⟩
      rw [hsorted] at h
      cases h
      obtain ⟨kept, rfl, hleft⟩ := encoded_of_sortPieces (by omega) (by omega) hsorted
      exact ⟨kept, by rw [hbytes, List.flatMap_cons, List.append_assoc], hleft⟩

/-! ## Files -/

theorem sortPieces_of_readPieces {name : String} (size : Nat) : ∀ {pieces : List Piece} {cs : List Char},
    Encoding.readPieces name pieces = .ok cs → sortPieces name size pieces = (cs, none, 0)
  | [], _, h => by
    cases h
    rfl
  | .char c :: pieces, _, h => by
    obtain ⟨cs, hcs, rfl⟩ := map_ok h
    rw [sortPieces, sortPieces_of_readPieces size hcs]
  | .bad _ _ _ _ :: _, _, h => by cases h

theorem decode_iff {bs : List UInt8} {cs : List Char} :
    strict.decode 0 bs = .ok cs ↔ bs = cs.flatMap String.utf8EncodeChar := by
  constructor
  · intro h
    have hsorted := sortPieces_of_readPieces bs.length h
    obtain ⟨kept, hbs, hkept⟩ := encoded_of_sortPieces (Nat.le_refl _) (Nat.zero_add _) hsorted
    rw [List.eq_nil_of_length_eq_zero hkept.symm, List.append_nil] at hbs
    exact hbs
  · rintro rfl
    have hdecode : strict.decode 0 _ = _ := decode_eq front_encodeChar (String.ofList cs) 0
    rwa [encode_eq, String.toList_ofList] at hdecode

theorem decodeChunks_nil {size fuel : Nat} {waiting : List UInt8} {cs : List Char} :
    decodeChunks strict size (fuel + 1) waiting [] = (cs, none) ↔ strict.decode 0 waiting = .ok cs := by
  rw [decodeChunks]
  · cases strict.decode 0 waiting <;> simp
  · nofun

theorem decodeChunks_iff {size : Nat} (hsize : 0 < size) : ∀ {fuel : Nat} {waiting bs : List UInt8} {cs : List Char},
    bs.length < fuel → (decodeChunks strict size fuel waiting bs = (cs, none) ↔
      waiting ++ bs = cs.flatMap String.utf8EncodeChar)
  | 0, _, _, _, hfuel => by cases hfuel
  | fuel + 1, waiting, [], cs, _ => by
    rw [decodeChunks_nil, decode_iff, List.append_nil]
  | fuel + 1, waiting, b :: bs, cs, hfuel => by
    have hwhole : waiting ++ b :: bs = waiting ++ (b :: bs).take size ++ (b :: bs).drop size := by
      rw [List.append_assoc, List.take_append_drop]
    have hrest : ((b :: bs).drop size).length < fuel := by
      rw [List.length_drop]
      rw [List.length_cons] at hfuel ⊢
      omega
    rw [decodeChunks, hwhole]
    generalize waiting ++ (b :: bs).take size = chunk
    generalize (b :: bs).drop size = rest at hrest
    have hkept : ∀ (done : List Char) (kept : List UInt8), chunk = done.flatMap String.utf8EncodeChar ++ kept →
        chunk.drop (chunk.length - kept.length) = kept := by
      rintro done kept rfl
      rw [List.length_append, Nat.add_sub_cancel, List.drop_left]
    constructor
    · intro h
      split at h
      · cases h
      · next done left hsorted =>
        obtain ⟨kept, hchunk, rfl⟩ := encoded_of_sortPieces (Nat.le_refl _) (Nat.zero_add _) hsorted
        rw [hkept done kept hchunk] at h
        obtain ⟨more, error, hmore⟩ : ∃ more error, decodeChunks strict size fuel kept rest = (more, error) :=
          ⟨_, _, rfl⟩
        rw [hmore] at h
        cases h
        rw [hchunk, List.append_assoc, (decodeChunks_iff hsize hrest).mp hmore, List.flatMap_append]
    · intro h
      obtain ⟨done, left, kept, rfl, hleft, hchunk, hsorted⟩ :=
        sortPieces_encoded strict.name cs h (Nat.le_refl _) (Nat.zero_add _)
      have hpieces : sortPieces strict.name chunk.length (strict.pieces 0 chunk) = (done, none, kept.length) := hsorted
      rw [hpieces]
      dsimp only
      rw [hkept done kept hchunk, (decodeChunks_iff hsize hrest).mpr hleft]

/-- A file is read to the end exactly if it is UTF-8, as the text that it is the UTF-8 of. -/
theorem decodeFile_iff {bs : List UInt8} {cs : List Char} :
    decodeFile strict bs = (cs, none) ↔ bs = encode (String.ofList cs) := by
  rw [encode_eq, String.toList_ofList]
  exact decodeChunks_iff (by decide) (Nat.lt_succ_self _)

end Utf8

end TorrentRemote.Text
