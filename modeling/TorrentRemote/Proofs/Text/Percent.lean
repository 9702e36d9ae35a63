import TorrentRemote.Proofs.Text.Utf8
import TorrentRemote.Text.Percent

/-!
# Text in percent encoding

A text whose bytes are written with percent signs, letters, digits and four marks is read back (`decode_encode`). None
of the characters that delimit the parts of a URL is among those written.
-/

namespace TorrentRemote.Text.Percent

/-! ## Writing -/

/-- Letters, digits and the marks that never delimit anything. -/
def isUnreserved (c : Char) : Bool :=
  c.isAlphanum || c = '-' || c = '.' || c = '_' || c = '~'

def upperDigit (n : Nat) : Char :=
  if n < 10 then Char.ofNat (48 + n) else Char.ofNat (55 + n)

def encodeByte (b : UInt8) : List Char :=
  if isUnreserved (Char.ofNat b.toNat) then [Char.ofNat b.toNat]
  else ['%', upperDigit (b.toNat / 16), upperDigit (b.toNat % 16)]

def encodeChars (s : String) : List Char :=
  (Utf8.encode s).flatMap encodeByte

def encode (s : String) : String :=
  String.ofList (encodeChars s)

theorem upperDigit_unreserved : ∀ n < 16, isUnreserved (upperDigit n) = true := by decide

theorem hexValue_upperDigit : ∀ n < 16, hexValue? (upperDigit n) = some n := by decide

theorem unreserved_ascii : ∀ n < 256, isUnreserved (Char.ofNat n) = true →
    (Char.ofNat n).toNat = n ∧ n < 128 ∧ Char.ofNat n ≠ '%' := by decide +kernel

theorem mem_encodeByte {b : UInt8} {c : Char} (h : c ∈ encodeByte b) : isUnreserved c = true ∨ c = '%' := by
  have hb := b.toNat_lt
  unfold encodeByte at h
  split at h
  · next hc =>
    rw [List.mem_singleton.mp h]
    exact .inl hc
  · simp only [List.mem_cons, List.not_mem_nil, or_false] at h
    rcases h with rfl | rfl | rfl
    · exact .inr rfl
    · exact .inl (upperDigit_unreserved _ (by omega))
    · exact .inl (upperDigit_unreserved _ (by omega))

theorem mem_encode {s : String} {c : Char} (h : c ∈ (encode s).toList) : isUnreserved c = true ∨ c = '%' := by
  rw [encode, String.toList_ofList, encodeChars, List.mem_flatMap] at h
  obtain ⟨b, -, h⟩ := h
  exact mem_encodeByte h

/-! ## Reading -/

theorem decodeFrom_ascii {c : Char} (hne : c ≠ '%') (hlt : c.toNat < 128) (stretch : List UInt8) (rest : List Char) :
    decodeFrom stretch (c :: rest) = decodeFrom (UInt8.ofNat c.toNat :: stretch) rest := by
  rw [decodeFrom, if_pos hlt]
  intro a b more h
  cases h
  exact absurd rfl hne

theorem decodeFrom_encodeByte (b : UInt8) (stretch : List UInt8) (rest : List Char) :
    decodeFrom stretch (encodeByte b ++ rest) = decodeFrom (b :: stretch) rest := by
  have hb := b.toNat_lt
  unfold encodeByte
  split
  · next hc =>
    obtain ⟨hn, hlt, hne⟩ := unreserved_ascii _ hb hc
    rw [List.singleton_append, decodeFrom_ascii hne (by omega), hn, UInt8.ofNat_toNat]
  · have hsum : b.toNat / 16 * 16 + b.toNat % 16 = b.toNat := by omega
    simp only [List.cons_append, List.nil_append]
    rw [decodeFrom, hexValue_upperDigit _ (by omega), hexValue_upperDigit _ (by omega)]
    simp only [hsum, UInt8.ofNat_toNat]

theorem decodeFrom_encodeBytes : ∀ (bs stretch : List UInt8),
    decodeFrom stretch (bs.flatMap encodeByte) = spell (bs.reverse ++ stretch)
  | [], stretch => by simp [decodeFrom]
  | b :: bs, stretch => by
    rw [List.flatMap_cons, decodeFrom_encodeByte, decodeFrom_encodeBytes bs]
    simp

theorem spell_encode (s : String) : spell (Utf8.encode s).reverse = s.toList := by
  have hreads : ∀ (c : Char) (rest : List UInt8),
      Utf8.strict.front (String.utf8EncodeChar c ++ rest) = .char c (String.utf8EncodeChar c).length :=
    Utf8.front_encodeChar
  have hpieces := Utf8.piecesFrom_encode hreads s.toList _ 0 (Nat.le_refl _)
  rw [spell, List.reverse_reverse, Encoding.decodeLenient, Encoding.pieces, Utf8.encode_eq, hpieces, List.map_map]
  exact List.map_id _

theorem decode_encode (s : String) : decode (encode s) = s := by
  rw [decode, encode, String.toList_ofList, encodeChars, decodeFrom_encodeBytes, List.append_nil, spell_encode,
    String.ofList_toList]

example : encode "a:ü" = "a%3A%C3%BC" := by decide +kernel

end TorrentRemote.Text.Percent
