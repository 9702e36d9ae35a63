import TorrentRemote.Proofs.Except
import TorrentRemote.Text.Base64

/-!
# Bytes in base64

The strict reader takes every text that is written and gives the bytes back (`decode_encode`), and only
a text with a character that is not ASCII is refused for that (`exists_of_notAscii`).
-/

namespace TorrentRemote.Text.Base64

/-! ## Alphabet -/

theorem value_digit : ∀ n < 64, value? (digit n) = some n := by decide

theorem digit_ascii : ∀ n < 64, (digit n).toNat < 128 := by decide

theorem digit_ne_pad : ∀ n < 64, digit n ≠ '=' := by decide

theorem mem_encodeChars : ∀ (bs : List UInt8), ∀ c ∈ encodeChars bs, c = '=' ∨ ∃ n < 64, c = digit n
  | [], c, hc => by cases hc
  | [a], c, hc => by
    have ha := a.toNat_lt
    simp only [encodeChars, List.mem_cons, List.not_mem_nil, or_false] at hc
    rcases hc with rfl | rfl | rfl | rfl
    · exact .inr ⟨_, by omega, rfl⟩
    · exact .inr ⟨_, by omega, rfl⟩
    · exact .inl rfl
    · exact .inl rfl
  | [a, b], c, hc => by
    have ha := a.toNat_lt
    have hb := b.toNat_lt
    simp only [encodeChars, List.mem_cons, List.not_mem_nil, or_false] at hc
    rcases hc with rfl | rfl | rfl | rfl
    · exact .inr ⟨_, by omega, rfl⟩
    · exact .inr ⟨_, by omega, rfl⟩
    · exact .inr ⟨_, by omega, rfl⟩
    · exact .inl rfl
  | a :: b :: d :: rest, c, hc => by
    have ha := a.toNat_lt
    have hb := b.toNat_lt
    have hd := d.toNat_lt
    simp only [encodeChars, List.mem_cons] at hc
    rcases hc with rfl | rfl | rfl | rfl | hc
    · exact .inr ⟨_, by omega, rfl⟩
    · exact .inr ⟨_, by omega, rfl⟩
    · exact .inr ⟨_, by omega, rfl⟩
    · exact .inr ⟨_, by omega, rfl⟩
    · exact mem_encodeChars rest c hc

theorem encodeChars_ascii (bs : List UInt8) : (encodeChars bs).all (·.toNat < 128) = true := by
  rw [List.all_eq_true]
  intro c hc
  rcases mem_encodeChars bs c hc with rfl | ⟨n, hn, rfl⟩
  · decide
  · exact decide_eq_true (digit_ascii n hn)

theorem encodeChars_length : ∀ (bs : List UInt8), (encodeChars bs).length = 4 * ((bs.length + 2) / 3)
  | [] => by simp [encodeChars]
  | [_] => by simp [encodeChars]
  | [_, _] => by simp [encodeChars]
  | _ :: _ :: _ :: rest => by
    simp only [encodeChars, List.length_cons, encodeChars_length rest]
    omega

theorem encodeChars_head (bs : List UInt8) : (encodeChars bs).head? ≠ some '=' := by
  have first : ∀ n, n < 64 → ∀ rest, (digit n :: rest).head? ≠ some '=' := by
    intro n hn rest h
    exact digit_ne_pad n hn (Option.some.inj h)
  match bs with
  | [] => simp [encodeChars]
  | [a] => exact first _ (by have := a.toNat_lt; omega) _
  | [a, b] => exact first _ (by have := a.toNat_lt; have := b.toNat_lt; omega) _
  | a :: b :: c :: rest => exact first _ (by have := a.toNat_lt; have := b.toNat_lt; have := c.toNat_lt; omega) _

/-! ## Reading what is written -/

theorem decodeFrom_digit (k : Cursor) {n : Nat} (h : n < 64) (hp : k.padded = false) (rest : List Char) :
    decodeFrom k (digit n :: rest) = (decodeFrom (k.take n).1 rest).map ((k.take n).2 ++ ·) := by
  rw [decodeFrom, if_neg (digit_ne_pad n h), value_digit n h]
  simp [hp]

theorem byte_eq {n : Nat} {b : UInt8} (h : n = b.toNat) : UInt8.ofNat n = b := by
  rw [h, UInt8.ofNat_toNat]

/-- Between two groups nothing is left over, however much has been read before. -/
theorem decodeFrom_encodeChars : ∀ (bs : List UInt8) (size : Nat),
    decodeFrom ⟨0, 0, size, 0, false⟩ (encodeChars bs) = .ok bs
  | [], size => by simp [encodeChars, decodeFrom]
  | [a], size => by
    have ha := a.toNat_lt
    simp only [encodeChars]
    generalize hn : a.toNat * 16 = n
    have hbyte : n / 64 * 4 + n % 64 / 16 = a.toNat := by omega
    rw [decodeFrom_digit _ (by omega) rfl, decodeFrom_digit _ (by omega) rfl]
    simp only [Cursor.take, Except.map, byte_eq hbyte]
    rfl
  | [a, b], size => by
    have ha := a.toNat_lt
    have hb := b.toNat_lt
    simp only [encodeChars]
    generalize hn : a.toNat * 1024 + b.toNat * 4 = n
    have hfirst : n / 4096 * 4 + n / 64 % 64 / 16 = a.toNat := by omega
    have hsecond : n / 64 % 64 % 16 * 16 + n % 64 / 4 = b.toNat := by omega
    rw [decodeFrom_digit _ (by omega) rfl, decodeFrom_digit _ (by omega) rfl, decodeFrom_digit _ (by omega) rfl]
    simp only [Cursor.take, Except.map, byte_eq hfirst, byte_eq hsecond]
    rfl
  | a :: b :: c :: rest, size => by
    have ha := a.toNat_lt
    have hb := b.toNat_lt
    have hc := c.toNat_lt
    simp only [encodeChars]
    generalize hn : a.toNat * 65536 + b.toNat * 256 + c.toNat = n
    have hfirst : n / 262144 * 4 + n / 4096 % 64 / 16 = a.toNat := by omega
    have hsecond : n / 4096 % 64 % 16 * 16 + n / 64 % 64 / 4 = b.toNat := by omega
    have hthird : n / 64 % 64 % 4 * 64 + n % 64 = c.toNat := by omega
    rw [decodeFrom_digit _ (by omega) rfl, decodeFrom_digit _ (by omega) rfl, decodeFrom_digit _ (by omega) rfl,
      decodeFrom_digit _ (by omega) rfl]
    simp only [Cursor.take, decodeFrom_encodeChars rest, Except.map, byte_eq hfirst, byte_eq hsecond, byte_eq hthird]
    rfl

theorem decode_encode (bs : List UInt8) : decode (encode bs) = .ok bs := by
  unfold decode encode
  simp only [String.toList_ofList, encodeChars_ascii, Bool.not_true, Bool.false_eq_true, if_false,
    encodeChars_head bs]
  exact decodeFrom_encodeChars bs 0

theorem encode_inj {bs bs' : List UInt8} : encode bs = encode bs' ↔ bs = bs' := by
  refine ⟨fun h => ?_, fun h => by rw [h]⟩
  have hdecode := decode_encode bs
  rw [h, decode_encode bs'] at hdecode
  exact (Except.ok.inj hdecode).symm

/-! ## Texts that are not ASCII -/

theorem decodeFrom_ne_notAscii : ∀ (cs : List Char) (k : Cursor), decodeFrom k cs ≠ .error .notAscii
  | [], k, h => by
    unfold decodeFrom at h
    split at h
    · cases h
    · split at h <;> cases h
  | c :: cs, k, h => by
    unfold decodeFrom at h
    split at h
    · split at h
      · exact decodeFrom_ne_notAscii cs _ h
      · split at h
        · exact decodeFrom_ne_notAscii cs _ h
        · split at h <;> cases h
    · split at h
      · cases h
      · split at h
        · cases h
        · exact decodeFrom_ne_notAscii cs _ (map_error h)

theorem exists_of_notAscii {s : String} (h : decode s = .error .notAscii) : ∃ c ∈ s.toList, 128 ≤ c.toNat := by
  unfold decode at h
  dsimp only at h
  split at h
  · next hall =>
    simpa using hall
  · split at h
    · cases h
    · exact absurd h (decodeFrom_ne_notAscii _ _)

end TorrentRemote.Text.Base64
