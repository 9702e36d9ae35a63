import TorrentRemote.Envelope
import TorrentRemote.Proofs.Except

/-!
# Tags in bodies

The last member of a request's JSON object is its tag, so a body tells the tag that it was written
for: `carries_of_encode` and `Carries.unique`.
-/

namespace TorrentRemote

/-! ## Members of an object -/

namespace Json

theorem writeEntries_append {k v : Value} : ∀ {es : List (Value × Value)} {ss : List String},
    writeEntries (es ++ [(k, v)]) = .ok ss →
      ∃ front key s, ss = front ++ [writeString key ++ ": " ++ s] ∧ keyText k = .ok key ∧ write v = .ok s
  | [], ss, h => by
    rw [List.nil_append, writeEntries] at h
    obtain ⟨key, hk, h⟩ := bind_ok h
    obtain ⟨s, hs, h⟩ := bind_ok h
    cases h
    exact ⟨[], key, s, rfl, hk, hs⟩
  | (k', v') :: es, ss, h => by
    rw [List.cons_append, writeEntries] at h
    obtain ⟨key', -, h⟩ := bind_ok h
    obtain ⟨s', -, h⟩ := bind_ok h
    obtain ⟨rest, hr, h⟩ := bind_ok h
    cases h
    obtain ⟨front, key, s, rfl, hk, hs⟩ := writeEntries_append hr
    exact ⟨(writeString key' ++ ": " ++ s') :: front, key, s, rfl, hk, hs⟩

theorem writeInt_ok {n : Int} {s : String} (h : writeInt n = .ok s) : s = toString n := by
  unfold writeInt at h
  split at h
  · cases h
  · cases h
    rfl

end Json

namespace Envelope

/-- A JSON object with a tag as its last member. -/
def Carries (body : String) (tag : Nat) : Prop :=
  ∃ members : List String, body = "\x7b" ++ ", ".intercalate (members ++ ["\"tag\": " ++ toString tag]) ++ "\x7d"

theorem request_entries (method : String) (arguments tag : Value) :
    ∃ es, request method arguments tag = .mapping (es ++ [(.text "tag", tag)]) := by
  refine ⟨((.text "method", .text method) :: if arguments.isNull then [] else [(.text "arguments", arguments)]), ?_⟩
  unfold request Value.ofFields
  cases arguments.isNull <;> rfl

theorem carries_of_encode {method : String} {arguments : Value} {tag : Nat} {body : String}
    (h : encode method arguments (.int tag) = .ok body) : Carries body tag := by
  obtain ⟨es, he⟩ := request_entries method arguments (.int tag)
  unfold encode at h
  rw [he] at h
  split at h
  · cases h
  cases hw : Json.write (.mapping (es ++ [(.text "tag", .int tag)])) with
  | error e =>
    rw [hw] at h
    cases h
  | ok text =>
    rw [hw] at h
    cases h
    rw [Json.write] at hw
    obtain ⟨ss, hs, hw⟩ := bind_ok hw
    cases hw
    obtain ⟨front, key, s, rfl, hkey, hint⟩ := Json.writeEntries_append hs
    cases hkey
    rw [Json.write] at hint
    obtain rfl := Json.writeInt_ok hint
    exact ⟨front, rfl⟩

/-! ## The tag of a body -/

theorem Carries.toList {body : String} {tag : Nat} (h : Carries body tag) :
    ∃ front, body.toList = front ++ ' ' :: (Nat.toDigits 10 tag ++ ['\x7d']) := by
  obtain ⟨members, rfl⟩ := h
  have hlast : ∃ front : List Char,
      (", ".intercalate (members ++ ["\"tag\": " ++ toString tag])).toList = front ++ ' ' :: Nat.toDigits 10 tag := by
    have htag : ("\"tag\": " ++ toString tag).toList =
        ['"', 't', 'a', 'g', '"', ':'] ++ ' ' :: Nat.toDigits 10 tag := by
      simp
    cases members with
    | nil => exact ⟨_, by rw [List.nil_append, String.intercalate_singleton, htag]⟩
    | cons m ms =>
      rw [String.intercalate_append_of_ne_nil (by simp) (by simp), String.intercalate_singleton, String.toList_append,
        htag, ← List.append_assoc]
      exact ⟨_, rfl⟩
  obtain ⟨front, hfront⟩ := hlast
  refine ⟨'\x7b' :: front, ?_⟩
  rw [String.toList_append, String.toList_append, hfront]
  simp

theorem takeWhile_digits (ds front : List Char) (hd : ∀ c ∈ ds, c.isDigit) :
    (ds ++ ' ' :: front).takeWhile Char.isDigit = ds := by
  rw [List.takeWhile_append_of_pos hd]
  simp

theorem Carries.unique {body : String} {m n : Nat} (hm : Carries body m) (hn : Carries body n) : m = n := by
  obtain ⟨front, h⟩ := hm.toList
  obtain ⟨front', h'⟩ := hn.toList
  have hrev : (Nat.toDigits 10 m).reverse ++ ' ' :: front.reverse =
      (Nat.toDigits 10 n).reverse ++ ' ' :: front'.reverse := by
    have := congrArg List.reverse (h.symm.trans h')
    simpa using this
  have hdigits : ∀ k : Nat, ∀ c ∈ (Nat.toDigits 10 k).reverse, c.isDigit := fun k c hc =>
    Nat.isDigit_of_mem_toDigits (by decide) (by decide) (List.mem_reverse.mp hc)
  have heq : (Nat.toDigits 10 m).reverse = (Nat.toDigits 10 n).reverse := by
    rw [← takeWhile_digits _ front.reverse (hdigits m), hrev, takeWhile_digits _ _ (hdigits n)]
  calc
    m = Nat.ofDigitChars 10 (Nat.toDigits 10 m) 0 := Nat.ofDigitChars_ten_toDigits.symm
    _ = Nat.ofDigitChars 10 (Nat.toDigits 10 n) 0 := by rw [List.reverse_inj.mp heq]
    _ = n := Nat.ofDigitChars_ten_toDigits

end Envelope

end TorrentRemote
