import TorrentRemote.Envelope
import TorrentRemote.Proofs.Except
import TorrentRemote.Proofs.Json.Reader

/-!
# What a body comes to

A body is an envelope, or it is refused as no valid response, or it holds a whole number with too many
digits: `decodeBytes_outcome` and `decode_outcome`.
-/

namespace TorrentRemote

namespace Json

/-- The text that bytes stand for. -/
def decoded (bs : List UInt8) : Except Text.DecodeError (List Char) :=
  (detect bs).encoding.decode (detect bs).position (bs.drop (detect bs).skipped)

theorem parseBytes_decoded {bs : List UInt8} {cs : List Char} (h : decoded bs = .ok cs) :
    parseBytes bs = (parseChars cs).mapError .parsing := by
  unfold decoded at h
  rw [parseBytes, h]

theorem parseBytes_undecoded {bs : List UInt8} {e : Text.DecodeError} (h : decoded bs = .error e) :
    parseBytes bs = .error (.decoding e) := by
  unfold decoded at h
  rw [parseBytes, h]

theorem parseBytes_tooLong {bs : List UInt8} {count : Nat}
    (h : parseBytes bs = .error (.parsing (.tooManyDigits count))) :
    ∃ cs, decoded bs = .ok cs ∧ HasLongNumber count cs := by
  cases hd : decoded bs with
  | error e =>
    rw [parseBytes_undecoded hd] at h
    cases h
  | ok cs =>
    rw [parseBytes_decoded hd] at h
    obtain ⟨e, hparse, he⟩ := mapError_error h
    cases he
    exact ⟨cs, rfl, parseChars_tooLong hparse⟩

theorem parse_tooLong {s : String} {count : Nat} (h : parse s = .error (.tooManyDigits count)) :
    HasLongNumber count s.toList := by
  unfold parse at h
  dsimp only at h
  split at h
  · cases h
  · exact parseChars_tooLong h

end Json

namespace Response

/-! ## Envelopes -/

def get (entries : List (Value × Value)) (key : String) : Value :=
  (Value.lookup? key entries).getD .null

/-- What an envelope has from the entries of its JSON object. -/
structure ReadFrom (entries : List (Value × Value)) (r : Response) : Prop where
  keys : ∀ e ∈ entries, ∀ key, e.1.text? = some key → key ∈ knownKeys
  result : get entries "result" = .text r.result
  /-- A tag is an integer and may be missing or null. -/
  tag : get entries "tag" = (r.tag.map Value.int).getD .null
  /-- An empty object stands for arguments that are missing or null. -/
  arguments : r.arguments = if (get entries "arguments").isNull then .mapping [] else get entries "arguments"

theorem ReadFrom.arguments_not_null {entries : List (Value × Value)} {r : Response} (h : r.ReadFrom entries) :
    r.arguments.isNull = false := by
  rw [h.arguments]
  split
  · rfl
  · next hne => exact Bool.eq_false_iff.mpr hne

theorem unknownKeys_eq_nil {entries : List (Value × Value)} : unknownKeys entries = [] ↔
    ∀ e ∈ entries, ∀ key, e.1.text? = some key → key ∈ knownKeys := by
  unfold unknownKeys
  dsimp only
  rw [← List.length_eq_zero_iff, List.length_mergeSort, List.length_eq_zero_iff, List.filter_eq_nil_iff]
  constructor
  · intro h e he key hkey
    simpa using h key (List.mem_filterMap.mpr ⟨e, he, hkey⟩)
  · intro h key hkey
    obtain ⟨e, he, hkey⟩ := List.mem_filterMap.mp hkey
    simpa using h e he key hkey

theorem readTag_ok_iff {v : Value} {tag : Option Int} : readTag v = .ok tag ↔ v = (tag.map Value.int).getD .null := by
  cases v <;> cases tag <;> simp [readTag, refuse]

theorem refuse_error {α : Type} {message : String} {e : Failure} (h : (refuse message : Except Failure α) = .error e) :
    ∃ message, e = .client (.badResponse message) := by
  cases h
  exact ⟨message, rfl⟩

theorem readTag_error {v : Value} {e : Failure} (h : readTag v = .error e) :
    ∃ message, e = .client (.badResponse message) := by
  unfold readTag at h
  split at h
  · cases h
  · cases h
  · exact refuse_error h

theorem ofValue_mapping {entries : List (Value × Value)} {result : String} (hk : unknownKeys entries = [])
    (hr : get entries "result" = .text result) : ofValue (.mapping entries) =
      (readTag (get entries "tag")).map fun tag =>
        ⟨result, if (get entries "arguments").isNull then .mapping [] else get entries "arguments", tag⟩ := by
  unfold get at hr ⊢
  simp only [ofValue, hk, hr]
  cases readTag ((Value.lookup? "tag" entries).getD .null) with
  | error e => rfl
  | ok tag => cases (Value.lookup? "arguments" entries).getD .null <;> rfl

/-- Only an object without other keys and with a text as its result gets as far as its tag. -/
theorem ofValue_cases (v : Value) : (∃ entries result, v = .mapping entries ∧ unknownKeys entries = [] ∧
      get entries "result" = .text result) ∨ ∃ message, ofValue v = refuse message := by
  unfold ofValue
  split
  · next entries =>
    split
    · next hk =>
      dsimp only
      split
      · next result hr => exact .inl ⟨entries, result, rfl, hk, hr⟩
      · exact .inr ⟨_, rfl⟩
    · exact .inr ⟨_, rfl⟩
  · exact .inr ⟨_, rfl⟩

theorem ofValue_ok_iff {v : Value} {r : Response} :
    ofValue v = .ok r ↔ ∃ entries, v = .mapping entries ∧ r.ReadFrom entries := by
  constructor
  · intro h
    rcases ofValue_cases v with ⟨entries, result, rfl, hk, hr⟩ | ⟨message, hrefused⟩
    · rw [ofValue_mapping hk hr] at h
      obtain ⟨tag, htag, rfl⟩ := map_ok h
      exact ⟨entries, rfl, unknownKeys_eq_nil.mp hk, hr, readTag_ok_iff.mp htag, rfl⟩
    · rw [hrefused] at h
      cases h
  · rintro ⟨entries, rfl, h⟩
    rw [ofValue_mapping (unknownKeys_eq_nil.mpr h.keys) h.result, readTag_ok_iff.mpr h.tag, ← h.arguments]
    rfl

theorem ofValue_error {v : Value} {e : Failure} (h : ofValue v = .error e) :
    ∃ message, e = .client (.badResponse message) := by
  rcases ofValue_cases v with ⟨entries, result, rfl, hk, hr⟩ | ⟨message, hrefused⟩
  · rw [ofValue_mapping hk hr] at h
    exact readTag_error (map_error h)
  · exact refuse_error (hrefused ▸ h)

/-! ## Bodies -/

/-- What a body with a text comes to, if it has one, which is read as a value or not. -/
inductive Outcome (text : Option (List Char)) : Except Json.BytesError Value → Except Failure Response → Prop
  | envelope {entries : List (Value × Value)} {r : Response} : r.ReadFrom entries → r.arguments.isNull = false →
      Outcome text (.ok (.mapping entries)) (.ok r)
  | noEnvelope {v : Value} {message : String} :
      (∀ entries (r : Response), v = .mapping entries → ¬ r.ReadFrom entries) →
      Outcome text (.ok v) (.error (.client (.badResponse message)))
  | noValue {e : Json.BytesError} {message : String} : (∀ count, e ≠ .parsing (.tooManyDigits count)) →
      Outcome text (.error e) (.error (.client (.badResponse message)))
  | tooLong {cs : List Char} {count : Nat} : text = some cs → Json.HasLongNumber count cs →
      Outcome text (.error (.parsing (.tooManyDigits count))) (.error (.numeral (.tooManyDigits count)))

theorem outcome_of_value (text : Option (List Char)) (v : Value) : Outcome text (.ok v) (ofValue v) := by
  cases h : ofValue v with
  | ok r =>
    obtain ⟨entries, rfl, hr⟩ := ofValue_ok_iff.mp h
    exact .envelope hr hr.arguments_not_null
  | error e =>
    obtain ⟨message, rfl⟩ := ofValue_error h
    refine .noEnvelope fun entries r hv hr => ?_
    rw [ofValue_ok_iff.mpr ⟨entries, hv, hr⟩] at h
    cases h

theorem outcome_of_failure {text : Option (List Char)} {e : Json.BytesError}
    (h : ∀ count, e = .parsing (.tooManyDigits count) → ∃ cs, text = some cs ∧ Json.HasLongNumber count cs) :
    Outcome text (.error e) (.error (bodyFailure e)) := by
  unfold bodyFailure
  split
  · next count =>
    obtain ⟨cs, htext, hlong⟩ := h count rfl
    exact .tooLong htext hlong
  · next hne => exact .noValue hne

theorem decodeBytes_outcome (bs : List UInt8) :
    Outcome (Json.decoded bs).toOption (Json.parseBytes bs) (decodeBytes bs) := by
  unfold decodeBytes
  cases hp : Json.parseBytes bs with
  | ok v => exact outcome_of_value _ v
  | error e =>
    refine outcome_of_failure fun count he => ?_
    obtain ⟨cs, hd, hlong⟩ := Json.parseBytes_tooLong (he ▸ hp)
    exact ⟨cs, by rw [hd]; rfl, hlong⟩

theorem decode_outcome (s : String) : Outcome (some s.toList) ((Json.parse s).mapError .parsing) (decode s) := by
  unfold decode
  cases hp : Json.parse s with
  | ok v => exact outcome_of_value _ v
  | error e =>
    refine outcome_of_failure fun count he => ?_
    cases he
    exact ⟨s.toList, rfl, Json.parse_tooLong hp⟩

/-! ## A body that is only a number -/

theorem piecesFrom_ones : ∀ n position, Text.Utf8.withSurrogates.piecesFrom n position (List.replicate n 0x31) =
    List.replicate n (.char '1')
  | 0, _ => rfl
  | n + 1, position => by
    have hfront : ∀ bs, Text.Utf8.withSurrogates.front (0x31 :: bs) = .char '1' 1 := fun _ => by rfl
    rw [List.replicate_succ, Text.Encoding.piecesFrom, hfront]
    exact congrArg _ (piecesFrom_ones n _)

theorem readPieces_ones (name : String) : ∀ n, Text.Encoding.readPieces name (List.replicate n (.char '1')) =
    .ok (List.replicate n '1')
  | 0 => rfl
  | n + 1 => by
    rw [List.replicate_succ, Text.Encoding.readPieces, readPieces_ones name n]
    rfl

theorem decoded_ones (n : Nat) : Json.decoded (List.replicate (n + 4) 0x31) = .ok (List.replicate (n + 4) '1') := by
  have hdetect : Json.detect (List.replicate (n + 4) 0x31) = ⟨Text.Utf8.withSurrogates, 0, 0⟩ := by rfl
  rw [Json.decoded, hdetect, Text.Encoding.decode, Text.Encoding.pieces, List.drop_zero, List.length_replicate,
    piecesFrom_ones, readPieces_ones]

/-- A long number that is well formed is not refused as a response. -/
theorem decodeBytes_ones {n : Nat} (h : Numeral.digitLimit < n) :
    decodeBytes (List.replicate n 0x31) = .error (.numeral (.tooManyDigits n)) := by
  obtain ⟨k, rfl⟩ : ∃ k, n = k + 4 := ⟨n - 4, by unfold Numeral.digitLimit at h; omega⟩
  have hread : Json.readText (List.replicate (k + 4) '1') = .error (.tooManyDigits (k + 4)) := by
    rw [List.replicate_succ, Json.readText_one]
    · rw [List.length_replicate]
    · intro c hc
      rw [(List.mem_replicate.mp hc).2]
      rfl
    · rw [List.length_replicate]
      exact h
  rw [decodeBytes, Json.parseBytes_decoded (decoded_ones k), Json.parseChars, hread]
  rfl

end Response

end TorrentRemote
