import TorrentRemote.Proofs.Json.RoundTrip
import TorrentRemote.Proofs.Response

/-!
# Bodies that are read back

What goes into the body of a request comes out of its bytes, and what the daemon writes as a response in
the same way comes out of it: `Envelope.exchanged_unchanged`. Fractions apart, nothing is lost on the way.
-/

namespace TorrentRemote

namespace Json

theorem detect_object (bs : List UInt8) : detect (0x7B :: 0x22 :: bs) = ⟨Text.Utf8.withSurrogates, 0, 0⟩ := by
  rcases bs with _ | ⟨b, _ | ⟨c, bs⟩⟩ <;> rfl

theorem decoded_object {s : String} {tail : List Char} (h : s.toList = '\x7b' :: '"' :: tail) :
    decoded (Text.Utf8.encode s) = .ok s.toList := by
  have hbytes : Text.Utf8.encode s = 0x7B :: 0x22 :: tail.flatMap String.utf8EncodeChar := by
    rw [Text.Utf8.encode_eq, h]
    rfl
  have hdetect : detect (Text.Utf8.encode s) = ⟨Text.Utf8.withSurrogates, 0, 0⟩ := by
    rw [hbytes, detect_object]
  rw [decoded, hdetect]
  exact Text.Utf8.decode_encode s 0

/-- The value is written as the text, and both the text and its bytes are read as the value. -/
structure ReadBack (v : Value) (s : String) : Prop where
  written : write v = .ok s
  parsed : parse s = .ok v
  parsedBytes : parseBytes (Text.Utf8.encode s) = .ok v

theorem object_readBack {fields : List (String × Value)} (hne : fields ≠ []) (hn : (fields.map Prod.fst).Nodup)
    (h : ∀ f ∈ fields, f.2.IsExact) : ∃ s, ReadBack (Value.ofFields fields) s := by
  obtain ⟨s, tail, hs, htail, hstands⟩ := write_fields hne hn fun f hf => write_stands (h f hf)
  have hchars : parseChars s.toList = .ok (Value.ofFields fields) := by
    rw [parseChars, hstands.readText]
    rfl
  refine ⟨s, hs, ?_, ?_⟩
  · have hmark : s.toList.head? ≠ some '\uFEFF' := by
      rw [htail]
      simp
    simp only [parse, hmark, if_false, hchars]
  · rw [parseBytes_decoded (decoded_object htail), hchars]
    rfl

end Json

namespace Envelope

def response (result : String) (arguments tag : Value) : Value :=
  Value.ofFields [("result", .text result), ("arguments", arguments), ("tag", tag)]

theorem ofValue_response (result : String) (arguments : Value) (tag : Int) :
    Response.ofValue (response result arguments (.int tag)) =
      .ok ⟨result, if arguments.isNull then .mapping [] else arguments, some tag⟩ := by
  refine Response.ofValue_ok_iff.mpr ⟨_, rfl, ?_⟩
  refine ⟨?_, rfl, rfl, rfl⟩
  intro e he key hkey
  simp only [List.map_cons, List.map_nil, List.mem_cons, List.not_mem_nil, or_false] at he
  rcases he with rfl | rfl | rfl <;> cases hkey <;> decide

theorem exchanged_unchanged {method : String} (hmethod : method ≠ "") {tag : Int} (htag : Value.HasDigits tag)
    {arguments : Value} (ha : arguments.IsExact) :
    (∃ body, encode method arguments (.int tag) = .ok body ∧ Json.parseBytes (Text.Utf8.encode body) = .ok (.ofFields
      (if arguments.isNull then [("method", .text method), ("tag", .int tag)]
        else [("method", .text method), ("arguments", arguments), ("tag", .int tag)]))) ∧
    ∀ result, ∃ text, Json.write (response result arguments (.int tag)) = .ok text ∧
      Response.decode text = .ok ⟨result, if arguments.isNull then .mapping [] else arguments, some tag⟩ ∧
      Response.decodeBytes (Text.Utf8.encode text) =
        .ok ⟨result, if arguments.isNull then .mapping [] else arguments, some tag⟩ := by
  have htext (s : String) : (Value.text s).IsExact := .leaf trivial
  have hint : (Value.int tag).IsExact := .leaf htag
  constructor
  · obtain ⟨body, hbody⟩ : ∃ s, Json.ReadBack (request method arguments (.int tag)) s := by
      unfold request
      cases arguments.isNull
      · exact Json.object_readBack (by simp) (by simp) (by simp [htext, hint, ha])
      · exact Json.object_readBack (by simp) (by simp) (by simp [htext, hint])
    have hempty : ¬ method.isEmpty = true := by simpa using hmethod
    refine ⟨body, by rw [encode, if_neg hempty, hbody.written], ?_⟩
    rw [hbody.parsedBytes, request]
    cases arguments.isNull <;> rfl
  · intro result
    obtain ⟨text, ht⟩ : ∃ s, Json.ReadBack (response result arguments (.int tag)) s :=
      Json.object_readBack (by simp) (by simp) (by simp [htext, hint, ha])
    refine ⟨text, ht.written, ?_, ?_⟩
    · rw [Response.decode, ht.parsed]
      exact ofValue_response result arguments tag
    · rw [Response.decodeBytes, ht.parsedBytes]
      exact ofValue_response result arguments tag

def sampleArguments : Value :=
  .ofFields [("ids", .list [.int 7, .text "\"\n😀"]), ("none", .mapping [])]

theorem exchanged_sample : ∃ body, encode "torrent-set" sampleArguments (.int (-3)) = .ok body ∧
    Json.parseBytes (Text.Utf8.encode body) = .ok (.ofFields
      [("method", .text "torrent-set"), ("arguments", sampleArguments), ("tag", .int (-3))]) := by
  have hids : (Value.list [.int 7, .text "\"\n😀"]).IsExact := by
    refine .list (List.forall_mem_cons.mpr ⟨.leaf (by decide : Value.HasDigits 7), ?_⟩)
    exact List.forall_mem_singleton.mpr (.leaf trivial)
  have hnone : (Value.ofFields []).IsExact := .mapping (by decide) (by simp)
  have harguments : sampleArguments.IsExact := by
    refine .mapping (by decide) (List.forall_mem_cons.mpr ⟨hids, ?_⟩)
    exact List.forall_mem_singleton.mpr hnone
  exact (exchanged_unchanged (by decide) (by decide) harguments).1

end Envelope

end TorrentRemote
