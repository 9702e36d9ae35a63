import TorrentRemote.Envelope
import TorrentRemote.Proofs.Except
import TorrentRemote.Proofs.Value.Tree

/-!
# What strict JSON cannot carry

A value has no JSON text exactly if somewhere in it there is a float that is not finite, an integer of too many
digits, a thing that is no JSON value or a key that is none: `write_fails`. A request is carried exactly if its
arguments and its tag are.
-/

namespace TorrentRemote

namespace Json
open Value

/-- A key is a text, or else a number, a flag or nothing. -/
def UnfitKey : Value → Prop
  | .text _ | .member _ | .bool _ | .null => False
  | .int n => ¬ HasDigits n
  | .float x => x.isFinite = false
  | _ => True

inductive Uncarried : Value → Prop
  | int {n : Int} : ¬ HasDigits n → Uncarried (.int n)
  | float {x : Binary64} : x.isFinite = false → Uncarried (.float x)
  | bytes (bs : List UInt8) : Uncarried (.bytes bs)
  | buffer (bs : List UInt8) : Uncarried (.buffer bs)
  | time (m : Moment) : Uncarried (.time m)
  | duration (d : Duration) : Uncarried (.duration d)
  | record (model : String) (fields : List (Label × Value)) : Uncarried (.record model fields)
  | object (mark : Nat) : Uncarried (.object mark)
  | list {v : Value} {vs : List Value} : v ∈ vs → Uncarried v → Uncarried (.list vs)
  | tuple {v : Value} {vs : List Value} : v ∈ vs → Uncarried v → Uncarried (.tuple vs)
  | key {e : Value × Value} {es : List (Value × Value)} : e ∈ es → UnfitKey e.1 → Uncarried (.mapping es)
  | value {e : Value × Value} {es : List (Value × Value)} : e ∈ es → Uncarried e.2 → Uncarried (.mapping es)

/-! ## Leaves and keys -/

theorem writeInt_fails {n : Int} : Fails (writeInt n) ↔ ¬ HasDigits n := by
  unfold writeInt HasDigits
  by_cases h : decimalLength n.natAbs > Numeral.digitLimit
  · rw [if_pos h]
    exact iff_of_true ⟨_, rfl⟩ (Nat.not_le.mpr h)
  · rw [if_neg h]
    exact iff_of_false (not_fails_ok _) fun hlong => hlong (Nat.not_lt.mp h)

theorem writeFloat_fails {x : Binary64} : Fails (writeFloat x) ↔ x.isFinite = false := by
  unfold writeFloat
  cases hx : x.isFinite with
  | true => exact iff_of_false (not_fails_ok _) (by simp)
  | false => exact iff_of_true ⟨_, rfl⟩ rfl

theorem member_hasDigits {m : Member} {n : Int} (h : m.code = .number n) : HasDigits n := by
  cases m with
  | encryption e => cases h
  | status s => cases s <;> cases h <;> decide
  | priority p => cases p <;> cases h <;> decide
  | mode m => cases m <;> cases h <;> decide
  | state s => cases s <;> cases h <;> decide

theorem keyText_fails {k : Value} : Fails (keyText k) ↔ UnfitKey k := by
  cases k with
  | int n => exact writeInt_fails
  | float x => exact writeFloat_fails
  | member m =>
    refine iff_of_false ?_ id
    rw [keyText]
    split
    · exact not_fails_ok _
    · next n hn => exact fun h => writeInt_fails.mp h (member_hasDigits hn)
  | null | bool _ | text _ => exact iff_of_false (not_fails_ok _) id
  | _ => exact iff_of_true ⟨_, rfl⟩ trivial

/-! ## Values -/

mutual

theorem write_fails : ∀ {v : Value}, Fails (write v) ↔ Uncarried v
  | .null | .bool _ | .text _ => by
    refine iff_of_false ?_ nofun
    rw [write]
    exact not_fails_ok _
  | .int n => by
    rw [write, writeInt_fails]
    exact ⟨.int, fun | .int h => h⟩
  | .float x => by
    rw [write, writeFloat_fails]
    exact ⟨.float, fun | .float h => h⟩
  | .member m => by
    refine iff_of_false ?_ nofun
    rw [write]
    split
    · exact not_fails_ok _
    · next n hn => exact fun h => writeInt_fails.mp h (member_hasDigits hn)
  | .list vs => by
    rw [write, fails_bind_pure, writeAll_fails]
    exact ⟨fun ⟨_, hv, h⟩ => .list hv h, fun | .list hv h => ⟨_, hv, h⟩⟩
  | .tuple vs => by
    rw [write, fails_bind_pure, writeAll_fails]
    exact ⟨fun ⟨_, hv, h⟩ => .tuple hv h, fun | .tuple hv h => ⟨_, hv, h⟩⟩
  | .mapping es => by
    rw [write, fails_bind_pure, writeEntries_fails]
    constructor
    · rintro ⟨e, he, h | h⟩
      · exact .key he h
      · exact .value he h
    · intro h
      cases h with
      | key he h => exact ⟨_, he, .inl h⟩
      | value he h => exact ⟨_, he, .inr h⟩
  | .bytes bs => iff_of_true ⟨_, rfl⟩ (.bytes bs)
  | .buffer bs => iff_of_true ⟨_, rfl⟩ (.buffer bs)
  | .time m => iff_of_true ⟨_, rfl⟩ (.time m)
  | .duration d => iff_of_true ⟨_, rfl⟩ (.duration d)
  | .record model fields => iff_of_true ⟨_, rfl⟩ (.record model fields)
  | .object mark => iff_of_true ⟨_, rfl⟩ (.object mark)

theorem writeAll_fails : ∀ {vs : List Value}, Fails (writeAll vs) ↔ ∃ v ∈ vs, Uncarried v
  | [] => by
    refine iff_of_false ?_ (by simp)
    rw [writeAll]
    exact not_fails_ok _
  | v :: vs => by
    rw [writeAll, fails_bind fun s => fails_bind_pure, write_fails, writeAll_fails]
    simp only [List.mem_cons, exists_eq_or_imp]

theorem writeEntries_fails : ∀ {es : List (Value × Value)}, Fails (writeEntries es) ↔
    ∃ e ∈ es, UnfitKey e.1 ∨ Uncarried e.2
  | [] => by
    refine iff_of_false ?_ (by simp)
    rw [writeEntries]
    exact not_fails_ok _
  | (k, v) :: es => by
    rw [writeEntries, fails_bind fun key => fails_bind fun s => fails_bind_pure, keyText_fails, write_fails,
      writeEntries_fails]
    simp only [List.mem_cons, exists_eq_or_imp, or_assoc]

end

theorem uncarried_list {vs : List Value} : Uncarried (.list vs) ↔ ∃ v ∈ vs, Uncarried v :=
  ⟨fun | .list hv h => ⟨_, hv, h⟩, fun ⟨_, hv, h⟩ => .list hv h⟩

theorem uncarried_ofFields {fields : List (String × Value)} : Uncarried (ofFields fields) ↔
    ∃ f ∈ fields, Uncarried f.2 := by
  constructor
  · intro h
    cases h with
    | key he h =>
      obtain ⟨f, -, rfl⟩ := List.mem_map.mp he
      exact absurd h id
    | value he h =>
      obtain ⟨f, hf, rfl⟩ := List.mem_map.mp he
      exact ⟨f, hf, h⟩
  · intro ⟨f, hf, h⟩
    exact .value (List.mem_map.mpr ⟨f, hf, rfl⟩) h

end Json

/-! ## Bodies -/

namespace Envelope
open Json Value
variable {method : String} {arguments : Value} {tag : Int}

theorem request_uncarried : Uncarried (request method arguments (.int tag)) ↔
    Uncarried arguments ∨ ¬ HasDigits tag := by
  have htag : Uncarried (.int tag) ↔ ¬ HasDigits tag := by
    constructor
    · rintro ⟨h⟩
      exact h
    · exact .int
  have hmethod : ¬ Uncarried (.text method) := by
    rintro ⟨⟩
  rw [request, uncarried_ofFields, ← htag]
  cases hnull : arguments.isNull with
  | true =>
    have hcarried : ¬ Uncarried arguments := by
      rw [isNull_eq_true.mp hnull]
      rintro ⟨⟩
    simp [hmethod, hcarried]
  | false => simp [hmethod]

variable (hmethod : method ≠ "")
include hmethod

theorem encode_uncarried (h : Uncarried arguments ∨ ¬ HasDigits tag) : ∃ e : Json.WriteError,
    encode method arguments (.int tag) =
      .error (.client (.arguments ("Cannot encode " ++ method ++ " arguments: " ++ e.message))) := by
  obtain ⟨e, he⟩ := write_fails.mpr (request_uncarried.mpr h)
  refine ⟨e, ?_⟩
  rw [encode, if_neg (by simpa using hmethod), he]

theorem encode_carried (h : ¬ Uncarried arguments) (htag : HasDigits tag) :
    ∃ body, encode method arguments (.int tag) = .ok body := by
  obtain ⟨body, hbody⟩ := ok_of_not_fails fun hfails =>
    (request_uncarried.mp (write_fails.mp hfails)).elim h fun hlong => hlong htag
  refine ⟨body, ?_⟩
  rw [encode, if_neg (by simpa using hmethod), hbody]

end Envelope

end TorrentRemote
