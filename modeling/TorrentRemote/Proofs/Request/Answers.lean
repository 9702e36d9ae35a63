import Mathlib.Data.List.Nodup
import TorrentRemote.Proofs.Model.Instance
import TorrentRemote.Request.Basic

/-!
# Answers that tell one value

The size of the blocklist, the free space and the test of the port each stand under one key of the answer. A value of
the right kind is told as it is; what is no number is made one all the same, or it fails in ways that are no error of
the client (`Request.told_value`).
-/

namespace TorrentRemote

namespace Request
open Kind (Typed)

/-- The answer to a request is the value under a key, which should be of a kind. -/
inductive Tells : Request → String → Kind → Prop
  | blocklist : Tells .updateBlocklist "blocklist-size" .integer
  | space {path : Value} : Tells (.freeSpace path) "size-bytes" .integer
  | port : Tells .testPort "port-is-open" .flag

def HasAt (key : String) (arguments w : Value) : Prop :=
  ∃ es, arguments = .mapping es ∧ Value.lookup? key es = some w

/-- What is told is the value of the kind that stands there, or it is refused with an error of the client. -/
def Faithful (kind : Kind) (key : String) (arguments : Value) (result : Except Failure Value) : Prop :=
  (∃ w x, HasAt key arguments w ∧ kind.Typed w x ∧ result = .ok x) ∨ ∃ e : ClientError, result = .error (.client e)

/-- What is made of a value that is not of the kind: whole numbers of flags, fractions and numerals, and flags of
everything by whether it is empty or zero. -/
inductive Converted : Kind → Value → Except Failure Value → Prop
  | flag {b : Bool} : Converted .integer (.bool b) (.ok (.int b.toNat))
  | fraction {x : Binary64} {n : Int} : x.truncate? = some n → Converted .integer (.float x) (.ok (.int n))
  | infinity {x : Binary64} : x.isInfinite = true →
      Converted .integer (.float x) (.error .infinityToInteger)
  | nan {mark : Nat} : Converted .integer (.float (.nan mark)) (.error .nanToInteger)
  | numeral {s : String} {n : Int} : Numeral.whole s = .ok n → Converted .integer (.text s) (.ok (.int n))
  | noNumeral {s : String} {e : NumeralError} : Numeral.whole s = .error e →
      Converted .integer (.text s) (.error (.numeral e))
  | null : Converted .integer .null (.error (.notANumber "NoneType"))
  | list {vs : List Value} : Converted .integer (.list vs) (.error (.notANumber "list"))
  | mapping {es : List (Value × Value)} : Converted .integer (.mapping es) (.error (.notANumber "dict"))
  | truth {w : Value} : w.int? = none → (∀ b, w ≠ .bool b) → Converted .flag w (.ok (.bool w.isTrue))

/-- What an answer comes to that is to tell a value of a kind. -/
inductive Told (kind : Kind) (key : String) (arguments : Value) : Except Failure Value → Prop
  | missing : (∀ w, ¬ HasAt key arguments w) →
      Told kind key arguments (.error (.client (.badResponse ("Missing response argument: " ++ key))))
  | typed {w x : Value} : HasAt key arguments w → kind.Typed w x → Told kind key arguments (.ok x)
  | converted {w : Value} {result : Except Failure Value} : HasAt key arguments w → Converted kind w result →
      Told kind key arguments result

theorem Converted.not_client {kind : Kind} {w : Value} {result : Except Failure Value} (h : Converted kind w result)
    (e : ClientError) : result ≠ .error (.client e) := by
  cases h <;> nofun

theorem Converted.not_typed {kind : Kind} {w : Value} {result : Except Failure Value} (h : Converted kind w result)
    (x : Value) : ¬ kind.Typed w x := by
  cases h with
  | truth hint hb =>
    intro htyped
    cases htyped with
    | flag => exact hb _ rfl
    | wholeFlag => cases hint
  | _ => nofun

theorem HasAt.unique {key : String} {arguments w w' : Value} (h : HasAt key arguments w)
    (h' : HasAt key arguments w') : w = w' := by
  obtain ⟨es, rfl, hw⟩ := h
  obtain ⟨es', hes, hw'⟩ := h'
  cases hes
  exact Option.some.inj (hw.symm.trans hw')

theorem HasAt.isPlain {key : String} {arguments w : Value} (h : HasAt key arguments w) (hv : arguments.IsPlain) :
    w.IsPlain := by
  obtain ⟨es, rfl, hw⟩ := h
  exact hv.lookup hw

/-! ## Whole numbers and flags -/

theorem truncate_none {negative : Bool} {rank : Fin (Binary64.topRank + 1)}
    (h : (Binary64.ranked negative rank).truncate? = none) : (Binary64.ranked negative rank).isInfinite = true := by
  unfold Binary64.truncate? at h
  split at h
  · cases h
  · next hfinite =>
    have hrank : ¬ rank.val < Binary64.topRank := by simpa [Binary64.isFinite] using hfinite
    have htop : rank.val = Binary64.topRank := by omega
    simp [Binary64.isInfinite, htop]

theorem toInteger_fraction (x : Binary64) :
    Converted .integer (.float x) ((Value.float x).toInteger.map .int) := by
  cases x with
  | nan mark => exact .nan
  | ranked negative rank =>
    cases h : (Binary64.ranked negative rank).truncate? with
    | some n =>
      simp only [Value.toInteger, h]
      exact .fraction h
    | none =>
      simp only [Value.toInteger, h]
      exact .infinity (truncate_none h)

theorem toInteger_text (s : String) : Converted .integer (.text s) ((Value.text s).toInteger.map .int) := by
  have hread : (Value.text s).toInteger = (Numeral.whole s).mapError .numeral := rfl
  rw [hread]
  cases h : Numeral.whole s with
  | ok n => exact .numeral h
  | error e => exact .noNumeral h

theorem toInteger_outcome {w : Value} (hw : w.IsPlain) :
    (∃ x, Typed .integer w x ∧ w.toInteger.map .int = .ok x) ∨ Converted .integer w (w.toInteger.map .int) := by
  cases hw with
  | @leaf w h =>
    cases w with
    | int n => exact .inl ⟨_, .integer, rfl⟩
    | null => exact .inr .null
    | bool b => exact .inr .flag
    | float x => exact .inr (toInteger_fraction x)
    | text s => exact .inr (toInteger_text s)
    | _ => cases h
  | list _ => exact .inr .list
  | mapping _ _ => exact .inr .mapping

theorem isTrue_outcome {w : Value} (hw : w.IsPlain) :
    (∃ x, Typed .flag w x ∧ Value.bool w.isTrue = x) ∨ Converted .flag w (.ok (.bool w.isTrue)) := by
  cases hint : w.int? with
  | some n =>
    rw [hw.of_int hint]
    exact .inl ⟨_, .wholeFlag, rfl⟩
  | none =>
    by_cases hb : ∃ b, w = .bool b
    · obtain ⟨b, rfl⟩ := hb
      exact .inl ⟨_, .flag, rfl⟩
    · exact .inr (.truth hint fun b hw => hb ⟨b, hw⟩)

/-! ## Reading the value -/

def tell : Kind → Value → Except Failure Value
  | .flag, w => .ok (.bool w.isTrue)
  | _, w => w.toInteger.map .int

theorem answerValue_found {key : String} {v w : Value} (h : HasAt key v w) : answerValue key v = .ok w := by
  obtain ⟨es, rfl, hw⟩ := h
  simp only [answerValue, hw]
  rfl

theorem answerValue_missing {key : String} {v : Value} (h : ∀ w, ¬ HasAt key v w) :
    answerValue key v = .error (.client (.badResponse ("Missing response argument: " ++ key))) := by
  unfold answerValue
  split
  · next es =>
    cases hw : Value.lookup? key es with
    | none => rfl
    | some w => exact absurd ⟨es, rfl, hw⟩ (h w)
  · rfl

section
variable {r : Request} {key : String} {kind : Kind} (hr : r.Tells key kind)
include hr

theorem Tells.readAnswer_eq (v : Value) : r.readAnswer v = (answerValue key v >>= tell kind) := by
  cases hr with
  | blocklist | space => exact bind_congr fun w => bind_pure_eq_map w.toInteger Value.int
  | port => rfl

theorem Tells.tell_outcome {w : Value} (hw : w.IsPlain) :
    (∃ x, kind.Typed w x ∧ tell kind w = .ok x) ∨ Converted kind w (tell kind w) := by
  cases hr with
  | blocklist | space => exact toInteger_outcome hw
  | port =>
    rcases isTrue_outcome hw with ⟨x, hx, rfl⟩ | h
    · exact .inl ⟨_, hx, rfl⟩
    · exact .inr h

/-- What an answer comes to, which is faithful exactly if there is no value or one that is of the kind. -/
theorem told_value {v : Value} (hv : v.IsPlain) : Told kind key v (r.readAnswer v) ∧
    (Faithful kind key v (r.readAnswer v) ↔ ∀ w, HasAt key v w → ∃ x, kind.Typed w x) := by
  rw [hr.readAnswer_eq]
  by_cases hhas : ∃ w, HasAt key v w
  · obtain ⟨w, hw⟩ := hhas
    rw [answerValue_found hw, ok_bind]
    rcases hr.tell_outcome (hw.isPlain hv) with ⟨x, hx, htell⟩ | hconverted
    · rw [htell]
      refine ⟨.typed hw hx, fun _ w' hw' => ⟨x, ?_⟩, fun _ => .inl ⟨w, x, hw, hx, rfl⟩⟩
      rwa [hw'.unique hw]
    · refine ⟨.converted hw hconverted, ?_, fun h => ?_⟩
      · rintro (⟨w', x, hw', hx, -⟩ | ⟨e, he⟩) w'' hw''
        · exact ⟨x, by rwa [hw''.unique hw']⟩
        · exact absurd he (hconverted.not_client e)
      · obtain ⟨x, hx⟩ := h w hw
        exact absurd hx (hconverted.not_typed x)
  · have hmissing : ∀ w, ¬ HasAt key v w := fun w hw => hhas ⟨w, hw⟩
    rw [answerValue_missing hmissing]
    exact ⟨.missing hmissing, fun _ w hw => absurd hw (hmissing w), fun _ => .inr ⟨_, rfl⟩⟩

end

/-! ## Answers that are not refused -/

def lone (key : String) (w : Value) : Value :=
  Value.ofFields [(key, w)]

theorem lone_hasAt (key : String) (w : Value) : HasAt key (lone key w) w :=
  ⟨_, rfl, Value.lookup_first _ _ _⟩

theorem lone_isJson {key : String} {w : Value} (hw : w.IsJson) : (lone key w).IsJson :=
  .mapping (List.nodup_singleton _) (List.forall_mem_singleton.mpr hw)

theorem told_value_numeral : (freeSpace (.text "/")).readAnswer (lone "size-bytes" (.text "12")) = .ok (.int 12) ∧
    ¬ Faithful .integer "size-bytes" (lone "size-bytes" (.text "12")) (.ok (.int 12)) := by
  have hread : (freeSpace (.text "/")).readAnswer (lone "size-bytes" (.text "12")) = .ok (.int 12) := by rfl
  have hjson : (lone "size-bytes" (.text "12")).IsJson := lone_isJson (.leaf ⟨trivial, nofun⟩)
  have htells : (freeSpace (.text "/")).Tells "size-bytes" .integer := .space
  have htold := (told_value htells hjson.isPlain).2
  rw [hread] at htold
  refine ⟨hread, fun hfaithful => ?_⟩
  obtain ⟨x, hx⟩ := htold.mp hfaithful _ (lone_hasAt _ _)
  cases hx

theorem loose_answers_told :
    updateBlocklist.readAnswer (lone "blocklist-size" .null) = .error (.notANumber "NoneType") ∧
    testPort.readAnswer (lone "port-is-open" (.text "false")) = .ok (.bool true) ∧
    ¬ ∀ r key kind, Tells r key kind → ∀ v : Value, v.IsJson → Faithful kind key v (r.readAnswer v) := by
  have hnull : updateBlocklist.readAnswer (lone "blocklist-size" .null) = .error (.notANumber "NoneType") := by rfl
  refine ⟨hnull, rfl, fun h => ?_⟩
  have hjson : (lone "blocklist-size" .null).IsJson := lone_isJson (.leaf ⟨trivial, nofun⟩)
  have hfaithful := h _ _ _ .blocklist _ hjson
  rw [hnull] at hfaithful
  rcases hfaithful with ⟨w, x, -, -, hx⟩ | ⟨e, he⟩
  · cases hx
  · cases he

end Request

end TorrentRemote
