import TorrentRemote.Proofs.Connection.Landings
import TorrentRemote.Proofs.Connection.Rounds
import TorrentRemote.Proofs.Response

/-!
# Why calls fail

A body that is no envelope is refused with an error of the client, with one exception: a whole number
with too many digits. So a failure that is no error of the client lies with the request, with the
session, with the reader of the arguments or with such a number: `body_outcomes`.
-/

namespace TorrentRemote.Connection

/-- Why a call ends with a failure. -/
inductive Cause (s : Settings) (asked : Asked) (run : Run) : Failure → Prop
  | client (e : ClientError) : Cause s asked run (.client e)
  | unprepared {e : Failure} : asked.prepare s run.state.nextTag = .error e → Cause s asked run e
  | broken {l : Landing} {fault : SessionFault} : l ∈ asked.landings s run → l.answer = .broken fault →
      Cause s asked run (.session fault)
  /-- A body that is for the log and that the session can make no text of. -/
  | unshown {l : Landing} {r : HttpResponse} {fault : SessionFault} : l ∈ asked.landings s run →
      l.answer = .response r → s.logsBodies = true → r.text = .error fault → Cause s asked run (.session fault)
  | unread {l : Landing} {r : HttpResponse} {envelope : Response} {read : Reader} {e : Failure} :
      l ∈ asked.landings s run → l.answer = .response r → GoodAnswer run.state.nextTag r envelope →
      asked.read = some read → read envelope.arguments = .error e → Cause s asked run e
  | tooLong {l : Landing} {r : HttpResponse} {cs : List Char} {count : Nat} :
      l ∈ asked.landings s run → l.answer = .response r → r.status = 200 →
      (Json.decoded r.body).toOption = some cs → Json.HasLongNumber count cs →
      Cause s asked run (.numeral (.tooManyDigits count))

section
variable {s : Settings} {asked : Asked} {run : Run} {l : Landing} (hl : l ∈ asked.landings s run)
include hl

theorem cause_of_body {r : HttpResponse} {e : Failure} (ha : l.answer = .response r) (hstatus : r.status = 200)
    (h : Response.decodeBytes r.body = .error e) : Cause s asked run e := by
  have houtcome := Response.decodeBytes_outcome r.body
  rw [h] at houtcome
  generalize Json.parseBytes r.body = parsed at houtcome
  cases houtcome with
  | noEnvelope => exact .client _
  | noValue => exact .client _
  | tooLong htext hlong => exact .tooLong hl ha hstatus htext hlong

theorem cause_of_verdict {result : Except Failure Value} {e : Failure}
    (hv : Verdict run.state.nextTag asked.read l.answer result) (h : result = .error e) : Cause s asked run e := by
  generalize ha : l.answer = a at hv
  cases hv with
  | networkFailure => cases h; exact .client _
  | broken fault => cases h; exact .broken hl ha
  | unauthorized => cases h; exact .client _
  | status => cases h; exact .client _
  | noEnvelope hstatus hd => cases h; exact cause_of_body hl ha hstatus hd
  | mismatched => cases h; exact .client _
  | refused => cases h; exact .client _
  | unread => cases h
  | handed hgood hread => exact .unread hl ha hgood hread h

theorem cause_of_outcome {e : Failure}
    (h : (Ending.ofAttempts run.state.nextTag asked.read (l.answer.outcome.bind s.shown)).result = .error e) :
    Cause s asked run e := by
  cases ha : l.answer with
  | response r =>
    rw [ha] at h
    rcases shown_cases s r with hs | ⟨fault, hlogs, htext, hs⟩
    · rw [Answer.outcome, Except.bind, hs] at h
      refine cause_of_verdict hl (verdict_iff.mpr rfl) ?_
      rw [ha]
      exact h
    · rw [Answer.outcome, Except.bind, hs] at h
      cases h
      exact .unshown hl ha hlogs htext
  | networkFailure message =>
    rw [ha] at h
    cases h
    exact .client _
  | broken fault =>
    rw [ha] at h
    cases h
    exact .broken hl ha

theorem cause_of_cancelled {e : Failure} (h : l.answer.failureIfCancelled = e) : Cause s asked run e := by
  cases ha : l.answer with
  | response r => rw [← h, ha]; exact .client _
  | networkFailure message => rw [← h, ha]; exact .client _
  | broken fault => rw [← h, ha]; exact .broken hl ha

end

theorem call_cause {s : Settings} {asked : Asked} {run : Run} {e : Failure} (h : (ask s asked run).1 = .error e) :
    Cause s asked run e := by
  cases hp : asked.prepare s run.state.nextTag with
  | error e' =>
    rw [ask_refused hp] at h
    cases h
    exact .unprepared hp
  | ok p =>
    obtain ⟨body, left⟩ := p
    cases hc : asked.isCancelled run.cancelled with
    | true =>
      rw [(ask_cancelled hp hc).2] at h
      cases h
      exact .client _
    | false =>
      obtain ⟨earlier, last, hlandings, -, hask⟩ := ask_landings hp hc
      have hl : last ∈ asked.landings s run := by simp [hlandings]
      rw [hask, finish_result] at h
      -- the last answer counts as it is, unless it finds the call cancelled
      unfold Landing.outcome at h
      split at h
      · exact cause_of_cancelled hl (Except.error.inj h)
      · exact cause_of_outcome hl h

/-! ## A response that is a long number -/

theorem ask_answered {s : Settings} {asked : Asked} {run : Run} {body : String} {left : Nat} {r : HttpResponse}
    (hs : s.CanShow r) (hp : asked.prepare s run.state.nextTag = .ok (body, left)) (hc : asked.cancellable = false)
    (ha : (run.script.getD 0 .idle).answer run.state.nextTag = .response r) (hr : r.status = 200) :
    (∀ l ∈ asked.landings s run, l.answer = .response r) ∧
      (ask s asked run).1 = (conclude run.state.nextTag asked.read r).result := by
  let overlap := overlapping (call s run.script.length)
  let l := (run.start s asked).landing s overlap (run.callOf asked body) 1
  have hcancelled : ∀ run', (run.callOf asked body).isCancelled run' = false := fun _ => isCancelled_eq_false hc
  have hanswer : l.answer = .response r := by
    show ((run.start s asked).send s (run.callOf asked body) 1).next.1.answer run.state.nextTag = _
    rw [next_fst]
    show ((run.start s asked).script.getD 0 .idle).answer run.state.nextTag = _
    rw [start_script, ha]
  have hends : l.resumes s (run.callOf asked body) = false := by
    rw [Landing.resumes, hanswer]
    simp [Settings.repeats, hr]
  have hlast : l.resumes s (run.callOf asked body) = true → left = 0 := fun h => by
    rw [hends] at h
    cases h
  constructor
  · rw [asked_landings_prepared hp, landings_ended s overlap _ (hcancelled _) hlast]
    simpa using hanswer
  · rw [ask_prepared hp, attempts_ended s overlap _ (hcancelled _) hlast, finish_result, Landing.outcome, hcancelled,
      hanswer]
    show (Ending.ofAttempts _ _ (s.shown r)).result = _
    rw [shown_ok hs]
    rfl

def onesRun (n : Nat) : Run :=
  answeredBy ⟨200, [], List.replicate n 0x31, .ok ""⟩

theorem plainCall_prepare : plainCall.prepare twoLogins.settings 1 =
    .ok ("\x7b\"method\": \"session-get\", \"tag\": 1\x7d", 2) := by rfl

theorem onesRun_answered (n : Nat) :
    (∀ l ∈ plainCall.landings twoLogins.settings (onesRun n),
      l.answer = .response ⟨200, [], List.replicate n 0x31, .ok ""⟩) ∧
      (ask twoLogins.settings plainCall (onesRun n)).1 =
        (conclude 1 none ⟨200, [], List.replicate n 0x31, .ok ""⟩).result :=
  have hp : plainCall.prepare twoLogins.settings (onesRun n).state.nextTag = .ok (_, 2) := plainCall_prepare
  ask_answered (fun hlogs => by cases hlogs) hp rfl rfl rfl

theorem ask_ones {n : Nat} (h : Numeral.digitLimit < n) :
    (ask twoLogins.settings plainCall (onesRun n)).1 = .error (.numeral (.tooManyDigits n)) := by
  rw [(onesRun_answered n).2, conclude_failed (accept_noEnvelope rfl (Response.decodeBytes_ones h))]
  rfl

/-! ## What bodies come to -/

/-- A body is an envelope or is refused with an error of the client, unless there is a whole number with
too many digits in its text, and no other body makes a call fail with what is no error of the client. -/
theorem body_outcomes (bs : List UInt8) (text : String) (s : Settings) (asked : Asked) (run : Run) :
    Response.Outcome (Json.decoded bs).toOption (Json.parseBytes bs) (Response.decodeBytes bs) ∧
      Response.Outcome (some text.toList) ((Json.parse text).mapError .parsing) (Response.decode text) ∧
      ∀ e, (ask s asked run).1 = .error e → Cause s asked run e :=
  ⟨Response.decodeBytes_outcome bs, Response.decode_outcome text, fun _ => call_cause⟩

theorem body_outcomes_ones :
    (ask twoLogins.settings plainCall (onesRun 4301)).1 = .error (.numeral (.tooManyDigits 4301)) ∧
      Cause twoLogins.settings plainCall (onesRun 4301) (.numeral (.tooManyDigits 4301)) :=
  have h := ask_ones (by decide)
  ⟨h, (body_outcomes [] "" twoLogins.settings plainCall (onesRun 4301)).2.2 _ h⟩

theorem long_number_escapes :
    (¬ ∀ bs, (∃ r, Response.decodeBytes bs = .ok r) ∨
      ∃ message, Response.decodeBytes bs = .error (.client (.badResponse message))) ∧
    ¬ ∀ (s : Settings) (asked : Asked) (run : Run) (e : Failure),
      (∃ prepared, asked.prepare s run.state.nextTag = .ok prepared) → asked.read = none →
      (∀ l ∈ asked.landings s run, ∃ r, l.answer = .response r) → (ask s asked run).1 = .error e →
      ∃ e', e = .client e' := by
  constructor
  · intro h
    rcases h (List.replicate 4301 0x31) with ⟨r, hr⟩ | ⟨message, hm⟩
    · rw [Response.decodeBytes_ones (by decide)] at hr
      cases hr
    · rw [Response.decodeBytes_ones (by decide)] at hm
      cases hm
  · intro h
    have hanswers := (onesRun_answered 4301).1
    obtain ⟨e', he⟩ := h twoLogins.settings plainCall (onesRun 4301) _ ⟨_, plainCall_prepare⟩ rfl
      (fun l hl => ⟨_, hanswers l hl⟩) (ask_ones (by decide))
    cases he

end TorrentRemote.Connection
