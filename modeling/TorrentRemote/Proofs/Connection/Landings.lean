import TorrentRemote.Proofs.Connection.History
import TorrentRemote.Proofs.Connection.Verdict

/-!
# The answers that a call gets

The posts of a call are answered one after another, each in a run of its own that other calls have
moved on. A call goes on after an answer or ends with it: `attempts_landings` says which, and with
what result. Calls that can be cancelled are included.
-/

namespace TorrentRemote.Connection

/-- An answer that comes back to a post of a call, and the run in which it does. -/
structure Landing where
  run : Run
  post : Post
  answer : Answer

/-- How a call ends that is cancelled by the time an answer comes. It takes no notice of a response,
but a post that fails ends it as ever. -/
def Answer.failureIfCancelled : Answer → Failure
  | .response _ => .client .cancelled
  | .networkFailure message => .client (.requestFailed ("Request failed: " ++ message) .null .null)
  | .broken fault => .session fault

namespace Landing

variable (s : Settings) (call : Call) (l : Landing)

def outcome : Except Failure HttpResponse :=
  if call.isCancelled l.run then .error l.answer.failureIfCancelled else l.answer.outcome

def resumes : Bool :=
  !call.isCancelled l.run && s.repeats l.post.login l.answer

def taken : Run :=
  (l.run.receive s call l.post l.answer).2

theorem resumes_cancelled (h : call.isCancelled l.run = true) : l.resumes s call = false := by
  rw [resumes, h]
  rfl

theorem outcome_cancelled (h : call.isCancelled l.run = true) : l.outcome call = .error l.answer.failureIfCancelled :=
  if_pos h

theorem taken_history : (l.taken s call).history =
    .answered call.tag l.post l.answer (call.isCancelled l.run) :: l.run.history :=
  receive_history l.run s call l.post l.answer

theorem taken_lastTag : (l.taken s call).state.lastTag = l.run.state.lastTag := by
  rw [taken, receive_run, receive_state]

theorem taken_state_cancelled (h : call.isCancelled l.run = true) : (l.taken s call).state = l.run.state := by
  rw [taken, receive_run, h, receive_state]
  rfl

end Landing

/-! ## One attempt -/

section
variable (s : Settings) (overlap : Overlap) (call : Call)

def Run.landing (run : Run) (number : Nat) : Landing :=
  ⟨run.flown s call number overlap, post s run.state call.body, (run.send s call number).next.1.answer call.tag⟩

theorem receive_outcome (l : Landing) : (l.run.receive s call l.post l.answer).1 =
    match l.outcome call with
    | .error e => .failed e
    | .ok r => .answered r (l.resumes s call) := by
  rw [receive_attempt, Landing.outcome, Landing.resumes]
  cases l.answer with
  | response r =>
    cases call.isCancelled l.run <;> simp [State.receive, Answer.failureIfCancelled, Answer.outcome, react_fst]
  | networkFailure m => cases call.isCancelled l.run <;> simp [State.receive, Answer.failureIfCancelled, Answer.outcome]
  | broken f => cases call.isCancelled l.run <;> simp [State.receive, Answer.failureIfCancelled, Answer.outcome]

theorem attempt_landing {number : Nat} {run : Run} (h : call.isCancelled run = false) :
    attempt s overlap call number run =
      (match (run.landing s overlap call number).outcome call with
        | .error e => .failed e
        | .ok r => .answered r ((run.landing s overlap call number).resumes s call),
        (run.landing s overlap call number).taken s call) := by
  rw [attempt_sent run s call number overlap h, ← receive_outcome]
  rfl

theorem outcome_of_resumes {l : Landing} (h : l.resumes s call = true) : ∃ r, l.outcome call = .ok r := by
  rw [Landing.resumes, Bool.and_eq_true, Bool.not_eq_true'] at h
  rw [Landing.outcome, h.1]
  cases ha : l.answer with
  | response r => exact ⟨r, rfl⟩
  | _ =>
    rw [ha] at h
    cases h.2

variable {left number : Nat} {run : Run}

theorem attempts_ended (h : call.isCancelled run = false)
    (hl : (run.landing s overlap call number).resumes s call = true → left = 0) :
    attempts s overlap call left number run =
      ((run.landing s overlap call number).outcome call, (run.landing s overlap call number).taken s call) := by
  unfold attempts
  rw [attempt_landing s overlap call h]
  cases (run.landing s overlap call number).outcome call with
  | error e => rfl
  | ok r =>
    cases left with
    | zero => rfl
    | succ left =>
      cases hr : (run.landing s overlap call number).resumes s call with
      | false => rfl
      | true => cases hl hr

theorem attempts_resumed (h : call.isCancelled run = false)
    (hr : (run.landing s overlap call number).resumes s call = true) :
    attempts s overlap call (left + 1) number run =
      attempts s overlap call left (number + 1) ((run.landing s overlap call number).taken s call) := by
  obtain ⟨r, ho⟩ := outcome_of_resumes s call hr
  rw [attempts, attempt_landing s overlap call h]
  simp only [ho, hr, if_true]

theorem isCancelled_taken (hr : (run.landing s overlap call number).resumes s call = true) :
    call.isCancelled ((run.landing s overlap call number).taken s call) = false := by
  rw [Landing.resumes, Bool.and_eq_true, Bool.not_eq_true'] at hr
  exact hr.1

end

/-! ## All attempts -/

/-- The answers to the posts that a call makes, where `left` is how many may follow the first one. -/
def landings (s : Settings) (overlap : Overlap) (call : Call) : (left number : Nat) → Run → List Landing
  | left, number, run =>
    if call.isCancelled run then []
    else
      let l := run.landing s overlap call number
      match left with
      | 0 => [l]
      | left + 1 =>
        if l.resumes s call then l :: landings s overlap call left (number + 1) (l.taken s call) else [l]

/-- The answers of a call: it goes on after each but the last, and after the last one only its retries
can keep it from doing so. -/
structure Landed (s : Settings) (call : Call) (left : Nat) (earlier : List Landing) (last : Landing) : Prop where
  resumed : ∀ l ∈ earlier, l.resumes s call = true
  length_le : earlier.length ≤ left
  used_up : last.resumes s call = true → earlier.length = left

section
variable (s : Settings) (overlap : Overlap) (call : Call)

theorem landings_cancelled (left number : Nat) (run : Run) (h : call.isCancelled run = true) :
    landings s overlap call left number run = [] := by
  rw [landings, if_pos h]

theorem landings_ended {left number : Nat} {run : Run} (h : call.isCancelled run = false)
    (hl : (run.landing s overlap call number).resumes s call = true → left = 0) :
    landings s overlap call left number run = [run.landing s overlap call number] := by
  rw [landings, h]
  cases left with
  | zero => rfl
  | succ left =>
    cases hr : (run.landing s overlap call number).resumes s call with
    | false => simp [hr]
    | true => cases hl hr

theorem landings_resumed {left number : Nat} {run : Run} (h : call.isCancelled run = false)
    (hr : (run.landing s overlap call number).resumes s call = true) :
    landings s overlap call (left + 1) number run = run.landing s overlap call number ::
      landings s overlap call left (number + 1) ((run.landing s overlap call number).taken s call) := by
  rw [landings, h]
  simp [hr]

/-- The attempts of a call, taken one after another: none is made once it is cancelled, and else it ends
with the answer to the next one or goes on after it. -/
@[elab_as_elim]
theorem attempts_induct {motive : (left number : Nat) → Run → Prop}
    (cancelled : ∀ left number run, call.isCancelled run = true → motive left number run)
    (ended : ∀ left number run, call.isCancelled run = false →
      ((run.landing s overlap call number).resumes s call = true → left = 0) → motive left number run)
    (resumed : ∀ left number run, call.isCancelled run = false →
      (run.landing s overlap call number).resumes s call = true →
      motive left (number + 1) ((run.landing s overlap call number).taken s call) → motive (left + 1) number run) :
    ∀ left number run, motive left number run
  | left, number, run => by
    cases h : call.isCancelled run with
    | true => exact cancelled left number run h
    | false =>
      by_cases hl : (run.landing s overlap call number).resumes s call = true → left = 0
      · exact ended left number run h hl
      · obtain ⟨hr, hne⟩ := Classical.not_imp.mp hl
        cases left with
        | zero => exact absurd rfl hne
        | succ left => exact resumed left number run h hr (attempts_induct cancelled ended resumed left _ _)

/-- The attempts of a call end with the last of its answers, which alone decides their outcome. -/
theorem attempts_landings (left number : Nat) (run : Run) (h : call.isCancelled run = false) :
    ∃ earlier last, landings s overlap call left number run = earlier ++ [last] ∧ Landed s call left earlier last ∧
      attempts s overlap call left number run = (last.outcome call, last.taken s call) := by
  induction left, number, run using attempts_induct s overlap call with
  | cancelled left number run hc =>
    rw [h] at hc
    cases hc
  | ended left number run _ hl =>
    rw [landings_ended s overlap call h hl, attempts_ended s overlap call h hl]
    exact ⟨[], _, rfl, ⟨by simp, Nat.zero_le _, fun hr => (hl hr).symm⟩, rfl⟩
  | resumed left number run _ hr ih =>
    obtain ⟨earlier, last, hlandings, hlanded, hattempts⟩ := ih (isCancelled_taken s overlap call hr)
    rw [landings_resumed s overlap call h hr, attempts_resumed s overlap call h hr, hlandings]
    refine ⟨_ :: earlier, last, rfl, ⟨?_, ?_, ?_⟩, hattempts⟩
    · intro l hl
      rcases List.mem_cons.mp hl with rfl | hl
      · exact hr
      · exact hlanded.resumed l hl
    · exact Nat.succ_le_succ hlanded.length_le
    · exact fun hlast => congrArg Nat.succ (hlanded.used_up hlast)

/-! ## What is seen of it -/

/-- What can be seen while a post of a call is in flight: later calls only. -/
def Landing.InFlight (tag : Nat) (l : Landing) : Prop :=
  ∃ flight earlier, l.run.history = flight ++ .sent tag l.post :: earlier ∧ ∀ e ∈ flight, tag < e.tag

variable (hf : overlap.Fresh)
include hf

theorem landing_history {run : Run} (number : Nat) (hle : call.tag ≤ run.state.lastTag) :
    ∃ flight, (run.landing s overlap call number).run.history =
      flight ++ .sent call.tag (run.landing s overlap call number).post :: run.history ∧
      ∀ e ∈ flight, call.tag < e.tag := by
  obtain ⟨-, flight, hh, ht⟩ := flown_extends run s call number overlap hf
  rw [next_history, send_history] at hh
  exact ⟨flight, hh, fun e he => Nat.lt_of_le_of_lt hle (ht e he)⟩

theorem landing_lastTag {run : Run} (number : Nat) (hle : call.tag ≤ run.state.lastTag) :
    call.tag ≤ ((run.landing s overlap call number).taken s call).state.lastTag := by
  have h := (flown_extends run s call number overlap hf).lastTag_le
  rw [next_state, send_state] at h
  rw [Landing.taken_lastTag]
  exact Nat.le_trans hle h

theorem landings_inFlight (left number : Nat) (run : Run) (hle : call.tag ≤ run.state.lastTag) :
    ∀ l ∈ landings s overlap call left number run, l.InFlight call.tag := by
  induction left, number, run using attempts_induct s overlap call with
  | cancelled left number run h =>
    rw [landings_cancelled s overlap call left number run h]
    simp
  | ended left number run h hl =>
    obtain ⟨flight, hh, ht⟩ := landing_history s overlap call hf number hle
    rw [landings_ended s overlap call h hl]
    intro l hl
    rw [List.mem_singleton.mp hl]
    exact ⟨flight, run.history, hh, ht⟩
  | resumed left number run h hr ih =>
    obtain ⟨flight, hh, ht⟩ := landing_history s overlap call hf number hle
    rw [landings_resumed s overlap call h hr]
    intro l hl
    rcases List.mem_cons.mp hl with rfl | hl
    · exact ⟨flight, run.history, hh, ht⟩
    · exact ih (landing_lastTag s overlap call hf number hle) l hl

theorem landing_sends (number : Nat) (run : Run) (hle : call.tag ≤ run.state.lastTag) :
    ∃ seen, ((run.landing s overlap call number).taken s call).history = seen ++ run.history ∧
      sends call.tag seen = [(run.landing s overlap call number).post] := by
  obtain ⟨flight, hh, ht⟩ := landing_history s overlap call hf number hle
  let l := run.landing s overlap call number
  refine ⟨.answered call.tag l.post l.answer (call.isCancelled l.run) :: (flight ++ [.sent call.tag l.post]), ?_, ?_⟩
  · rw [Landing.taken_history, hh]
    simp [l]
  · rw [sends_cons, sends_append, sends_of_later ht]
    simp [sends, Event.sentBy?, l]

/-- The posts that a call is seen to send are those that the answers come back to. -/
theorem attempts_sends (left number : Nat) (run : Run) (hle : call.tag ≤ run.state.lastTag) :
    ∃ seen, (attempts s overlap call left number run).2.history = seen ++ run.history ∧
      sends call.tag seen = (landings s overlap call left number run).map Landing.post := by
  induction left, number, run using attempts_induct s overlap call with
  | cancelled left number run h =>
    rw [landings_cancelled s overlap call left number run h]
    unfold attempts
    rw [attempt_cancelled run s call number overlap h]
    exact ⟨[], rfl, rfl⟩
  | ended left number run h hl =>
    rw [landings_ended s overlap call h hl, attempts_ended s overlap call h hl]
    exact landing_sends s overlap call hf number run hle
  | resumed left number run h hr ih =>
    obtain ⟨seen, hh, hs⟩ := landing_sends s overlap call hf number run hle
    obtain ⟨seen', hh', hs'⟩ := ih (landing_lastTag s overlap call hf number hle)
    rw [landings_resumed s overlap call h hr, attempts_resumed s overlap call h hr]
    refine ⟨seen' ++ seen, ?_, ?_⟩
    · rw [hh', hh, List.append_assoc]
    · rw [sends_append, hs, hs']
      rfl

end

/-! ## Calls -/

def Run.since (old new : Run) : List Event :=
  new.history.take (new.history.length - old.history.length)

theorem since_eq {old new : Run} {seen : List Event} (h : new.history = seen ++ old.history) :
    old.since new = seen := by
  simp [Run.since, h]

def Asked.posts (asked : Asked) (s : Settings) (run : Run) : List Post :=
  sends run.state.nextTag (run.since (ask s asked run).2)

def Asked.landings (asked : Asked) (s : Settings) (run : Run) : List Landing :=
  match asked.prepare s run.state.nextTag with
  | .error _ => []
  | .ok (body, left) =>
    Connection.landings s (overlapping (call s run.script.length)) (run.callOf asked body) left 1 (run.start s asked)

section
variable {s : Settings} {asked : Asked} {run : Run}

theorem callOf_isCancelled {body : String} (run' : Run) :
    (run.callOf asked body).isCancelled run' = asked.isCancelled run'.cancelled := rfl

theorem ask_refused {e : Failure} (hp : asked.prepare s run.state.nextTag = .error e) :
    ask s asked run = (run.start s asked).close run.state.nextTag (.failed e) :=
  callWith_failed run s asked (overlapping (call s run.script.length)) hp

theorem landings_refused {e : Failure} (hp : asked.prepare s run.state.nextTag = .error e) :
    asked.landings s run = [] := by
  rw [Asked.landings, hp]

section
variable {body : String} {left : Nat} (hp : asked.prepare s run.state.nextTag = .ok (body, left))
include hp

theorem asked_landings_prepared : asked.landings s run =
    landings s (overlapping (call s run.script.length)) (run.callOf asked body) left 1 (run.start s asked) := by
  rw [Asked.landings, hp]

theorem ask_prepared : ask s asked run =
    let last := attempts s (overlapping (call s run.script.length)) (run.callOf asked body) left 1 (run.start s asked)
    last.2.finish s asked run.state.nextTag last.1 :=
  callWith_prepared run s asked (overlapping (call s run.script.length)) hp

theorem ask_cancelled (h : asked.isCancelled run.cancelled = true) : asked.landings s run = [] ∧
    ask s asked run = (run.start s asked).finish s asked run.state.nextTag (.error (.client .cancelled)) := by
  have hc : (run.callOf asked body).isCancelled (run.start s asked) = true := by
    rw [callOf_isCancelled, start_cancelled, h]
  rw [asked_landings_prepared hp, ask_prepared hp, landings_cancelled s _ _ left 1 _ hc]
  unfold attempts
  rw [attempt_cancelled _ s _ 1 _ hc]
  exact ⟨rfl, rfl⟩

theorem ask_landings (h : asked.isCancelled run.cancelled = false) : ∃ earlier last,
    asked.landings s run = earlier ++ [last] ∧ Landed s (run.callOf asked body) left earlier last ∧
      ask s asked run = (last.taken s (run.callOf asked body)).finish s asked run.state.nextTag
        (last.outcome (run.callOf asked body)) := by
  have hc : (run.callOf asked body).isCancelled (run.start s asked) = false := by
    rw [callOf_isCancelled, start_cancelled, h]
  obtain ⟨earlier, last, hlandings, hlanded, hattempts⟩ := attempts_landings s
    (overlapping (call s run.script.length)) (run.callOf asked body) left 1 (run.start s asked) hc
  refine ⟨earlier, last, (asked_landings_prepared hp).trans hlandings, hlanded, ?_⟩
  rw [ask_prepared hp, hattempts]

end

theorem asked_landings_inFlight : ∀ l ∈ asked.landings s run, l.InFlight run.state.nextTag := by
  cases hp : asked.prepare s run.state.nextTag with
  | error e =>
    rw [landings_refused hp]
    simp
  | ok p =>
    obtain ⟨body, left⟩ := p
    rw [asked_landings_prepared hp]
    exact landings_inFlight s _ (run.callOf asked body) (overlapping_fresh (call_extends s run.script.length)) left 1 _
      (by rw [start_state]; exact Nat.le_refl _)

theorem asked_posts : asked.posts s run = (asked.landings s run).map Landing.post := by
  cases hp : asked.prepare s run.state.nextTag with
  | error e =>
    have hh : (ask s asked run).2.history =
        [.ended run.state.nextTag (.failed e), .entered run.state.nextTag asked] ++ run.history := by
      rw [ask_refused hp]
      exact congrArg _ (start_history run s asked)
    rw [Asked.posts, since_eq hh, landings_refused hp]
    rfl
  | ok p =>
    obtain ⟨body, left⟩ := p
    obtain ⟨seen, hseen, hs⟩ := attempts_sends s (overlapping (call s run.script.length)) (run.callOf asked body)
      (overlapping_fresh (call_extends s run.script.length)) left 1 (run.start s asked)
      (by rw [start_state]; exact Nat.le_refl _)
    let last := attempts s (overlapping (call s run.script.length)) (run.callOf asked body) left 1 (run.start s asked)
    -- around its attempts a call is seen to take its tag and to end, neither of which is a post
    have hh : (ask s asked run).2.history =
        (.ended run.state.nextTag (.ofAttempts run.state.nextTag asked.read (last.1.bind s.shown)) ::
          (seen ++ [.entered run.state.nextTag asked])) ++ run.history := by
      rw [ask_prepared hp, finish_history, hseen, start_history]
      simp [last]
    rw [Asked.posts, since_eq hh, sends_cons, sends_append, asked_landings_prepared hp, ← hs]
    exact List.append_nil _

end

end TorrentRemote.Connection
