import TorrentRemote.Proofs.Connection.Landings
import TorrentRemote.Proofs.Connection.Traffic

/-!
# Cancelled calls

A call that is cancelled posts no more, hands nothing on to be read and returns no value, and the
answer in flight changes nothing: `cancelled_call_stops`. It ends as cancelled if that answer is a
response, but a post that fails ends it with the failure: `cancelled_call_outcome` and
`failure_beats_cancelling`.
-/

namespace TorrentRemote.Connection

/-! ## The end of a cancelled call -/

section
variable {s : Settings} {asked : Asked} {run : Run}

theorem finish_state (run : Run) (s : Settings) (asked : Asked) (tag : Nat) (result : Except Failure HttpResponse) :
    (run.finish s asked tag result).2.state = run.state := by
  unfold Run.finish Run.close Run.see
  exact noteBody_state run s _

theorem ask_cancelled_before (h : asked.isCancelled run.cancelled = true) :
    asked.landings s run = [] ∧ ∃ e, ask s asked run = (run.start s asked).close run.state.nextTag (.failed e) := by
  cases hp : asked.prepare s run.state.nextTag with
  | error e => exact ⟨landings_refused hp, e, ask_refused hp⟩
  | ok p =>
    obtain ⟨body, left⟩ := p
    obtain ⟨hlandings, hask⟩ := ask_cancelled hp h
    exact ⟨hlandings, _, hask⟩

theorem ask_cancelled_inFlight {l : Landing} (hl : l ∈ asked.landings s run)
    (h : asked.isCancelled l.run.cancelled = true) : ∃ body, (run.callOf asked body).isCancelled l.run = true ∧
      ask s asked run = (l.taken s (run.callOf asked body)).finish s asked run.state.nextTag
        (.error l.answer.failureIfCancelled) := by
  cases hp : asked.prepare s run.state.nextTag with
  | error e =>
    rw [landings_refused hp] at hl
    cases hl
  | ok p =>
    obtain ⟨body, left⟩ := p
    have hcancelled : (run.callOf asked body).isCancelled l.run = true := h
    refine ⟨body, hcancelled, ?_⟩
    cases hrun : asked.isCancelled run.cancelled with
    | true =>
      rw [(ask_cancelled_before hrun).1] at hl
      cases hl
    | false =>
      obtain ⟨earlier, last, hlandings, hlanded, hask⟩ := ask_landings hp hrun
      rw [hlandings] at hl
      rcases List.mem_append.mp hl with hl | hl
      · have hresumed := hlanded.resumed l hl
        rw [Landing.resumes_cancelled s _ l hcancelled] at hresumed
        cases hresumed
      · rw [hask, ← List.mem_singleton.mp hl, Landing.outcome_cancelled _ l hcancelled]

end

/-! ## Failures in flight -/

/-- A call that is cancelled before it begins ends as cancelled. One that is cancelled by the time an
answer comes ends so if the answer is a response, and else with the failure that the answer is. -/
theorem cancelled_call_outcome {s : Settings} {asked : Asked} {run : Run} {body : String} {retries : Nat}
    (hb : asked.body run.state.nextTag = .ok body) (hr : s.retryCount = .ok retries) :
    (asked.isCancelled run.cancelled = true → (ask s asked run).1 = .error (.client .cancelled)) ∧
      ∀ l ∈ asked.landings s run, asked.isCancelled l.run.cancelled = true →
        (ask s asked run).1 = .error l.answer.failureIfCancelled ∧
          ((ask s asked run).1 = .error (.client .cancelled) ↔ ∃ r, l.answer = .response r) := by
  have hp : asked.prepare s run.state.nextTag = .ok (body, retries) := by
    rw [Asked.prepare, hb, hr]
    rfl
  constructor
  · intro h
    rw [(ask_cancelled hp h).2]
    rfl
  · intro l hl h
    obtain ⟨_, -, hask⟩ := ask_cancelled_inFlight hl h
    have hresult : (ask s asked run).1 = .error l.answer.failureIfCancelled := by
      rw [hask]
      rfl
    refine ⟨hresult, ?_⟩
    rw [hresult]
    cases l.answer <;> simp [Answer.failureIfCancelled]

def failingRun : Run where
  state := twoLogins.state
  script := [⟨[], [0], fun _ => .networkFailure "refused"⟩]
  cancelled := []
  history := []
  log := []
  overlapped := []

def cancellableCall : Asked := ⟨"session-get", .null, none, some 0⟩

theorem cancellableCall_body : cancellableCall.body 1 = .ok "\x7b\"method\": \"session-get\", \"tag\": 1\x7d" := by rfl

theorem cancelled_call_outcome_failing :
    (cancellableCall.landings twoLogins.settings failingRun).map (·.run.cancelled) = [[0]] ∧
      (cancellableCall.isCancelled failingRun.cancelled = true →
        (ask twoLogins.settings cancellableCall failingRun).1 = .error (.client .cancelled)) ∧
      ∀ l ∈ cancellableCall.landings twoLogins.settings failingRun, cancellableCall.isCancelled l.run.cancelled = true →
        (ask twoLogins.settings cancellableCall failingRun).1 = .error l.answer.failureIfCancelled ∧
          ((ask twoLogins.settings cancellableCall failingRun).1 = .error (.client .cancelled) ↔
            ∃ r, l.answer = .response r) :=
  have hretries : twoLogins.settings.retryCount = .ok 2 := rfl
  have hbody : cancellableCall.body failingRun.state.nextTag = .ok _ := cancellableCall_body
  ⟨rfl, cancelled_call_outcome hbody hretries⟩

theorem failure_beats_cancelling : ¬ ∀ (s : Settings) (asked : Asked) (run : Run) (body : String) (retries : Nat),
    asked.body run.state.nextTag = .ok body → s.retryCount = .ok retries →
      (asked.isCancelled run.cancelled = true ∨ ∃ l ∈ asked.landings s run, asked.isCancelled l.run.cancelled = true) →
        (ask s asked run).1 = .error (.client .cancelled) := by
  intro h
  have hresult := h twoLogins.settings cancellableCall failingRun _ 2 cancellableCall_body rfl
    (.inr ⟨_, List.mem_cons_self, by rfl⟩)
  have hfailure : (ask twoLogins.settings cancellableCall failingRun).1 =
      .error (.client (.requestFailed "Request failed: refused" .null .null)) := by rfl
  rw [hfailure] at hresult
  cases hresult

/-! ## From the moment on -/

/-- A call that is over or cancelled, and what it was seen to do since a history: it posted nothing and
ended with a failure, if it ended. -/
structure Quiet (tag : Nat) (base : List Event) (t : Traffic) : Prop where
  cancelled : ∀ p, t.pending tag = some p → p.cancelled = true
  given : tag ≤ t.state.lastTag
  history : ∃ seen, t.history = seen ++ base ∧ sends tag seen = [] ∧
    ∀ ending, .ended tag ending ∈ seen → ∃ e, ending = .failed e

namespace Quiet

variable {s : Settings} {tag : Nat} {base : List Event} {t t' : Traffic} (h : Quiet tag base t)
include h

theorem see {e : Event} (ht : t.state.lastTag ≤ t'.state.lastTag) (hp : t'.pending = t.pending)
    (hh : t'.history = e :: t.history) (hs : e.sentBy? tag = none)
    (he : ∀ ending, e = .ended tag ending → ∃ e', ending = .failed e') : Quiet tag base t' := by
  obtain ⟨seen, hseen, hsends, hended⟩ := h.history
  refine ⟨?_, Nat.le_trans h.given ht, e :: seen, ?_, ?_, ?_⟩
  · rw [hp]
    exact h.cancelled
  · rw [hh, hseen, List.cons_append]
  · rw [sends_cons, hsends, hs]
    rfl
  · intro ending hm
    rcases List.mem_cons.mp hm with hm | hm
    · exact he ending hm.symm
    · exact hended ending hm

theorem put {other : Nat} {p : Option Pending} (hp : other = tag → ∀ q, p = some q → q.cancelled = true) :
    Quiet tag base (t.put other p) := by
  refine ⟨?_, h.given, h.history⟩
  intro q hq
  by_cases ho : tag = other
  · rw [ho, Traffic.pending_put_self] at hq
    exact hp ho.symm q hq
  · rw [Traffic.pending_put_other t p ho] at hq
    exact h.cancelled q hq

theorem takeTag (asked : Asked) : Quiet tag base (t.takeTag asked) :=
  h.see (e := .entered t.state.nextTag asked) (Nat.le_succ _) rfl rfl rfl (by simp)

theorem close {other : Nat} {ending : Ending} (he : other = tag → ∃ e, ending = .failed e) :
    Quiet tag base (t.close other ending) := by
  refine (h.put (p := none) (by simp)).see (e := .ended other ending) (Nat.le_refl _) rfl rfl rfl ?_
  intro ending' hm
  cases hm
  exact he rfl

theorem take {other : Nat} {p : Pending} {sent : Post} (a : Answer) : Quiet tag base (t.take s other p sent a) :=
  h.see (e := .answered other sent a p.cancelled)
    (Nat.le_of_eq (by rw [Traffic.take_state, receive_state])) rfl rfl rfl (by simp)

theorem cancel (which : Nat → Bool) : Quiet tag base (t.cancel which) := by
  refine ⟨?_, h.given, h.history⟩
  intro p hp
  obtain ⟨q, hq, rfl⟩ := Option.map_eq_some_iff.mp hp
  have hcancelled := h.cancelled q hq
  split
  · simp [Pending.cancel, hcancelled]
  · exact hcancelled

theorem other {tag' : Nat} {p : Pending} (hp : t.pending tag' = some p) (hc : p.cancelled = false) : tag' ≠ tag := by
  rintro rfl
  rw [h.cancelled p hp] at hc
  cases hc

theorem nextTag_ne : t.state.nextTag ≠ tag :=
  Nat.ne_of_gt (Nat.lt_succ_of_le h.given)

theorem step (hstep : Step s t t') : Quiet tag base t' := by
  cases hstep with
  | idle => exact h
  | cancelled which => exact h.cancel which
  | refused hp =>
    refine (h.takeTag _).see (e := .ended _ _) (Nat.le_refl _) rfl rfl rfl ?_
    intro ending hm
    cases hm
    exact ⟨_, rfl⟩
  | entered cancelled hp => exact (h.takeTag _).put fun ho => absurd ho h.nextTag_ne
  | gaveUp hp hf hc => exact h.close fun _ => ⟨_, rfl⟩
  | @sent tag' p hp hf hc =>
    -- only a call that is not cancelled posts, so it is not this one
    have hne := h.other hp hc
    refine (h.put (p := some { p with inFlight := some (post s t.state p.body) }) fun ho => absurd ho hne).see
      (e := .sent tag' (post s t.state p.body)) (Nat.le_refl _) rfl rfl (if_neg hne) (by simp)
  | failed a e hp hf => exact (h.take a).close fun _ => ⟨e, rfl⟩
  | repeated hp hf hc hr hl => exact (h.take _).put fun ho => absurd ho (h.other hp hc)
  | concluded hp hf hc hl => exact (h.take _).close fun ho => absurd ho (h.other hp hc)

theorem answer_state (s : Settings) (a : Answer) : (t.move s (.answer tag a)).state = t.state := by
  cases hp : t.pending tag with
  | none => simp [Traffic.move, hp]
  | some p =>
    cases hf : p.inFlight with
    | none => simp [Traffic.move, hp, hf]
    | some sent =>
      have hanswer : (t.answer s tag p sent a).state = (t.take s tag p sent a).state := by
        unfold Traffic.answer
        split <;> rfl
      rw [move_answer s t hp hf, hanswer, Traffic.take_state, h.cancelled p hp, receive_state]
      rfl

end Quiet

theorem advance_state (s : Settings) (t : Traffic) (tag : Nat) : (t.move s (.advance tag)).state = t.state := by
  cases hp : t.pending tag with
  | none => simp [Traffic.move, hp]
  | some p =>
    cases hf : p.inFlight with
    | some sent => simp [Traffic.move, hp, hf]
    | none =>
      rw [move_advance s t hp hf, Traffic.advance]
      split <;> rfl

/-- Calls under way have tags that were given out. -/
def Traffic.Given (t : Traffic) : Prop :=
  t.All fun tag _ => tag ≤ t.state.lastTag

section
variable {s : Settings} {t t' : Traffic} (h : t.Given)
include h

theorem Traffic.Given.put {tag : Nat} {p : Option Pending} (hle : tag ≤ t.state.lastTag) : (t.put tag p).Given :=
  Traffic.All.put h fun _ _ => hle

theorem Traffic.Given.takeTag (asked : Asked) : (t.takeTag asked).Given :=
  fun tag p hp => Nat.le_succ_of_le (h tag p hp)

theorem Traffic.Given.take (tag : Nat) (p : Pending) (sent : Post) (a : Answer) : (t.take s tag p sent a).Given := by
  intro other q hq
  rw [Traffic.take_state, receive_state]
  exact h other q hq

theorem Traffic.Given.step (hstep : Step s t t') : t'.Given := by
  cases hstep with
  | idle => exact h
  | cancelled which => exact Traffic.All.cancel h id which
  | @refused asked e hp => exact h.takeTag asked
  | entered cancelled hp => exact (h.takeTag _).put (Nat.le_refl _)
  | gaveUp hp hf hc => exact h.put (h _ _ hp)
  | sent hp hf hc => exact h.put (h _ _ hp)
  | failed a e hp hf => exact (h.take _ _ _ a).put ((h.take (s := s) _ _ _ a) _ _ hp)
  | repeated hp hf hc hr hl => exact (h.take _ _ _ _).put ((h.take (s := s) _ _ _ _) _ _ hp)
  | concluded hp hf hc hl => exact (h.take _ _ _ _).put ((h.take (s := s) _ _ _ _) _ _ hp)

end

theorem given_after (s : Settings) (st : State) (moves : List Move) : ((Traffic.new st).after s moves).Given := by
  refine Traffic.after_of_step (fun h hstep => h.step hstep) moves ?_
  intro tag p hp
  cases hp

def Move.IsOf (tag : Nat) : Move → Prop
  | .advance other => other = tag
  | .answer other _ => other = tag
  | _ => False

theorem Quiet.own_state {tag : Nat} {base : List Event} {t : Traffic} (h : Quiet tag base t) (s : Settings) {m : Move}
    (hm : m.IsOf tag) : (t.move s m).state = t.state := by
  cases m with
  | enter asked cancelled => cases hm
  | cancel which => cases hm
  | advance other =>
    obtain rfl : other = tag := hm
    exact advance_state s t other
  | answer other a =>
    obtain rfl : other = tag := hm
    exact h.answer_state s a

/-- From a moment on a call posts nothing, ends with a failure if it has not ended before, and changes
nothing of the connection, whatever moves are made. `base` is what was seen before. -/
structure Silent (s : Settings) (tag : Nat) (base : List Event) (t : Traffic) : Prop where
  seen : ∀ moves, ∃ seen, (t.after s moves).history = seen ++ base ∧ sends tag seen = [] ∧
    ∀ ending, .ended tag ending ∈ seen → ∃ e, ending = .failed e
  state : ∀ moves m, m.IsOf tag → ((t.after s moves).move s m).state = (t.after s moves).state

theorem Quiet.silent {tag : Nat} {base : List Event} {t : Traffic} (h : Quiet tag base t) (s : Settings) :
    Silent s tag base t := by
  have hafter : ∀ moves, Quiet tag base (t.after s moves) := fun moves =>
    Traffic.after_of_step (fun h hstep => h.step hstep) moves h
  exact ⟨fun moves => (hafter moves).history, fun moves m hm => (hafter moves).own_state s hm⟩

section
variable {s : Settings} {t : Traffic} (h : t.Given) {asked : Asked} (hc : asked.cancellable = true)
include h hc

theorem quiet_enter : Quiet t.state.nextTag t.history (t.move s (.enter asked true)) := by
  have htake : Quiet t.state.nextTag t.history (t.takeTag asked) := by
    refine ⟨?_, Nat.le_refl _, [.entered t.state.nextTag asked], rfl, rfl, by simp⟩
    intro p hp
    exact absurd (h _ p hp) (Nat.not_succ_le_self _)
  show Quiet _ _ (t.enter s asked true)
  unfold Traffic.enter
  split
  · refine htake.see (e := .ended _ _) (Nat.le_refl _) rfl rfl rfl ?_
    intro ending hm
    cases hm
    exact ⟨_, rfl⟩
  · refine htake.put fun _ q hq => ?_
    cases hq
    rw [hc]
    rfl

theorem quiet_cancel {tag : Nat} {p : Pending} (hp : t.pending tag = some p) (ha : p.asked = asked)
    {which : Nat → Bool} (hw : which tag = true) : Quiet tag t.history (t.move s (.cancel which)) := by
  refine ⟨?_, h tag p hp, [], rfl, rfl, by simp⟩
  intro q hq
  obtain ⟨p', hp', rfl⟩ := Option.map_eq_some_iff.mp hq
  rw [hp] at hp'
  cases hp'
  rw [if_pos hw, Pending.cancel, ha, hc, Bool.or_true]

end

/-- What becomes of a call with an event that is set at some moment of its run. -/
structure Stops (s : Settings) (asked : Asked) (run : Run) : Prop where
  /-- The posts of the call are those that get the answers. -/
  posts : asked.posts s run = (asked.landings s run).map Landing.post
  /-- Set before the call: nothing happens but that a tag is used up. -/
  before : asked.isCancelled run.cancelled = true → asked.posts s run = [] ∧ ∃ e, (ask s asked run).1 = .error e ∧
    (ask s asked run).2.state = { run.state with lastTag := run.state.nextTag } ∧
    (ask s asked run).2.history =
      .ended run.state.nextTag (.failed e) :: .entered run.state.nextTag asked :: run.history
  /-- Set while a post is in flight: the answer changes nothing, and the call ends with a failure and
  nothing in between. -/
  inFlight : ∀ l ∈ asked.landings s run, asked.isCancelled l.run.cancelled = true → l.InFlight run.state.nextTag ∧
    ∃ e, (ask s asked run).1 = .error e ∧ (ask s asked run).2.state = l.run.state ∧
      (ask s asked run).2.history =
        .ended run.state.nextTag (.failed e) :: .answered run.state.nextTag l.post l.answer true :: l.run.history

/-- What becomes of such a call in traffic, where it may be cancelled at any moment. -/
structure Traffic.Stops (s : Settings) (asked : Asked) (t : Traffic) : Prop where
  entering : Silent s t.state.nextTag t.history (t.move s (.enter asked true)) ∧
    (t.move s (.enter asked true)).state = { t.state with lastTag := t.state.nextTag }
  cancelling : ∀ tag p which, t.pending tag = some p → p.asked = asked → which tag = true →
    Silent s tag t.history (t.move s (.cancel which))

theorem cancelled_call_stops {s : Settings} {asked : Asked} (hc : asked.cancellable = true) :
    (∀ run, Stops s asked run) ∧ ∀ st moves, ((Traffic.new st).after s moves).Stops s asked := by
  constructor
  · intro run
    refine ⟨asked_posts, ?_, ?_⟩
    · intro h
      obtain ⟨hlandings, e, hask⟩ := ask_cancelled_before (s := s) h
      refine ⟨by rw [asked_posts, hlandings]; rfl, e, ?_, ?_, ?_⟩
      · rw [hask]
        rfl
      · rw [hask]
        exact start_state run s asked
      · rw [hask]
        exact congrArg _ (start_history run s asked)
    · intro l hl h
      obtain ⟨body, hcancelled, hask⟩ := ask_cancelled_inFlight hl h
      refine ⟨asked_landings_inFlight l hl, l.answer.failureIfCancelled, ?_, ?_, ?_⟩
      · rw [hask]
        rfl
      · rw [hask, finish_state, Landing.taken_state_cancelled s _ l hcancelled]
      · rw [hask, finish_history, Landing.taken_history, hcancelled]
        rfl
  · intro st moves
    have hgiven := given_after s st moves
    refine ⟨⟨(quiet_enter hgiven hc).silent s, ?_⟩, ?_⟩
    · show (Traffic.enter s _ asked true).state = _
      unfold Traffic.enter
      split <;> rfl
    · intro tag p which hp ha hw
      exact (quiet_cancel hgiven hc hp ha hw).silent s

def cancelledRun : Run where
  state := twoLogins.state
  script := [⟨[⟨"session-stats", .null, none, none⟩], [0], fun _ => .response ⟨401, [], [], .ok ""⟩⟩]
  cancelled := []
  history := []
  log := []
  overlapped := []

theorem cancelled_call_stops_refused :
    (cancellableCall.landings twoLogins.settings cancelledRun).map (·.run.cancelled) = [[0]] ∧
      cancelledRun.state.login = (ask twoLogins.settings cancellableCall cancelledRun).2.state.login ∧
      (∀ run, Stops twoLogins.settings cancellableCall run) ∧
      ∀ st moves, ((Traffic.new st).after twoLogins.settings moves).Stops twoLogins.settings cancellableCall :=
  ⟨rfl, rfl, cancelled_call_stops rfl⟩

end TorrentRemote.Connection
