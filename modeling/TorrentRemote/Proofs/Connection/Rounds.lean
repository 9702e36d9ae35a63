import TorrentRemote.Proofs.Connection.History
import TorrentRemote.Proofs.Connection.Verdict
import TorrentRemote.Proofs.Except

/-!
# The rounds of a call

A call repeats its post as long as the answers let it and its retries last, and its outcome depends
on nothing but the last answer. `ask_plays_out` says so for a call that cannot be cancelled, whatever
other calls overlap it. The table of outcomes takes for granted what the session promises: that the
body of a response can be read as a text, which is needed only where bodies are logged.
-/

namespace TorrentRemote.Connection

def Settings.repeatsRound (s : Settings) (x : Round) : Bool :=
  s.repeats x.post.login x.answer

/-- The rounds of a call with a number of retries: each but the last lets it try again, and the last
one does so only where the retries are used up. -/
structure Complete (s : Settings) (retries : Nat) (earlier : List Round) (last : Round) : Prop where
  repeated : ∀ x ∈ earlier, s.repeatsRound x = true
  length_le : earlier.length ≤ retries
  used_up : s.repeatsRound last = true → earlier.length = retries

namespace Complete

theorem single {s : Settings} {retries : Nat} {x : Round} (h : s.repeatsRound x = true → retries = 0) :
    Complete s retries [] x :=
  ⟨by simp, Nat.zero_le _, fun hx => (h hx).symm⟩

theorem cons {s : Settings} {retries : Nat} {earlier : List Round} {x last : Round} (hx : s.repeatsRound x = true)
    (h : Complete s retries earlier last) : Complete s (retries + 1) (x :: earlier) last := by
  refine ⟨?_, Nat.succ_le_succ h.length_le, fun hl => congrArg Nat.succ (h.used_up hl)⟩
  intro y hy
  rcases List.mem_cons.mp hy with rfl | hy
  · exact hx
  · exact h.repeated y hy

/-- There are as many rounds as it takes to the first that ends the call, if the retries last so
long, and else one more than there are retries. -/
theorem length_eq {s : Settings} {retries : Nat} {earlier : List Round} {last : Round}
    (h : Complete s retries earlier last) : (earlier ++ [last]).length =
      min ((earlier ++ [last]).findIdx (fun x => !s.repeatsRound x) + 1) (retries + 1) := by
  have he : earlier.findIdx (fun x => !s.repeatsRound x) = earlier.length := by
    rw [List.findIdx_eq_length]
    intro x hx
    simp [h.repeated x hx]
  have hle := h.length_le
  rw [List.findIdx_append, he, if_neg (Nat.lt_irrefl _), List.findIdx_cons, List.length_append, List.length_singleton]
  cases hl : s.repeatsRound last with
  | false => simp; omega
  | true =>
    have := h.used_up hl
    simp; omega

end Complete

theorem not_repeats_of_error {s : Settings} {x : Round} {e : Failure} (h : x.answer.outcome = .error e) :
    ¬ s.repeatsRound x = true := by
  obtain ⟨post, answer⟩ := x
  cases answer with
  | response r => cases h
  | _ => simp [Settings.repeatsRound, Settings.repeats]

section
variable (s : Settings) (call : Call) (overlap : Overlap)

theorem receive_uncancelled (st : State) (used : Value) (a : Answer) :
    (st.receive s used false a).1 =
      match a.outcome with
      | .error e => .failed e
      | .ok r => .answered r (s.repeats used a) := by
  cases a with
  | response r => simp [State.receive, Answer.outcome, react_fst]
  | _ => rfl

/-- The answer that a script has for the post of a call with a number, counted from 0, if nothing
overlaps the call. -/
def Run.answerAt (run : Run) (tag i : Nat) : Answer :=
  (run.script.getD i .idle).answer tag

def Run.IsPlain (run : Run) : Prop :=
  ∀ exchange ∈ run.script, exchange.overlaps = []

theorem next_fst (run : Run) : run.next.1 = run.script.getD 0 .idle := by
  unfold Run.next
  split <;> rename_i h <;> rw [h] <;> rfl

theorem next_script (run : Run) : run.next.2.script = run.script.tail := by
  unfold Run.next
  split <;> rename_i h <;> rw [h] <;> rfl

theorem next_overlaps (number : Nat) (run : Run) (hp : run.IsPlain) :
    (run.send s call number).next.1.overlaps = [] := by
  rw [next_fst]
  cases h : run.script with
  | nil => rw [show (run.send s call number).script = [] from h]; rfl
  | cons exchange rest =>
    rw [show (run.send s call number).script = exchange :: rest from h]
    exact hp exchange (by rw [h]; exact List.mem_cons_self)

theorem flown_script (number : Nat) (run : Run) (hp : run.IsPlain) :
    (run.flown s call number overlap).script = run.script.tail := by
  rw [Run.flown, Run.wait, next_overlaps s call number run hp]
  exact next_script _

theorem flown_cancelled (number : Nat) (run : Run) (hp : run.IsPlain) :
    (run.flown s call number overlap).cancelled = run.cancelled ++ (run.script.getD 0 .idle).cancels := by
  rw [Run.flown, Run.wait, next_overlaps s call number run hp, List.foldl_nil, next_cancelled, next_fst]
  rfl

theorem Run.IsPlain.of_tail {run run' : Run} (hp : run.IsPlain) (h : run'.script = run.script.tail) : run'.IsPlain := by
  intro exchange he
  rw [h] at he
  exact hp exchange (List.mem_of_mem_tail he)

theorem answerAt_of_tail {run run' : Run} (h : run'.script = run.script.tail) (tag i : Nat) :
    run'.answerAt tag i = run.answerAt tag (i + 1) := by
  rw [Run.answerAt, Run.answerAt, h]
  cases run.script <;> rfl

variable (hc : call.asked.cancellable = false) (hf : overlap.Fresh)
include hc hf

theorem attempt_round (number : Nat) (run : Run) (hle : call.tag ≤ run.state.lastTag) :
    ∃ (seen : List Event) (x : Round), (attempt s overlap call number run).2.history = seen ++ run.history ∧
      rounds call.tag seen = [x] ∧ sends call.tag seen = [x.post] ∧
      (x.answer = run.answerAt call.tag 0 ∧
        (run.IsPlain → (attempt s overlap call number run).2.script = run.script.tail)) ∧
      (attempt s overlap call number run).1 =
        match x.answer.outcome with
        | .error e => .failed e
        | .ok r => .answered r (s.repeatsRound x) := by
  have hn : ∀ run, call.isCancelled run = false := fun _ => isCancelled_eq_false hc
  rw [attempt_sent run s call number overlap (hn run)]
  obtain ⟨-, flight, hh, ht⟩ := flown_extends run s call number overlap hf
  have hlater : ∀ e ∈ flight, call.tag < e.tag := fun e he => Nat.lt_of_le_of_lt hle (ht e he)
  let sent := post s run.state call.body
  let answer := (run.send s call number).next.1.answer call.tag
  refine ⟨.answered call.tag sent answer false :: (flight ++ [.sent call.tag sent]), ⟨sent, answer⟩,
    ?_, ?_, ?_, ⟨?_, ?_⟩, ?_⟩
  · rw [receive_history, hh, next_history, send_history, hn]
    simp [sent, answer]
  · rw [rounds_cons, rounds_append, rounds_of_later hlater]
    simp [rounds, Event.round?]
  · rw [sends_cons, sends_append, sends_of_later hlater]
    simp [sends, Event.sentBy?]
  · show (run.send s call number).next.1.answer call.tag = _
    rw [next_fst]
    rfl
  · exact flown_script s call overlap number run
  · rw [receive_attempt, hn, receive_uncancelled]
    rfl

theorem attempts_rounds : ∀ (left number : Nat) (run : Run), call.tag ≤ run.state.lastTag →
    ∃ (seen : List Event) (earlier : List Round) (last : Round),
      (attempts s overlap call left number run).2.history = seen ++ run.history ∧
      rounds call.tag seen = earlier ++ [last] ∧ sends call.tag seen = (earlier ++ [last]).map Round.post ∧
      (run.IsPlain → ∀ i x, (earlier ++ [last])[i]? = some x → x.answer = run.answerAt call.tag i) ∧
      Complete s left earlier last ∧ (attempts s overlap call left number run).1 = last.answer.outcome
  | left, number, run, hle => by
    obtain ⟨seen, x, hh, hr, hs, ⟨hanswer, hplain⟩, ha⟩ := attempt_round s call overlap hc hf number run hle
    have hx := attempt_extends run s call number overlap hf hle
    have hone : run.IsPlain → ∀ i y, ([] ++ [x])[i]? = some y → y.answer = run.answerAt call.tag i := by
      rintro - i y hy
      cases i with
      | zero => cases hy; exact hanswer
      | succ i => simp at hy
    unfold attempts
    generalize attempt s overlap call number run = y at hh hplain ha hx
    obtain ⟨result, run'⟩ := y
    simp only at hh hplain ha hx
    subst ha
    cases ho : x.answer.outcome with
    | error e => exact ⟨seen, [], x, hh, hr, hs, hone, .single fun h => absurd h (not_repeats_of_error ho), ho.symm⟩
    | ok r =>
      cases left with
      | zero => exact ⟨seen, [], x, hh, hr, hs, hone, .single fun _ => rfl, ho.symm⟩
      | succ left =>
        cases hb : s.repeatsRound x with
        | false =>
          refine ⟨seen, [], x, hh, hr, hs, hone, .single fun h => ?_, ho.symm⟩
          rw [hb] at h
          cases h
        | true =>
          obtain ⟨seen', earlier, last, hh', hr', hs', hanswers, hcomplete, ha'⟩ :=
            attempts_rounds left (number + 1) run' (Nat.le_trans hle hx.lastTag_le)
          refine ⟨seen' ++ seen, x :: earlier, last, ?_, ?_, ?_, ?_, hcomplete.cons hb, ha'⟩
          · rw [List.append_assoc, ← hh]
            exact hh'
          · rw [rounds_append, hr, hr']
            rfl
          · rw [sends_append, hs, hs']
            rfl
          · intro hp i y hy
            have htail := hplain hp
            cases i with
            | zero => cases hy; exact hanswer
            | succ i =>
              rw [← answerAt_of_tail htail]
              exact hanswers (.of_tail hp htail) i y hy

end

/-! ## The outcome of a call -/

theorem start_script (run : Run) (s : Settings) (asked : Asked) : (run.start s asked).script = run.script := by
  unfold Run.start Run.noteBody Run.note
  repeat' split
  all_goals rfl

/-- What a call with a number of retries leaves behind: `seen` is what it adds to the history, and
`last` is its last round. -/
structure PlaysOut (s : Settings) (asked : Asked) (run : Run) (retries : Nat) (seen : List Event) (last : Round) :
    Prop where
  history : (ask s asked run).2.history = seen ++ run.history
  posts : sends run.state.nextTag seen = (rounds run.state.nextTag seen).map Round.post
  /-- The answers are those of the script, one after another. -/
  answers : run.IsPlain → ∀ i x, (rounds run.state.nextTag seen)[i]? = some x →
    x.answer = run.answerAt run.state.nextTag i
  /-- The number of posts is that of the first answer that ends the call, if the retries last so long. -/
  count : (rounds run.state.nextTag seen).length =
    min ((rounds run.state.nextTag seen).findIdx (fun x => !s.repeatsRound x) + 1) (retries + 1)
  getLast : (rounds run.state.nextTag seen).getLast? = some last
  outcome : (∀ r, last.answer = .response r → s.CanShow r) → ∀ result,
    Verdict run.state.nextTag asked.read last.answer result ↔ result = (ask s asked run).1

/-- A call that is prepared and cannot be cancelled posts until an answer does not let it try again
or its retries are used up. The last answer alone says how it ends. -/
theorem ask_plays_out (s : Settings) (asked : Asked) (run : Run) {body : String} {retries : Nat}
    (hb : asked.body run.state.nextTag = .ok body) (hr : s.retryCount = .ok retries)
    (hc : asked.cancellable = false) : ∃ seen last, PlaysOut s asked run retries seen last := by
  have hp : asked.prepare s run.state.nextTag = .ok (body, retries) := by
    rw [Asked.prepare, hb, hr]
    rfl
  obtain ⟨seen, earlier, last, hh, hround, hsend, hanswers, hcomplete, hresult⟩ :=
    attempts_rounds s (run.callOf asked body) (overlapping (call s run.script.length)) hc
      (overlapping_fresh (call_extends s run.script.length)) retries 1 (run.start s asked)
      (by rw [start_state]; exact Nat.le_refl _)
  have hask := callWith_prepared run s asked (overlapping (call s run.script.length)) hp
  rw [← call, ← ask] at hask
  let ending := Ending.ofAttempts run.state.nextTag asked.read (last.answer.outcome.bind s.shown)
  let seen' := .ended run.state.nextTag ending :: (seen ++ [.entered run.state.nextTag asked])
  have hr' : rounds run.state.nextTag seen' = earlier ++ [last] := by
    rw [rounds_cons, rounds_append]
    exact (List.append_nil _).trans hround
  have hs' : sends run.state.nextTag seen' = (earlier ++ [last]).map Round.post := by
    rw [sends_cons, sends_append]
    exact (List.append_nil _).trans hsend
  have hending : (ask s asked run).1 = ending.result := by rw [hask, finish_result, hresult]
  refine ⟨seen', last, ?_, ?_, ?_, ?_, ?_, ?_⟩
  · rw [hask, finish_history, hh, start_history, hresult]
    simp [seen', ending]
  · rw [hs', hr']
  · rw [hr']
    intro hplain i x hx
    have hscript := start_script run s asked
    have h := hanswers (by rw [Run.IsPlain, hscript]; exact hplain) i x hx
    rw [Run.answerAt, hscript] at h
    exact h
  · rw [hr']
    exact hcomplete.length_eq
  · rw [hr', List.getLast?_concat]
  · intro hshow result
    have houtcome : last.answer.outcome.bind s.shown = last.answer.outcome := by
      cases ha : last.answer with
      | response r => exact shown_ok (hshow r ha)
      | _ => rfl
    rw [hending, verdict_iff]
    simp only [ending, houtcome]

def threeRounds : Run where
  state := twoLogins.state
  script := [⟨[], [], fun _ => .response ⟨409, [(tokenHeader, "one")], [], .ok ""⟩⟩,
    ⟨[], [], fun _ => .response ⟨401, [], [], .ok ""⟩⟩, ⟨[], [], fun _ => .response ⟨401, [], [], .ok ""⟩⟩]
  cancelled := []
  history := []
  log := []
  overlapped := []

theorem ask_plays_out_three_rounds : (∀ r, twoLogins.settings.CanShow r) ∧
    (∃ seen last, PlaysOut twoLogins.settings plainCall threeRounds 2 seen last) ∧
      (ask twoLogins.settings plainCall threeRounds).2.posts.length = 3 := by
  have hbody : plainCall.body 1 = .ok "\x7b\"method\": \"session-get\", \"tag\": 1\x7d" := by rfl
  refine ⟨?_, ask_plays_out twoLogins.settings plainCall threeRounds hbody rfl rfl, rfl⟩
  intro r hlogs
  cases hlogs

def answeredBy (r : HttpResponse) : Run where
  state := twoLogins.state
  script := [⟨[], [], fun _ => .response r⟩]
  cancelled := []
  history := []
  log := []
  overlapped := []

/-- A refusal whose header names an encoding that makes no text of any body. -/
def unshownRefusal : HttpResponse where
  status := 401
  headers := [("Content-Type", "application/json; charset=idna")]
  body := [0xC3, 0xA9]
  text := .error (.encoding "Unsupported error handling replace")

/-- Retries that are a fraction are set up, but no call with them is posted, and where bodies are logged a body that has
no text hides that the login is refused. -/
theorem plays_out_otherwise :
    (checkRetries fractionalSettings.retries = .ok () ∧
      (ask fractionalSettings plainCall threeRounds).1 = .error (.notAnIndex "float") ∧
      (ask fractionalSettings plainCall threeRounds).2.posts = []) ∧
    (ask loggingSettings plainCall (answeredBy unshownRefusal)).1 =
      .error (.session (.encoding "Unsupported error handling replace")) ∧
    (¬ ∀ (s : Settings) (asked : Asked) (run : Run) (body : String), checkRetries s.retries = .ok () →
      asked.body run.state.nextTag = .ok body → asked.cancellable = false → (ask s asked run).2.posts ≠ run.posts) ∧
    ¬ ∀ (s : Settings) (r : HttpResponse), s.fallback = .null → r.status = 401 →
      (ask s plainCall (answeredBy r)).1 = .error (.client .unauthorized) := by
  have hbody : plainCall.body 1 = .ok "\x7b\"method\": \"session-get\", \"tag\": 1\x7d" := by rfl
  have hretries : checkRetries fractionalSettings.retries = .ok () := ok_of_toOption (by decide +kernel)
  have hposts : (ask fractionalSettings plainCall threeRounds).2.posts = [] := rfl
  have hunshown : (ask loggingSettings plainCall (answeredBy unshownRefusal)).1 =
      .error (.session (.encoding "Unsupported error handling replace")) := rfl
  refine ⟨⟨hretries, rfl, hposts⟩, hunshown, fun h => ?_, fun h => ?_⟩
  · exact h fractionalSettings plainCall threeRounds _ hretries hbody rfl hposts
  · have hrefused := h loggingSettings unshownRefusal rfl rfl
    rw [hunshown] at hrefused
    cases hrefused

end TorrentRemote.Connection
