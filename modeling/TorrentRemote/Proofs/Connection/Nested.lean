import TorrentRemote.Proofs.Connection.History
import TorrentRemote.Proofs.Connection.Traffic

/-!
# Nested calls as traffic

A program whose calls overlap by nesting, to any depth, is a case of traffic: each thing that a call
does is a move. What holds of all traffic therefore holds of the calls as they are run.
-/

namespace TorrentRemote.Connection

/-! ## Moves in a row -/

def Leads (s : Settings) (t t' : Traffic) : Prop :=
  ∃ moves, t.after s moves = t'

namespace Leads

theorem refl (s : Settings) (t : Traffic) : Leads s t t :=
  ⟨[], rfl⟩

theorem of_move (s : Settings) (t : Traffic) (m : Move) : Leads s t (t.move s m) :=
  ⟨[m], rfl⟩

theorem trans {s : Settings} {a b c : Traffic} (hab : Leads s a b) (hbc : Leads s b c) : Leads s a c := by
  obtain ⟨moves, rfl⟩ := hab
  obtain ⟨moves', rfl⟩ := hbc
  exact ⟨moves ++ moves', by rw [Traffic.after, List.foldl_append]; rfl⟩

end Leads

/-! ## The traffic of a run -/

def Pending.under (cancelled : List Nat) (p : Pending) : Pending :=
  { p with cancelled := p.asked.isCancelled cancelled }

/-- A run as traffic, given the calls under way in it. -/
def Run.traffic (run : Run) (pending : Nat → Option Pending) : Traffic :=
  ⟨run.state, fun tag => (pending tag).map (Pending.under run.cancelled), run.history⟩

def putAt (pending : Nat → Option Pending) (tag : Nat) (p : Option Pending) : Nat → Option Pending :=
  fun other => if other = tag then p else pending other

def Run.Bounds (run : Run) (pending : Nat → Option Pending) : Prop :=
  ∀ tag, run.state.lastTag < tag → pending tag = none

section
variable {run run' : Run} {pending : Nat → Option Pending} {tag : Nat}

theorem traffic_putAt (p : Option Pending) :
    run.traffic (putAt pending tag p) = (run.traffic pending).put tag (p.map (Pending.under run.cancelled)) := by
  unfold Run.traffic putAt Traffic.put
  congr 1
  funext other
  split <;> rfl

theorem traffic_congr (hs : run'.state = run.state) (hc : run'.cancelled = run.cancelled)
    (hh : run'.history = run.history) : run'.traffic pending = run.traffic pending := by
  rw [Run.traffic, Run.traffic, hs, hc, hh]

theorem Run.Bounds.mono (h : run.Bounds pending) (hle : run.state.lastTag ≤ run'.state.lastTag) :
    run'.Bounds pending :=
  fun tag ht => h tag (Nat.lt_of_le_of_lt hle ht)

theorem Run.Bounds.putAt (h : run.Bounds pending) (hle : tag ≤ run.state.lastTag) (p : Option Pending) :
    run.Bounds (putAt pending tag p) := by
  intro other ho
  rw [Connection.putAt, if_neg (Nat.ne_of_gt (Nat.lt_of_le_of_lt hle ho))]
  exact h other ho

theorem putAt_none (h : pending tag = none) (p : Option Pending) :
    putAt (putAt pending tag p) tag none = pending := by
  funext other
  unfold putAt
  split
  · next he => rw [he, h]
  · rfl

theorem putAt_putAt (p p' : Option Pending) : putAt (putAt pending tag p) tag p' = putAt pending tag p' := by
  funext other
  unfold putAt
  split <;> rfl

end

def Overlap.Traced (s : Settings) (overlap : Overlap) : Prop :=
  ∀ other run pending, run.Bounds pending → Leads s (run.traffic pending) ((overlap other run).traffic pending)

theorem Overlap.Traced.fold {s : Settings} {overlap : Overlap} (ht : overlap.Traced s) (hf : overlap.Fresh) :
    ∀ (others : List Asked) (run : Run) (pending : Nat → Option Pending), run.Bounds pending →
      Leads s (run.traffic pending) ((others.foldl (fun run other => overlap other run) run).traffic pending)
  | [], _, _, _ => .refl s _
  | other :: others, run, pending, hb =>
    (ht other run pending hb).trans
      (ht.fold hf others (overlap other run) pending (hb.mono (hf other run).lastTag_le))

def cancelledBy (pending : Nat → Option Pending) (events : List Nat) (tag : Nat) : Bool :=
  (pending tag).any (·.asked.isCancelled events)

theorem traffic_cancels (s : Settings) (run : Run) (events : List Nat) (pending : Nat → Option Pending) :
    ({ run with cancelled := run.cancelled ++ events } : Run).traffic pending =
      (run.traffic pending).move s (.cancel (cancelledBy pending events)) := by
  unfold Run.traffic Traffic.move Traffic.cancel
  congr 1
  funext tag
  cases hp : pending tag with
  | none => simp only [hp, Option.map_none]
  | some p =>
    simp only [Option.map_some, cancelledBy, hp, Option.any_some, Pending.under, isCancelled_append]
    cases h : p.asked.isCancelled events with
    | false => simp
    | true => simp [Pending.cancel, cancellable_of_isCancelled h]

/-! ## Attempts -/

def Call.pending (call : Call) (left : Nat) (inFlight : Option Post) : Pending :=
  ⟨call.asked, call.body, left, false, inFlight⟩

section
variable (s : Settings) (call : Call) (overlap : Overlap) (pending : Nat → Option Pending)

/-- The traffic in which the call is under way beside the other ones. -/
def Run.during (run : Run) (left : Nat) (inFlight : Option Post) : Traffic :=
  run.traffic (putAt pending call.tag (some (call.pending left inFlight)))

variable (run : Run) (left : Nat) (inFlight : Option Post)

theorem during_pending : (run.during call pending left inFlight).pending call.tag =
    some ((call.pending left inFlight).under run.cancelled) := by
  rw [Run.during, traffic_putAt, Traffic.pending_put_self]
  rfl

theorem during_put (p : Option Post) (left' : Nat) :
    (run.during call pending left inFlight).put call.tag
      (some ((call.pending left' p).under run.cancelled)) = run.during call pending left' p := by
  have h : run.traffic (putAt (putAt pending call.tag (some (call.pending left inFlight))) call.tag
      (some (call.pending left' p))) = _ := traffic_putAt _
  rw [putAt_putAt] at h
  exact h.symm

theorem during_close (hn : pending call.tag = none) (ending : Ending) :
    (run.during call pending left inFlight).close call.tag ending =
      (run.traffic pending).see (.ended call.tag ending) := by
  have h : run.traffic (putAt (putAt pending call.tag (some (call.pending left inFlight))) call.tag none) = _ :=
    traffic_putAt none
  rw [putAt_none hn] at h
  rw [Traffic.close, h]
  rfl

theorem during_isCancelled :
    ((call.pending left inFlight).under run.cancelled).cancelled = call.isCancelled run := rfl

theorem during_gaveUp (hn : pending call.tag = none) (h : call.isCancelled run = true) :
    (run.during call pending left none).move s (.advance call.tag) =
      (run.traffic pending).see (.ended call.tag (.failed (.client .cancelled))) := by
  rw [move_advance s _ (during_pending call pending run left none) rfl, Traffic.advance,
    during_isCancelled, if_pos h, during_close call pending run left none hn]

theorem during_send (number : Nat) (h : call.isCancelled run = false) :
    (run.during call pending left none).move s (.advance call.tag) =
      (run.send s call number).during call pending left (some (post s run.state call.body)) := by
  rw [move_advance s _ (during_pending call pending run left none) rfl, Traffic.advance,
    during_isCancelled, if_neg (Bool.eq_false_iff.mp h)]
  exact congrArg (Traffic.see · (.sent call.tag (post s run.state call.body)))
    (during_put call pending run left none (some (post s run.state call.body)) left)

theorem during_take (sent : Post) (a : Answer) :
    (run.during call pending left (some sent)).take s call.tag
        ((call.pending left (some sent)).under run.cancelled) sent a =
      (run.receive s call sent a).2.during call pending left (some sent) := rfl

theorem during_receive (sent : Post) (a : Answer) :
    ((run.during call pending left (some sent)).state.receive s sent.login
      ((call.pending left (some sent)).under run.cancelled).cancelled a).1 = (run.receive s call sent a).1 := rfl

variable (sent : Post) (a : Answer) {r : HttpResponse} {again : Bool}

theorem during_failed (hn : pending call.tag = none) {e : Failure} (h : (run.receive s call sent a).1 = .failed e) :
    (run.during call pending left (some sent)).move s (.answer call.tag a) =
      ((run.receive s call sent a).2.traffic pending).see (.ended call.tag (.failed e)) := by
  rw [← during_receive s call pending run left] at h
  rw [move_answer s _ (during_pending call pending run left (some sent)) rfl, Traffic.answer, h,
    during_take s call pending run left]
  exact during_close call pending _ left (some sent) hn _

theorem during_repeated (h : (run.receive s call sent a).1 = .answered r true) :
    (run.during call pending (left + 1) (some sent)).move s (.answer call.tag a) =
      (run.receive s call sent a).2.during call pending left none := by
  rw [← during_receive s call pending run (left + 1)] at h
  rw [move_answer s _ (during_pending call pending run (left + 1) (some sent)) rfl, Traffic.answer, h,
    during_take s call pending run (left + 1)]
  exact during_put call pending (run.receive s call sent a).2 (left + 1) (some sent) none left

theorem during_concluded (hn : pending call.tag = none) (h : (run.receive s call sent a).1 = .answered r again)
    (hl : again = true → left = 0) :
    (run.during call pending left (some sent)).move s (.answer call.tag a) =
      ((run.receive s call sent a).2.traffic pending).see
        (.ended call.tag (.ofAttempts call.tag call.asked.read (s.shown r))) := by
  rw [← during_receive s call pending run left] at h
  rw [move_answer s _ (during_pending call pending run left (some sent)) rfl, Traffic.answer, h,
    during_take s call pending run left]
  have hclose := during_close call pending (run.receive s call sent a).2 left (some sent) hn
    (.ofAttempts call.tag call.asked.read (s.shown r))
  cases again with
  | false => exact hclose
  | true =>
    obtain rfl := hl rfl
    exact hclose

end

/-! ## Calls -/

section
variable (s : Settings) (call : Call) (overlap : Overlap) (pending : Nat → Option Pending)
  (hn : pending call.tag = none) (hf : overlap.Fresh) (ht : overlap.Traced s)
include hn hf ht

omit hn in
theorem flown_traced (number left : Nat) (run : Run) (hle : call.tag ≤ run.state.lastTag) (hb : run.Bounds pending)
    (h : call.isCancelled run = false) :
    Leads s (run.during call pending left none)
      ((run.flown s call number overlap).during call pending left (some (post s run.state call.body))) := by
  let pending' := putAt pending call.tag (some (call.pending left (some (post s run.state call.body))))
  have hsend := Leads.of_move s (run.during call pending left none) (.advance call.tag)
  rw [during_send s call pending run left number h] at hsend
  have hnext : (run.send s call number).next.2.traffic pending' = (run.send s call number).traffic pending' :=
    traffic_congr (next_state _) (next_cancelled _) (next_history _)
  have hb' : (run.send s call number).next.2.Bounds pending' :=
    (hb.putAt hle _).mono (Nat.le_of_eq (by rw [next_state, send_state]))
  have hfold := ht.fold hf (run.send s call number).next.1.overlaps (run.send s call number).next.2 pending' hb'
  rw [hnext] at hfold
  refine (hsend.trans hfold).trans ?_
  rw [Run.flown, Run.wait, Run.during, traffic_cancels s]
  exact .of_move s _ _

theorem attempts_traced : ∀ (left number : Nat) (run : Run), call.tag ≤ run.state.lastTag → run.Bounds pending →
    Leads s (run.during call pending left none)
      (((attempts s overlap call left number run).2.traffic pending).see
        (.ended call.tag (.ofAttempts call.tag call.asked.read
          ((attempts s overlap call left number run).1.bind s.shown))))
  | left, number, run, hle, hb => by
    have hx := attempt_extends run s call number overlap hf hle
    unfold attempts
    cases h : call.isCancelled run with
    | true =>
      rw [attempt_cancelled run s call number overlap h]
      have hmove := Leads.of_move s (run.during call pending left none) (.advance call.tag)
      rw [during_gaveUp s call pending run left hn h] at hmove
      exact hmove
    | false =>
      have hflown := flown_traced s call overlap pending hf ht number left run hle hb h
      rw [attempt_sent run s call number overlap h] at hx ⊢
      -- only the run in which the answer comes back matters from here on
      generalize run.flown s call number overlap = flown at *
      generalize (run.send s call number).next.1.answer call.tag = a at *
      generalize post s run.state call.body = sent at *
      have hmove := hflown.trans (.of_move s _ (.answer call.tag a))
      cases hr : (flown.receive s call sent a).1 with
      | failed e =>
        rw [during_failed s call pending flown left sent a hn hr] at hmove
        rw [← Prod.eta (flown.receive s call sent a), hr]
        exact hmove
      | answered r again =>
        rw [← Prod.eta (flown.receive s call sent a), hr]
        cases left with
        | zero =>
          rw [during_concluded s call pending flown 0 sent a hn hr fun _ => rfl] at hmove
          exact hmove
        | succ left =>
          cases again with
          | false =>
            rw [during_concluded s call pending flown (left + 1) sent a hn hr fun h => by cases h] at hmove
            exact hmove
          | true =>
            rw [during_repeated s call pending flown left sent a hr] at hmove
            exact hmove.trans (attempts_traced left (number + 1) (flown.receive s call sent a).2
              (Nat.le_trans hle hx.lastTag_le) (hb.mono hx.lastTag_le))

end

section
variable (s : Settings) (asked : Asked) (pending : Nat → Option Pending) (run : Run)

theorem start_traffic : (run.start s asked).traffic pending = (run.traffic pending).takeTag asked := by
  have h : (run.start s asked).traffic pending = (run.enter asked).traffic pending :=
    traffic_congr (start_state run s asked) (start_cancelled run s asked) (start_history run s asked)
  exact h

theorem enter_failed {e : Failure} (hp : asked.prepare s run.state.nextTag = .error e) :
    (run.traffic pending).move s (.enter asked (asked.isCancelled run.cancelled)) =
      ((run.start s asked).close run.state.nextTag (.failed e)).2.traffic pending := by
  have h : ((run.start s asked).close run.state.nextTag (.failed e)).2.traffic pending =
      ((run.start s asked).traffic pending).see (.ended run.state.nextTag (.failed e)) := rfl
  rw [h, start_traffic, Traffic.move, Traffic.enter]
  simp only [Run.traffic, hp]

theorem enter_prepared {body : String} {left : Nat} (hp : asked.prepare s run.state.nextTag = .ok (body, left)) :
    (run.traffic pending).move s (.enter asked (asked.isCancelled run.cancelled)) =
      (run.start s asked).during (run.callOf asked body) pending left none := by
  rw [Run.during, traffic_putAt, start_traffic, start_cancelled, Traffic.move, Traffic.enter]
  simp only [Run.traffic, hp, cancellable_and_isCancelled]
  rfl

theorem finish_traffic (tag : Nat) (result : Except Failure HttpResponse) :
    (run.finish s asked tag result).2.traffic pending =
      (run.traffic pending).see (.ended tag (.ofAttempts tag asked.read (result.bind s.shown))) := by
  unfold Run.finish Run.close
  exact congrArg (Traffic.see · _) (traffic_congr (noteBody_state run s _) (noteBody_cancelled run s _)
    (noteBody_history run s _))

variable (overlap : Overlap) (hf : overlap.Fresh) (ht : overlap.Traced s)
include hf ht

theorem callWith_traced (hb : run.Bounds pending) :
    Leads s (run.traffic pending) ((callWith s overlap asked run).2.traffic pending) := by
  have henter := Leads.of_move s (run.traffic pending) (.enter asked (asked.isCancelled run.cancelled))
  cases hp : asked.prepare s run.state.nextTag with
  | error e =>
    rw [enter_failed s asked pending run hp] at henter
    rw [callWith_failed run s asked overlap hp]
    exact henter
  | ok p =>
    obtain ⟨body, left⟩ := p
    rw [enter_prepared s asked pending run hp] at henter
    rw [callWith_prepared run s asked overlap hp, finish_traffic]
    have hn : pending run.state.nextTag = none := hb run.state.nextTag (Nat.lt_succ_self _)
    refine henter.trans (attempts_traced s (run.callOf asked body) overlap pending hn hf ht left 1
      (run.start s asked) ?_ ?_)
    · rw [start_state]
      exact Nat.le_refl _
    · exact hb.mono (by rw [start_state]; exact Nat.le_succ _)

end

theorem nothing_traced (s : Settings) : Overlap.Traced s fun _ run => run :=
  fun _ run pending _ => .refl s (run.traffic pending)

theorem call_traced (s : Settings) : ∀ (depth : Nat) (asked : Asked) (run : Run) (pending : Nat → Option Pending),
    run.Bounds pending → Leads s (run.traffic pending) ((call s depth asked run).2.traffic pending)
  | 0, asked, run, pending, hb => callWith_traced s asked pending run _ nothing_fresh (nothing_traced s) hb
  | depth + 1, asked, run, pending, hb =>
    callWith_traced s asked pending run _ (overlapping_fresh (call_extends s depth)) (call_traced s depth) hb

/-! ## Programs -/

theorem reached_traced {s : Settings} {st : State} {run : Run} (h : Reached s st run) :
    Leads s (Traffic.new st) (run.traffic fun _ => none) := by
  induction h with
  | new script cancelled log overlapped => exact .refl s _
  | @ask run asked script cancelled _ ih =>
    exact ih.trans (call_traced s _ asked { run with script, cancelled } _ fun _ _ => rfl)

/-- Whatever can be seen on a connection can be seen of traffic. -/
theorem observed_moves {s : Settings} {st : State} {history : List Event} (h : Observed s st history) :
    ∃ moves, ((Traffic.new st).after s moves).history = history := by
  rcases h with ⟨run, hr, rfl⟩ | h
  · obtain ⟨moves, hm⟩ := reached_traced hr
    exact ⟨moves, by rw [hm]; rfl⟩
  · exact h

theorem observed_invariant {s : Settings} {st : State} {history : List Event} {P : Traffic → Prop}
    (h : Observed s st history) (hnew : P (Traffic.new st)) (hstep : ∀ {t t'}, P t → Step s t t' → P t') :
    ∃ t, P t ∧ t.history = history := by
  obtain ⟨moves, rfl⟩ := observed_moves h
  exact ⟨_, Traffic.after_of_step hstep moves hnew, rfl⟩

end TorrentRemote.Connection
