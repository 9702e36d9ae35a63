import TorrentRemote.Proofs.Connection.State

/-!
# Traffic

Any number of calls on one connection, in any overlap: each call under way either has a post in
flight or is between attempts, and any of them can make the next move. To read the token and the
login and to send the post is one move, so no other call comes between; calls overlap while posts are
in flight. `Observed` are the histories that can come about so, and those of programs that make one
call after another with others nested in them. `Step` says once what a move can do.
-/

namespace TorrentRemote.Connection

/-- A call that has taken its tag and has not ended. `left` is how many attempts may follow the one
that is in flight or, between attempts, the next one. -/
structure Pending where
  asked : Asked
  body : String
  left : Nat
  cancelled : Bool
  inFlight : Option Post

def Pending.cancel (p : Pending) : Pending :=
  { p with cancelled := p.cancelled || p.asked.cancellable }

/-- A connection with the calls under way by their tags, and what has been seen so far, the latest
event first. -/
structure Traffic where
  state : State
  pending : Nat → Option Pending
  history : List Event

/-- A call takes its tag, calls are cancelled, a call makes its next attempt, or an answer to its
post comes back. The login and the token of a post are those of the moment in which it goes out. -/
inductive Move where
  | enter (asked : Asked) (cancelled : Bool)
  | cancel (which : Nat → Bool)
  | advance (tag : Nat)
  | answer (tag : Nat) (answer : Answer)

namespace Traffic

def new (st : State) : Traffic :=
  ⟨st, fun _ => none, []⟩

def see (t : Traffic) (event : Event) : Traffic :=
  { t with history := event :: t.history }

def put (t : Traffic) (tag : Nat) (p : Option Pending) : Traffic :=
  { t with pending := fun other => if other = tag then p else t.pending other }

def close (t : Traffic) (tag : Nat) (ending : Ending) : Traffic :=
  (t.put tag none).see (.ended tag ending)

def takeTag (t : Traffic) (asked : Asked) : Traffic :=
  { t with state := { t.state with lastTag := t.state.nextTag } }.see (.entered t.state.nextTag asked)

def enter (s : Settings) (t : Traffic) (asked : Asked) (cancelled : Bool) : Traffic :=
  match asked.prepare s t.state.nextTag with
  | .error e => (t.takeTag asked).see (.ended t.state.nextTag (.failed e))
  | .ok (body, left) =>
    (t.takeTag asked).put t.state.nextTag (some ⟨asked, body, left, asked.cancellable && cancelled, none⟩)

def cancel (t : Traffic) (which : Nat → Bool) : Traffic :=
  { t with pending := fun tag => (t.pending tag).map fun p => if which tag then p.cancel else p }

def send (s : Settings) (t : Traffic) (tag : Nat) (p : Pending) : Traffic :=
  let sent := post s t.state p.body
  (t.put tag (some { p with inFlight := some sent })).see (.sent tag sent)

def advance (s : Settings) (t : Traffic) (tag : Nat) (p : Pending) : Traffic :=
  if p.cancelled then t.close tag (.failed (.client .cancelled)) else t.send s tag p

def take (s : Settings) (t : Traffic) (tag : Nat) (p : Pending) (sent : Post) (answer : Answer) : Traffic :=
  { t with state := (t.state.receive s sent.login p.cancelled answer).2.1 }.see
    (.answered tag sent answer p.cancelled)

def answer (s : Settings) (t : Traffic) (tag : Nat) (p : Pending) (sent : Post) (answer : Answer) : Traffic :=
  match (t.state.receive s sent.login p.cancelled answer).1, p.left with
  | .failed e, _ => (t.take s tag p sent answer).close tag (.failed e)
  | .answered _ true, left + 1 => (t.take s tag p sent answer).put tag (some { p with left, inFlight := none })
  | .answered r _, _ => (t.take s tag p sent answer).close tag (.ofAttempts tag p.asked.read (s.shown r))

/-- Moves that no call can make change nothing. -/
def move (s : Settings) (t : Traffic) : Move → Traffic
  | .enter asked cancelled => t.enter s asked cancelled
  | .cancel which => t.cancel which
  | .advance tag =>
    match t.pending tag with
    | none => t
    | some p => if p.inFlight.isSome then t else t.advance s tag p
  | .answer tag answer =>
    match t.pending tag with
    | none => t
    | some p =>
      match p.inFlight with
      | none => t
      | some sent => t.answer s tag p sent answer

def after (s : Settings) (t : Traffic) (moves : List Move) : Traffic :=
  moves.foldl (move s) t

section
variable (s : Settings) (t : Traffic) (event : Event) (tag : Nat) (p : Option Pending) (asked : Asked)
  (which : Nat → Bool) (call : Pending) (sent : Post) (a : Answer)

@[simp] theorem see_pending : (t.see event).pending = t.pending := rfl

@[simp] theorem put_history : (t.put tag p).history = t.history := rfl

@[simp] theorem takeTag_state : (t.takeTag asked).state = { t.state with lastTag := t.state.nextTag } := rfl

@[simp] theorem takeTag_history : (t.takeTag asked).history = .entered t.state.nextTag asked :: t.history := rfl

@[simp] theorem cancel_history : (t.cancel which).history = t.history := rfl

@[simp] theorem send_state : (t.send s tag call).state = t.state := rfl

@[simp] theorem send_history :
    (t.send s tag call).history = .sent tag (post s t.state call.body) :: t.history := rfl

@[simp] theorem take_pending : (t.take s tag call sent a).pending = t.pending := rfl

@[simp] theorem take_history :
    (t.take s tag call sent a).history = .answered tag sent a call.cancelled :: t.history := rfl

theorem take_state : (t.take s tag call sent a).state = (t.state.receive s sent.login call.cancelled a).2.1 := rfl

end

@[simp] theorem pending_put_self (t : Traffic) (tag : Nat) (p : Option Pending) : (t.put tag p).pending tag = p :=
  if_pos rfl

theorem pending_put_other (t : Traffic) {tag other : Nat} (p : Option Pending) (h : other ≠ tag) :
    (t.put tag p).pending other = t.pending other :=
  if_neg h

def All (t : Traffic) (P : Nat → Pending → Prop) : Prop :=
  ∀ tag p, t.pending tag = some p → P tag p

theorem All.put {t : Traffic} {P : Nat → Pending → Prop} (h : t.All P) {tag : Nat} {p : Option Pending}
    (hp : ∀ q, p = some q → P tag q) : (t.put tag p).All P := by
  intro other q hq
  by_cases ho : other = tag
  · subst ho
    rw [pending_put_self] at hq
    exact hp q hq
  · rw [pending_put_other t p ho] at hq
    exact h other q hq

theorem All.cancel {t : Traffic} {P : Nat → Pending → Prop} (h : t.All P)
    (hc : ∀ {tag p}, P tag p → P tag p.cancel) (which : Nat → Bool) : (t.cancel which).All P := by
  intro tag p hp
  obtain ⟨q, hq, rfl⟩ := Option.map_eq_some_iff.mp hp
  split
  · exact hc (h tag q hq)
  · exact h tag q hq

end Traffic

/-! ## Histories -/

/-- A history in which each event suits what was seen before it. -/
def Chronicle (P : List Event → Event → Prop) : List Event → Prop
  | [] => True
  | e :: earlier => P earlier e ∧ Chronicle P earlier

theorem Chronicle.event {P : List Event → Event → Prop} {e : Event} {earlier : List Event} :
    ∀ {later : List Event}, Chronicle P (later ++ e :: earlier) → P earlier e
  | [], h => h.1
  | _ :: _, h => Chronicle.event h.2

/-! ## Programs -/

/-- The runs of a program that makes calls one after another on a connection: before each call there
are new exchanges and other events are set. -/
inductive Reached (s : Settings) (st : State) : Run → Prop
  | new (script : List Exchange) (cancelled : List Nat) (log : List Log.Record)
      (overlapped : List (Except Failure Value)) :
      Reached s st ⟨st, script, cancelled, [], log, overlapped⟩
  | ask {run : Run} (asked : Asked) (script : List Exchange) (cancelled : List Nat) :
      Reached s st run → Reached s st (ask s asked { run with script, cancelled }).2

/-- What can be seen on a connection that starts with a state. -/
def Observed (s : Settings) (st : State) (history : List Event) : Prop :=
  (∃ run, Reached s st run ∧ run.history = history) ∨ ∃ moves, ((Traffic.new st).after s moves).history = history

/-! ## Steps -/

open Traffic in
/-- What a move can do. -/
inductive Step (s : Settings) (t : Traffic) : Traffic → Prop
  | idle : Step s t t
  | cancelled (which : Nat → Bool) : Step s t (t.cancel which)
  | refused {asked : Asked} {e : Failure} : asked.prepare s t.state.nextTag = .error e →
      Step s t ((t.takeTag asked).see (.ended t.state.nextTag (.failed e)))
  | entered {asked : Asked} {body : String} {left : Nat} (cancelled : Bool) :
      asked.prepare s t.state.nextTag = .ok (body, left) →
      Step s t ((t.takeTag asked).put t.state.nextTag (some ⟨asked, body, left, asked.cancellable && cancelled, none⟩))
  | gaveUp {tag : Nat} {p : Pending} : t.pending tag = some p → p.inFlight = none → p.cancelled = true →
      Step s t (t.close tag (.failed (.client .cancelled)))
  | sent {tag : Nat} {p : Pending} : t.pending tag = some p → p.inFlight = none → p.cancelled = false →
      Step s t (t.send s tag p)
  | failed {tag : Nat} {p : Pending} {sent : Post} (a : Answer) (e : Failure) :
      t.pending tag = some p → p.inFlight = some sent → Step s t ((t.take s tag p sent a).close tag (.failed e))
  | repeated {tag : Nat} {p : Pending} {sent : Post} {a : Answer} {left : Nat} :
      t.pending tag = some p → p.inFlight = some sent → p.cancelled = false → s.repeats sent.login a = true →
      p.left = left + 1 → Step s t ((t.take s tag p sent a).put tag (some { p with left, inFlight := none }))
  | concluded {tag : Nat} {p : Pending} {sent : Post} {r : HttpResponse} :
      t.pending tag = some p → p.inFlight = some sent → p.cancelled = false →
      (s.repeats sent.login (.response r) = true → p.left = 0) →
      Step s t ((t.take s tag p sent (.response r)).close tag (.ofAttempts tag p.asked.read (s.shown r)))

section
variable (s : Settings) (t : Traffic)

theorem step_enter (asked : Asked) (cancelled : Bool) : Step s t (t.enter s asked cancelled) := by
  unfold Traffic.enter
  split
  · next h => exact .refused h
  · next h => exact .entered cancelled h

theorem step_advance {tag : Nat} {p : Pending} (hp : t.pending tag = some p) (hf : p.inFlight = none) :
    Step s t (t.advance s tag p) := by
  unfold Traffic.advance
  split
  · next hc => exact .gaveUp hp hf hc
  · next hc => exact .sent hp hf (Bool.eq_false_iff.mpr hc)

theorem step_answer {tag : Nat} {p : Pending} {sent : Post} (hp : t.pending tag = some p)
    (hf : p.inFlight = some sent) (a : Answer) : Step s t (t.answer s tag p sent a) := by
  unfold Traffic.answer
  split
  · next e h => exact .failed a e hp hf
  · next r left h hl =>
    obtain ⟨-, hc, hr⟩ := receive_answered s t.state sent.login p.cancelled a h
    exact .repeated hp hf hc hr.symm hl
  · next r again h hn =>
    obtain ⟨rfl, hc, hr⟩ := receive_answered s t.state sent.login p.cancelled a h
    refine .concluded hp hf hc fun hrep => ?_
    cases hl : p.left with
    | zero => rfl
    | succ left => exact absurd (hr.trans hrep) (hn left hl)

theorem move_advance {tag : Nat} {p : Pending} (hp : t.pending tag = some p) (hf : p.inFlight = none) :
    t.move s (.advance tag) = t.advance s tag p := by
  simp [Traffic.move, hp, hf]

theorem move_answer {tag : Nat} {p : Pending} {sent : Post} (hp : t.pending tag = some p)
    (hf : p.inFlight = some sent) (a : Answer) : t.move s (.answer tag a) = t.answer s tag p sent a := by
  simp [Traffic.move, hp, hf]

theorem step_move (m : Move) : Step s t (t.move s m) := by
  cases m with
  | enter asked cancelled => exact step_enter s t asked cancelled
  | cancel which => exact .cancelled which
  | advance tag =>
    cases hp : t.pending tag with
    | none => simpa [Traffic.move, hp] using Step.idle
    | some p =>
      cases hf : p.inFlight with
      | none =>
        rw [move_advance s t hp hf]
        exact step_advance s t hp hf
      | some sent => simpa [Traffic.move, hp, hf] using Step.idle
  | answer tag a =>
    cases hp : t.pending tag with
    | none => simpa [Traffic.move, hp] using Step.idle
    | some p =>
      cases hf : p.inFlight with
      | none => simpa [Traffic.move, hp, hf] using Step.idle
      | some sent =>
        rw [move_answer s t hp hf]
        exact step_answer s t hp hf a

end

theorem Traffic.after_of_step {s : Settings} {P : Traffic → Prop} (hstep : ∀ {t t'}, P t → Step s t t' → P t') :
    ∀ (moves : List Move) {t : Traffic}, P t → P (t.after s moves)
  | [], _, h => h
  | m :: moves, t, h => after_of_step hstep moves (hstep h (step_move s t m))

end TorrentRemote.Connection
