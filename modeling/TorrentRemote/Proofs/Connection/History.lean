import TorrentRemote.Proofs.Connection.State

/-!
# What calls leave in the history

A call adds to the history and takes nothing away. What it adds has its own tag or that of a later
call, so the events of one call can be told from those of the calls that overlap it.
-/

namespace TorrentRemote.Connection

structure Round where
  post : Post
  answer : Answer

def Event.sentBy? (tag : Nat) : Event → Option Post
  | .sent t post => if t = tag then some post else none
  | _ => none

def Event.round? (tag : Nat) : Event → Option Round
  | .answered t post answer _ => if t = tag then some ⟨post, answer⟩ else none
  | _ => none

def sends (tag : Nat) (history : List Event) : List Post :=
  history.reverse.filterMap (Event.sentBy? tag)

/-- The posts of a call that were answered, with the answers, in order. -/
def rounds (tag : Nat) (history : List Event) : List Round :=
  history.reverse.filterMap (Event.round? tag)

section
variable (tag : Nat) (e : Event) (new old : List Event)

theorem sends_append : sends tag (new ++ old) = sends tag old ++ sends tag new := by
  simp [sends]

theorem rounds_append : rounds tag (new ++ old) = rounds tag old ++ rounds tag new := by
  simp [rounds]

theorem sends_cons : sends tag (e :: old) = sends tag old ++ (e.sentBy? tag).toList := by
  rw [sends, List.reverse_cons, List.filterMap_append]
  cases h : e.sentBy? tag <;> simp [sends, h]

theorem rounds_cons : rounds tag (e :: old) = rounds tag old ++ (e.round? tag).toList := by
  rw [rounds, List.reverse_cons, List.filterMap_append]
  cases h : e.round? tag <;> simp [rounds, h]

end

theorem sends_of_later {tag : Nat} {seen : List Event} (h : ∀ e ∈ seen, tag < e.tag) : sends tag seen = [] := by
  rw [sends, List.filterMap_eq_nil_iff]
  intro e he
  have hlt := h e (List.mem_reverse.mp he)
  cases e with
  | sent t p => exact if_neg (Nat.ne_of_gt hlt)
  | _ => rfl

theorem rounds_of_later {tag : Nat} {seen : List Event} (h : ∀ e ∈ seen, tag < e.tag) : rounds tag seen = [] := by
  rw [rounds, List.filterMap_eq_nil_iff]
  intro e he
  have hlt := h e (List.mem_reverse.mp he)
  cases e with
  | answered t p a d => exact if_neg (Nat.ne_of_gt hlt)
  | _ => rfl

/-! ## Runs that go on -/

/-- A run that has gone on from another one: what it has seen since belongs to calls with tags from
one on, and the tags that were given out stay so. -/
structure Run.Extends (tag : Nat) (old new : Run) : Prop where
  lastTag_le : old.state.lastTag ≤ new.state.lastTag
  seen : ∃ seen, new.history = seen ++ old.history ∧ ∀ e ∈ seen, tag ≤ e.tag

namespace Run.Extends

theorem refl (tag : Nat) (run : Run) : Run.Extends tag run run :=
  ⟨Nat.le_refl _, [], rfl, by simp⟩

theorem trans {tag : Nat} {a b c : Run} (hab : Run.Extends tag a b) (hbc : Run.Extends tag b c) :
    Run.Extends tag a c := by
  obtain ⟨seen, hs, ht⟩ := hab.seen
  obtain ⟨seen', hs', ht'⟩ := hbc.seen
  refine ⟨Nat.le_trans hab.lastTag_le hbc.lastTag_le, seen' ++ seen, ?_, ?_⟩
  · rw [hs', hs, List.append_assoc]
  · intro e he
    rcases List.mem_append.mp he with h | h
    · exact ht' e h
    · exact ht e h

theorem mono {tag tag' : Nat} {a b : Run} (hle : tag ≤ tag') (h : Run.Extends tag' a b) : Run.Extends tag a b := by
  obtain ⟨seen, hs, ht⟩ := h.seen
  exact ⟨h.lastTag_le, seen, hs, fun e he => Nat.le_trans hle (ht e he)⟩

theorem of_see {tag : Nat} {old new : Run} {e : Event} (hl : old.state.lastTag ≤ new.state.lastTag)
    (hh : new.history = e :: old.history) (he : tag ≤ e.tag) : Run.Extends tag old new :=
  ⟨hl, [e], hh, by simpa using he⟩

end Run.Extends

/-- An overlapping call takes a tag that was not given out before. -/
def Overlap.Fresh (overlap : Overlap) : Prop :=
  ∀ other run, Run.Extends (run.state.lastTag + 1) run (overlap other run)

theorem Overlap.Fresh.fold {overlap : Overlap} (hf : overlap.Fresh) : ∀ (others : List Asked) (run : Run),
    Run.Extends (run.state.lastTag + 1) run (others.foldl (fun run other => overlap other run) run)
  | [], run => .refl _ run
  | other :: others, run => by
    have h := hf other run
    exact h.trans ((hf.fold others (overlap other run)).mono (Nat.succ_le_succ h.lastTag_le))

theorem Overlap.Fresh.wait {overlap : Overlap} (hf : overlap.Fresh) (run : Run) (exchange : Exchange) :
    Run.Extends (run.state.lastTag + 1) run (run.wait overlap exchange) := by
  have h := hf.fold exchange.overlaps run
  exact ⟨h.lastTag_le, h.seen⟩

/-! ## Attempts -/

section
variable (run : Run) (s : Settings) (call : Call) (number : Nat) (sent : Post) (answer : Answer)

@[simp] theorem next_state : run.next.2.state = run.state := by
  unfold Run.next; split <;> rfl

@[simp] theorem next_cancelled : run.next.2.cancelled = run.cancelled := by
  unfold Run.next; split <;> rfl

@[simp] theorem next_history : run.next.2.history = run.history := by
  unfold Run.next; split <;> rfl

@[simp] theorem send_state : (run.send s call number).state = run.state := rfl

@[simp] theorem send_history :
    (run.send s call number).history = .sent call.tag (post s run.state call.body) :: run.history := rfl

theorem receive_attempt : (run.receive s call sent answer).1 =
    (run.state.receive s sent.login (call.isCancelled run) answer).1 := rfl

theorem receive_run : (run.receive s call sent answer).2.state =
    (run.state.receive s sent.login (call.isCancelled run) answer).2.1 := rfl

@[simp] theorem receive_history : (run.receive s call sent answer).2.history =
    .answered call.tag sent answer (call.isCancelled run) :: run.history := rfl

theorem receive_extends : Run.Extends call.tag run (run.receive s call sent answer).2 :=
  .of_see (Nat.le_of_eq (by rw [receive_run, receive_state])) rfl (Nat.le_refl _)

variable (overlap : Overlap)

theorem attempt_cancelled (h : call.isCancelled run = true) :
    attempt s overlap call number run = (.failed (.client .cancelled), run) := by
  rw [attempt, if_pos h]

/-- The run in which the answer to a post comes back. -/
def Run.flown : Run :=
  (run.send s call number).next.2.wait overlap (run.send s call number).next.1

theorem attempt_sent (h : call.isCancelled run = false) : attempt s overlap call number run =
    (run.flown s call number overlap).receive s call (post s run.state call.body)
      ((run.send s call number).next.1.answer call.tag) := by
  rw [attempt, h]
  rfl

variable (hf : overlap.Fresh)
include hf

theorem flown_extends :
    Run.Extends run.state.nextTag (run.send s call number).next.2 (run.flown s call number overlap) := by
  have h := hf.wait (run.send s call number).next.2 (run.send s call number).next.1
  rw [next_state, send_state] at h
  exact h

theorem attempt_extends (hle : call.tag ≤ run.state.lastTag) :
    Run.Extends call.tag run (attempt s overlap call number run).2 := by
  cases h : call.isCancelled run with
  | true =>
    rw [attempt_cancelled run s call number overlap h]
    exact .refl _ run
  | false =>
    rw [attempt_sent run s call number overlap h]
    have h1 : Run.Extends call.tag run (run.send s call number).next.2 :=
      .of_see (Nat.le_of_eq (by rw [next_state, send_state])) (next_history _) (Nat.le_refl _)
    have h2 := (flown_extends run s call number overlap hf).mono (Nat.le_succ_of_le hle)
    exact (h1.trans h2).trans (receive_extends _ s call _ _)

omit run number in
theorem attempts_extends : ∀ (left number : Nat) (run : Run), call.tag ≤ run.state.lastTag →
    Run.Extends call.tag run (attempts s overlap call left number run).2
  | left, number, run, hle => by
    have h := attempt_extends run s call number overlap hf hle
    unfold attempts
    generalize attempt s overlap call number run = x at h
    obtain ⟨result, run'⟩ := x
    cases result with
    | failed e => exact h
    | answered r again =>
      cases left with
      | zero => exact h
      | succ left =>
        cases again with
        | false => exact h
        | true => exact h.trans (attempts_extends left (number + 1) run' (Nat.le_trans hle h.lastTag_le))

end

/-! ## Calls -/

section
variable (run : Run) (s : Settings)

@[simp] theorem noteBody_state (line : Except Failure String) : (run.noteBody s line).state = run.state := by
  unfold Run.noteBody Run.note
  repeat' split
  all_goals rfl

@[simp] theorem noteBody_cancelled (line : Except Failure String) :
    (run.noteBody s line).cancelled = run.cancelled := by
  unfold Run.noteBody Run.note
  repeat' split
  all_goals rfl

@[simp] theorem noteBody_history (line : Except Failure String) : (run.noteBody s line).history = run.history := by
  unfold Run.noteBody Run.note
  repeat' split
  all_goals rfl

variable (asked : Asked)

@[simp] theorem start_state : (run.start s asked).state = { run.state with lastTag := run.state.nextTag } := by
  rw [Run.start, noteBody_state]
  rfl

@[simp] theorem start_cancelled : (run.start s asked).cancelled = run.cancelled := by
  rw [Run.start, noteBody_cancelled]
  rfl

@[simp] theorem start_history :
    (run.start s asked).history = .entered run.state.nextTag asked :: run.history := by
  rw [Run.start, noteBody_history]
  rfl

theorem start_extends : Run.Extends run.state.nextTag run (run.start s asked) :=
  .of_see (by rw [start_state]; exact Nat.le_succ _) (start_history run s asked) (Nat.le_refl _)

theorem close_extends (tag : Nat) (ending : Ending) : Run.Extends tag run (run.close tag ending).2 :=
  .of_see (Nat.le_refl _) rfl (Nat.le_refl _)

theorem finish_result (tag : Nat) (result : Except Failure HttpResponse) : (run.finish s asked tag result).1 =
    (Ending.ofAttempts tag asked.read (result.bind s.shown)).result := rfl

theorem finish_history (tag : Nat) (result : Except Failure HttpResponse) :
    (run.finish s asked tag result).2.history =
      .ended tag (.ofAttempts tag asked.read (result.bind s.shown)) :: run.history := by
  unfold Run.finish Run.close Run.see
  exact congrArg (List.cons _) (noteBody_history run s _)

theorem finish_extends (tag : Nat) (result : Except Failure HttpResponse) :
    Run.Extends tag run (run.finish s asked tag result).2 :=
  .of_see (Nat.le_of_eq (by simp [Run.finish, Run.close, Run.see])) (finish_history run s asked tag result)
    (Nat.le_refl _)

variable (overlap : Overlap)

theorem callWith_failed {e : Failure} (h : asked.prepare s run.state.nextTag = .error e) :
    callWith s overlap asked run = (run.start s asked).close run.state.nextTag (.failed e) := by
  simp only [callWith, h]

def Run.callOf (body : String) : Call :=
  ⟨asked, run.state.nextTag, body⟩

theorem callWith_prepared {body : String} {left : Nat} (h : asked.prepare s run.state.nextTag = .ok (body, left)) :
    callWith s overlap asked run =
      (attempts s overlap (run.callOf asked body) left 1 (run.start s asked)).2.finish s asked run.state.nextTag
        (attempts s overlap (run.callOf asked body) left 1 (run.start s asked)).1 := by
  simp only [callWith, h]
  rfl

theorem callWith_extends (hf : overlap.Fresh) : Run.Extends run.state.nextTag run (callWith s overlap asked run).2 := by
  have h0 := start_extends run s asked
  cases hp : asked.prepare s run.state.nextTag with
  | error e =>
    rw [callWith_failed run s asked overlap hp]
    exact h0.trans (close_extends _ _ _)
  | ok p =>
    obtain ⟨body, left⟩ := p
    rw [callWith_prepared run s asked overlap hp]
    have h1 := attempts_extends s (run.callOf asked body) overlap hf left 1 (run.start s asked)
      (by rw [start_state]; exact Nat.le_refl _)
    exact (h0.trans h1).trans (finish_extends _ s asked _ _)

end

/-- What a call returns is what its end in the history says. -/
theorem callWith_returns (s : Settings) (overlap : Overlap) (asked : Asked) (run : Run) :
    ∃ ending earlier, (callWith s overlap asked run).2.history = .ended run.state.nextTag ending :: earlier ∧
      (callWith s overlap asked run).1 = ending.result := by
  cases hp : asked.prepare s run.state.nextTag with
  | error e =>
    rw [callWith_failed run s asked overlap hp]
    exact ⟨_, _, rfl, rfl⟩
  | ok p =>
    obtain ⟨body, left⟩ := p
    rw [callWith_prepared run s asked overlap hp]
    exact ⟨_, _, finish_history _ s asked _ _, finish_result _ s asked _ _⟩

theorem ask_returns (s : Settings) (asked : Asked) (run : Run) :
    ∃ ending earlier, (ask s asked run).2.history = .ended run.state.nextTag ending :: earlier ∧
      (ask s asked run).1 = ending.result :=
  callWith_returns s (overlapping (call s run.script.length)) asked run

theorem nothing_fresh : Overlap.Fresh fun _ run => run :=
  fun _ run => .refl _ run

theorem overlapping_fresh {call : Asked → Run → Except Failure Value × Run}
    (h : ∀ asked run, Run.Extends run.state.nextTag run (call asked run).2) : (overlapping call).Fresh := by
  intro other run
  obtain ⟨h1, h2⟩ := h other run
  exact ⟨h1, h2⟩

/-- Calls that overlap down to a depth have tags of their own. -/
theorem call_extends (s : Settings) : ∀ (depth : Nat) (asked : Asked) (run : Run),
    Run.Extends run.state.nextTag run (call s depth asked run).2
  | 0, asked, run => callWith_extends run s asked _ nothing_fresh
  | depth + 1, asked, run => callWith_extends run s asked _ (overlapping_fresh (call_extends s depth))

end TorrentRemote.Connection
