import TorrentRemote.Proofs.Connection.Nested
import TorrentRemote.Proofs.Value.Same

/-!
# Logins

A connection goes over from its first login to the fallback once, when the first one is refused, and
a call tries again after a refusal once at most, however calls overlap: `login_switches_once`.
-/

namespace TorrentRemote.Connection

def Event.switches (s : Settings) : Event → Bool
  | .answered _ p answer discarded => !discarded && answer.isRefusal && s.hasOther p.login
  | _ => false

def switched (s : Settings) (history : List Event) : Bool :=
  history.any (Event.switches s)

def loginAfter (s : Settings) (first : Value) (history : List Event) : Value :=
  if switched s history then s.fallback else first

def Event.isRefused : Event → Bool
  | .answered _ _ answer _ => answer.isRefusal
  | _ => false

def lastRefused (tag : Nat) (history : List Event) : Bool :=
  (history.find? fun e => e.tag = tag).any Event.isRefused

/-- How often a call posted again right after a refusal. -/
def refusalRetries (tag : Nat) : List Event → Nat
  | [] => 0
  | e :: earlier => refusalRetries tag earlier + ((e.sentBy? tag).isSome && lastRefused tag earlier).toNat

/-! ## The fallback -/

section
variable (s : Settings) (st : State) (used : Value) (cancelled : Bool) (a : Answer)

theorem hasOther_fallback : s.hasOther s.fallback = false := by
  rw [Settings.hasOther, Value.same_refl, Bool.not_true, Bool.and_false]

theorem hasOther_of_same {login : Value} (h : login.same s.fallback = true) : s.hasOther login = false := by
  rw [Settings.hasOther, h, Bool.not_true, Bool.and_false]

theorem receive_switches (h : (!cancelled && a.isRefusal && s.hasOther used) = true) :
    s.hasOther (st.receive s used cancelled a).2.1.login = false := by
  rw [receive_state, h, Bool.true_and]
  cases hs : st.login.same s.fallback with
  | true => exact hasOther_of_same s hs
  | false => exact hasOther_fallback s

theorem receive_login_kept (h : (!cancelled && a.isRefusal && s.hasOther used) = false) :
    (st.receive s used cancelled a).2.1.login = st.login := by
  rw [receive_state, h]
  rfl

theorem receive_login_switched (h : (!cancelled && a.isRefusal && s.hasOther used) = true)
    (hl : s.hasOther st.login = true ∨ st.login = s.fallback) :
    (st.receive s used cancelled a).2.1.login = s.fallback := by
  rw [receive_state, h, Bool.true_and]
  rcases hl with hl | hl
  · have hother : st.login.same s.fallback = false := by
      cases hs : st.login.same s.fallback with
      | false => rfl
      | true =>
        rw [hasOther_of_same s hs] at hl
        cases hl
    rw [hother]
    rfl
  · rw [hl]
    exact ite_self _

theorem receive_hasOther (h : s.hasOther st.login = false) :
    s.hasOther (st.receive s used cancelled a).2.1.login = false := by
  rw [receive_state]
  simp only
  split
  · exact hasOther_fallback s
  · exact h

theorem hasOther_of_repeats (hr : s.repeats used a = true) (ha : a.isRefusal = true) : s.hasOther used = true := by
  cases a with
  | response r =>
    have h1 : r.status = 401 := of_decide_eq_true ha
    simpa [Settings.repeats, h1] using hr
  | _ => cases hr

end

/-! ## Logins in traffic -/

/-- The login in use follows from the history, and posts go out with the one of their time. -/
structure LoggedIn (s : Settings) (first : Value) (t : Traffic) : Prop where
  login : t.state.login = loginAfter s first t.history
  inFlight : t.All fun _ p => ∀ sent, p.inFlight = some sent → sent.login = first ∨ sent.login = s.fallback
  posts : Chronicle (fun earlier e => ∀ tag p, e = .sent tag p → p.login = loginAfter s first earlier) t.history

theorem loginAfter_other {s : Settings} {first : Value} {e : Event} {history : List Event}
    (he : e.switches s = false) : loginAfter s first (e :: history) = loginAfter s first history := by
  rw [loginAfter, switched, List.any_cons, he]
  rfl

theorem loginAfter_switching {s : Settings} {first : Value} {e : Event} {history : List Event}
    (he : e.switches s = true) : loginAfter s first (e :: history) = s.fallback := by
  rw [loginAfter, switched, List.any_cons, he]
  rfl

theorem loginAfter_or (s : Settings) (first : Value) (history : List Event) :
    loginAfter s first history = first ∨ loginAfter s first history = s.fallback := by
  unfold loginAfter
  split
  · exact .inr rfl
  · exact .inl rfl

namespace LoggedIn

variable {s : Settings} {first : Value} {t : Traffic} (h : LoggedIn s first t)
include h

theorem put {tag : Nat} {p : Option Pending}
    (hp : ∀ q, p = some q → ∀ sent, q.inFlight = some sent → sent.login = first ∨ sent.login = s.fallback) :
    LoggedIn s first (t.put tag p) :=
  ⟨h.login, h.inFlight.put hp, h.posts⟩

theorem see {t' : Traffic} {e : Event} (hl : t'.state.login = t.state.login) (hp : t'.pending = t.pending)
    (hh : t'.history = e :: t.history) (hn : e.switches s = false) (hs : ∀ tag p, e ≠ .sent tag p) :
    LoggedIn s first t' := by
  refine ⟨?_, ?_, ?_⟩
  · rw [hl, hh, loginAfter_other hn]
    exact h.login
  · intro tag p hq
    rw [hp] at hq
    exact h.inFlight tag p hq
  · rw [hh]
    exact ⟨fun tag p he => absurd he (hs tag p), h.posts⟩

theorem takeTag (asked : Asked) : LoggedIn s first (t.takeTag asked) :=
  h.see (e := .entered t.state.nextTag asked) rfl rfl rfl rfl (by simp)

theorem close (tag : Nat) (ending : Ending) : LoggedIn s first (t.close tag ending) :=
  (h.put (p := none) (by simp)).see (e := .ended tag ending) rfl rfl rfl rfl (by simp)

theorem send (tag : Nat) (p : Pending) : LoggedIn s first (t.send s tag p) := by
  have hpost : (post s t.state p.body).login = loginAfter s first t.history := h.login
  refine ⟨?_, ?_, ?_, h.posts⟩
  · rw [Traffic.send_history, loginAfter_other rfl]
    exact h.login
  · refine Traffic.All.put h.inFlight ?_
    intro q hq sent hf
    cases hq
    cases hf
    rw [hpost]
    exact loginAfter_or s first t.history
  · intro tag' sent he
    cases he
    exact hpost

theorem hasOther_first {tag : Nat} {p : Pending} {sent : Post} (hp : t.pending tag = some p)
    (hf : p.inFlight = some sent) (ho : s.hasOther sent.login = true) : s.hasOther first = true := by
  rcases h.inFlight tag p hp sent hf with hl | hl
  · rw [← hl]
    exact ho
  · rw [hl, hasOther_fallback s] at ho
    cases ho

theorem take {tag : Nat} {p : Pending} {sent : Post} (hp : t.pending tag = some p) (hf : p.inFlight = some sent)
    (a : Answer) : LoggedIn s first (t.take s tag p sent a) := by
  refine ⟨?_, h.inFlight, ?_, h.posts⟩
  · rw [Traffic.take_state, Traffic.take_history]
    cases hs : Event.switches s (.answered tag sent a p.cancelled) with
    | false =>
      rw [loginAfter_other hs, ← h.login]
      exact receive_login_kept s t.state sent.login p.cancelled a hs
    | true =>
      rw [loginAfter_switching hs]
      refine receive_login_switched s t.state sent.login p.cancelled a hs ?_
      rw [h.login]
      rcases loginAfter_or s first t.history with hl | hl
      · rw [Event.switches, Bool.and_eq_true] at hs
        rw [hl]
        exact .inl (h.hasOther_first hp hf hs.2)
      · exact .inr hl
  · intro tag' sent' he
    cases he

theorem step {t' : Traffic} (hstep : Step s t t') : LoggedIn s first t' := by
  cases hstep with
  | idle => exact h
  | cancelled which => exact ⟨h.login, h.inFlight.cancel id which, h.posts⟩
  | refused hp => exact (h.takeTag _).see (e := .ended _ _) rfl rfl rfl rfl (by simp)
  | entered cancelled hp =>
    refine (h.takeTag _).put ?_
    intro q hq sent hf
    cases hq
    cases hf
  | gaveUp hp hf hc => exact h.close _ _
  | sent hp hf hc => exact h.send _ _
  | failed a e hp hf => exact (h.take hp hf a).close _ _
  | repeated hp hf hc hr hl =>
    refine (h.take hp hf _).put ?_
    intro q hq sent hf
    cases hq
    cases hf
  | concluded hp hf hc hl => exact (h.take hp hf _).close _ _

end LoggedIn

/-! ## Retries after refusals -/

def Traffic.retryDue (t : Traffic) (tag : Nat) : Bool :=
  (t.pending tag).any (·.inFlight.isNone) && lastRefused tag t.history

def Traffic.refusals (t : Traffic) (tag : Nat) : Nat :=
  refusalRetries tag t.history + (t.retryDue tag).toNat

theorem lastRefused_cons (tag : Nat) (e : Event) (history : List Event) :
    lastRefused tag (e :: history) = if e.tag = tag then e.isRefused else lastRefused tag history := by
  rw [lastRefused, List.find?_cons]
  by_cases h : e.tag = tag
  · simp [h]
  · simp [h, lastRefused]

theorem sentBy_other {tag : Nat} {e : Event} (h : e.tag ≠ tag) : e.sentBy? tag = none := by
  cases e with
  | sent t p => exact if_neg h
  | _ => rfl

theorem refusals_other {t t' : Traffic} {e : Event} {tag : Nat} (hp : t'.pending tag = t.pending tag)
    (hh : t'.history = e :: t.history) (he : e.tag ≠ tag) : t'.refusals tag = t.refusals tag := by
  rw [Traffic.refusals, Traffic.refusals, Traffic.retryDue, Traffic.retryDue, hp, hh, lastRefused_cons, if_neg he,
    refusalRetries, sentBy_other he]
  rfl

/-- A call has a budget of one retry after a refusal, if there is a fallback to be had, and once that is
spent it is refused no more. -/
structure Thrifty (s : Settings) (first : Value) (t : Traffic) : Prop where
  le : ∀ tag, t.refusals tag ≤ (s.hasOther first).toNat
  spent : ∀ tag, 0 < t.refusals tag → s.hasOther t.state.login = false ∧
    ∀ p sent, t.pending tag = some p → p.inFlight = some sent → s.hasOther sent.login = false

namespace Thrifty

variable {s : Settings} {first : Value} {t t' : Traffic} (h : Thrifty s first t)
include h

theorem mono (hr : ∀ tag, t'.refusals tag ≤ t.refusals tag)
    (hl : s.hasOther t.state.login = false → s.hasOther t'.state.login = false)
    (hf : ∀ tag p sent, t'.pending tag = some p → p.inFlight = some sent →
      (∃ q, t.pending tag = some q ∧ q.inFlight = some sent) ∨ sent.login = t.state.login) :
    Thrifty s first t' := by
  refine ⟨fun tag => Nat.le_trans (hr tag) (h.le tag), ?_⟩
  intro tag hpos
  obtain ⟨hstate, hflight⟩ := h.spent tag (Nat.lt_of_lt_of_le hpos (hr tag))
  refine ⟨hl hstate, ?_⟩
  intro p sent hp hs
  rcases hf tag p sent hp hs with ⟨q, hq, hqs⟩ | hlogin
  · exact hflight q sent hq hqs
  · rw [hlogin]
    exact hstate

theorem see {e : Event} (ht : t'.state.login = t.state.login) (hp : t'.pending = t.pending)
    (hh : t'.history = e :: t.history) (hs : e.sentBy? e.tag = none) (hn : e.isRefused = false) :
    Thrifty s first t' := by
  refine h.mono ?_ (by rw [ht]; exact id) fun tag p sent hq hf => .inl ⟨p, by rw [← hp]; exact hq, hf⟩
  intro tag
  by_cases he : e.tag = tag
  · subst he
    rw [Traffic.refusals, Traffic.refusals, Traffic.retryDue, hh, lastRefused_cons, if_pos rfl, hn, refusalRetries, hs]
    simp
  · exact Nat.le_of_eq (refusals_other (by rw [hp]) hh he)

theorem put (tag : Nat) {p : Option Pending}
    (hn : ∀ q ∈ p, q.inFlight = none → lastRefused tag t.history = false)
    (hf : ∀ q ∈ p, ∀ sent, q.inFlight = some sent → ∃ q', t.pending tag = some q' ∧ q'.inFlight = some sent) :
    Thrifty s first (t.put tag p) := by
  refine h.mono ?_ id ?_
  · intro other
    by_cases ho : other = tag
    · subst ho
      have hdue : (t.put other p).retryDue other = false := by
        rw [Traffic.retryDue, Traffic.pending_put_self]
        cases p with
        | none => rfl
        | some q =>
          cases hq : q.inFlight with
          | none => rw [Traffic.put_history, hn q rfl hq, Bool.and_false]
          | some sent => simp [hq]
      rw [Traffic.refusals, hdue]
      exact Nat.le_add_right _ _
    · rw [Traffic.refusals, Traffic.refusals, Traffic.retryDue, Traffic.pending_put_other t p ho]
      exact Nat.le_refl _
  · intro other q sent hq hs
    by_cases ho : other = tag
    · subst ho
      rw [Traffic.pending_put_self] at hq
      exact .inl (hf q hq sent hs)
    · rw [Traffic.pending_put_other t p ho] at hq
      exact .inl ⟨q, hq, hs⟩

theorem takeTag (asked : Asked) : Thrifty s first (t.takeTag asked) :=
  h.see (e := .entered t.state.nextTag asked) rfl rfl rfl rfl rfl

theorem close (tag : Nat) (ending : Ending) : Thrifty s first (t.close tag ending) :=
  (h.put tag (p := none) (by simp) (by simp)).see (e := .ended tag ending) rfl rfl rfl rfl rfl

theorem cancel (which : Nat → Bool) : Thrifty s first (t.cancel which) := by
  have hsame : ∀ {tag p}, (t.cancel which).pending tag = some p →
      ∃ q, t.pending tag = some q ∧ q.inFlight = p.inFlight := by
    intro tag p hp
    obtain ⟨q, hq, hpq⟩ := Option.map_eq_some_iff.mp hp
    refine ⟨q, hq, ?_⟩
    rw [← hpq]
    split <;> rfl
  refine h.mono ?_ id ?_
  · intro tag
    have hdue : (t.cancel which).retryDue tag = t.retryDue tag := by
      rw [Traffic.retryDue, Traffic.retryDue, Traffic.cancel_history]
      congr 1
      cases hp : (t.cancel which).pending tag with
      | none => rw [Option.map_eq_none_iff.mp hp]
      | some p =>
        obtain ⟨q, hq, hf⟩ := hsame hp
        rw [hq]
        exact (congrArg Option.isNone hf).symm
    exact Nat.le_of_eq (by rw [Traffic.refusals, Traffic.refusals, hdue, Traffic.cancel_history])
  · intro tag p sent hp hf
    obtain ⟨q, hq, hqf⟩ := hsame hp
    exact .inl ⟨q, hq, hqf.trans hf⟩

theorem send {tag : Nat} {p : Pending} (hp : t.pending tag = some p) (hn : p.inFlight = none) :
    Thrifty s first (t.send s tag p) := by
  refine h.mono ?_ id ?_
  · intro other
    by_cases ho : other = tag
    · subst ho
      have hbefore : t.retryDue other = lastRefused other t.history := by
        simp [Traffic.retryDue, hp, hn]
      have hafter : (t.send s other p).retryDue other = false := by
        simp [Traffic.retryDue, Traffic.send]
      rw [Traffic.refusals, Traffic.refusals, hafter, hbefore, Traffic.send_history, refusalRetries]
      simp [Event.sentBy?]
    · exact Nat.le_of_eq (refusals_other (Traffic.pending_put_other t _ ho) rfl (Ne.symm ho))
  · intro other q sent hq hf
    by_cases ho : other = tag
    · subst ho
      have hq' : some { p with inFlight := some (post s t.state p.body) } = some q :=
        (Traffic.pending_put_self t other _).symm.trans hq
      cases hq'
      cases hf
      exact .inr rfl
    · have hq' : t.pending other = some q := (Traffic.pending_put_other t _ ho).symm.trans hq
      exact .inl ⟨q, hq', hf⟩

theorem take {tag : Nat} {p : Pending} {sent : Post} (hp : t.pending tag = some p) (hf : p.inFlight = some sent)
    (a : Answer) : Thrifty s first (t.take s tag p sent a) := by
  refine h.mono ?_ (receive_hasOther s t.state sent.login p.cancelled a) fun other q sent hq hs => .inl ⟨q, hq, hs⟩
  intro other
  by_cases ho : other = tag
  · subst ho
    have hafter : (t.take s other p sent a).retryDue other = false := by
      simp [Traffic.retryDue, hp, hf]
    rw [Traffic.refusals, Traffic.refusals, hafter, Traffic.take_history, refusalRetries]
    simp [Event.sentBy?]
  · exact Nat.le_of_eq (refusals_other rfl (Traffic.take_history ..) (Ne.symm ho))

/-- A call whose post has another login than the fallback has its budget still. -/
theorem unspent {tag : Nat} {p : Pending} {sent : Post} (hp : t.pending tag = some p) (hf : p.inFlight = some sent)
    (ho : s.hasOther sent.login = true) : t.refusals tag = 0 := by
  rcases Nat.eq_zero_or_pos (t.refusals tag) with hz | hpos
  · exact hz
  · have hno := (h.spent tag hpos).2 p sent hp hf
    rw [ho] at hno
    cases hno

theorem refused {tag left : Nat} {p : Pending} {sent : Post} {a : Answer} (hl : LoggedIn s first t)
    (hp : t.pending tag = some p) (hf : p.inFlight = some sent) (hc : p.cancelled = false)
    (ha : a.isRefusal = true) (ho : s.hasOther sent.login = true) :
    Thrifty s first ((t.take s tag p sent a).put tag (some { p with left, inFlight := none })) := by
  have htake := h.take hp hf a
  have hretries : refusalRetries tag (t.take s tag p sent a).history = 0 := by
    have hzero := h.unspent hp hf ho
    rw [Traffic.refusals] at hzero
    rw [Traffic.take_history, refusalRetries]
    simp only [Event.sentBy?, Option.isSome_none, Bool.false_and, Bool.toNat_false]
    omega
  have hstate : s.hasOther (t.take s tag p sent a).state.login = false := by
    refine receive_switches s t.state sent.login p.cancelled a ?_
    rw [hc, ha, ho]
    rfl
  refine ⟨?_, ?_⟩
  · intro other
    by_cases hn : other = tag
    · subst hn
      rw [Traffic.refusals, Traffic.put_history, hretries, hl.hasOther_first hp hf ho, Nat.zero_add]
      exact Bool.toNat_le _
    · refine Nat.le_trans (Nat.le_of_eq ?_) (htake.le other)
      rw [Traffic.refusals, Traffic.refusals, Traffic.retryDue, Traffic.retryDue, Traffic.put_history,
        Traffic.pending_put_other _ _ hn]
  · intro other hpos
    refine ⟨hstate, ?_⟩
    intro q sent' hq hs
    by_cases hn : other = tag
    · subst hn
      rw [Traffic.pending_put_self] at hq
      cases hq
      cases hs
    · rw [Traffic.refusals, Traffic.retryDue, Traffic.put_history, Traffic.pending_put_other _ _ hn] at hpos
      rw [Traffic.pending_put_other _ _ hn] at hq
      exact (htake.spent other hpos).2 q sent' hq hs

theorem repeated {tag left : Nat} {p : Pending} {sent : Post} {a : Answer} (hl : LoggedIn s first t)
    (hp : t.pending tag = some p) (hf : p.inFlight = some sent) (hc : p.cancelled = false)
    (hr : s.repeats sent.login a = true) :
    Thrifty s first ((t.take s tag p sent a).put tag (some { p with left, inFlight := none })) := by
  cases ha : a.isRefusal with
  | true => exact h.refused hl hp hf hc ha (hasOther_of_repeats s sent.login a hr ha)
  | false =>
    -- the token was missing, which is no matter of logins
    have hlast : lastRefused tag (t.take s tag p sent a).history = a.isRefusal := by
      rw [Traffic.take_history, lastRefused_cons]
      exact if_pos rfl
    refine (h.take hp hf a).put tag (fun _ _ _ => hlast.trans ha) ?_
    intro q hq sent' hs
    cases hq
    cases hs

theorem step (hl : LoggedIn s first t) (hstep : Step s t t') : Thrifty s first t' := by
  cases hstep with
  | idle => exact h
  | cancelled which => exact h.cancel which
  | refused hp => exact (h.takeTag _).see (e := .ended _ _) rfl rfl rfl rfl rfl
  | @entered asked body left cancelled hp =>
    refine (h.takeTag asked).put _ ?_ ?_
    · intro _ _ _
      rw [Traffic.takeTag_history, lastRefused_cons]
      exact if_pos rfl
    · intro q hq sent hf
      cases hq
      cases hf
  | gaveUp hp hf hc => exact h.close _ _
  | sent hp hf hc => exact h.send hp hf
  | failed a e hp hf => exact (h.take hp hf a).close _ _
  | repeated hp hf hc hr _ => exact h.repeated hl hp hf hc hr
  | concluded hp hf hc _ => exact (h.take hp hf _).close _ _

end Thrifty

/-! ## One switch -/

/-- What can be seen of the logins on a connection that began with a first one. -/
structure OneSwitch (s : Settings) (first : Value) (history : List Event) : Prop where
  /-- The posts have the first login up to some point, and the fallback from there on. -/
  order : ∃ before after, history.reverse.filterMap Event.post? = before ++ after ∧
    (∀ p ∈ before, p.login = first) ∧ ∀ p ∈ after, p.login = s.fallback
  /-- The point is the first refusal that counts. -/
  point : ∀ later tag p earlier, history = later ++ .sent tag p :: earlier →
    p.login = if earlier.any (Event.switches s) then s.fallback else first
  once : ∀ tag, refusalRetries tag history ≤ 1
  never : s.fallback.isNull = true ∨ first.same s.fallback = true → ∀ tag, refusalRetries tag history = 0

theorem logins_ordered {s : Settings} {first : Value} : ∀ {history : List Event},
    Chronicle (fun earlier e => ∀ tag p, e = .sent tag p → p.login = loginAfter s first earlier) history →
      ∃ before after, history.reverse.filterMap Event.post? = before ++ after ∧
        (∀ p ∈ before, p.login = first) ∧ (∀ p ∈ after, p.login = s.fallback) ∧
          (switched s history = false → after = [])
  | [], _ => ⟨[], [], rfl, by simp, by simp, fun _ => rfl⟩
  | e :: earlier, h => by
    obtain ⟨before, after, hsplit, hbefore, hafter, hnone⟩ := logins_ordered h.2
    rw [List.reverse_cons, List.filterMap_append, hsplit]
    have hswitched : switched s (e :: earlier) = false → switched s earlier = false := by
      intro hs
      rw [switched, List.any_cons, Bool.or_eq_false_iff] at hs
      exact hs.2
    cases hp : e.post? with
    | none =>
      refine ⟨before, after, by simp [hp], hbefore, hafter, fun hs => hnone (hswitched hs)⟩
    | some p =>
      obtain ⟨tag, rfl⟩ : ∃ tag, e = .sent tag p := by
        cases e with
        | sent tag p' => cases hp; exact ⟨tag, rfl⟩
        | _ => cases hp
      have hlogin := h.1 tag p rfl
      rw [loginAfter] at hlogin
      split at hlogin
      · next hs =>
        refine ⟨before, after ++ [p], by simp [Event.post?], hbefore, ?_, fun h' => ?_⟩
        · intro q hq
          rcases List.mem_append.mp hq with hq | hq
          · exact hafter q hq
          · rw [List.mem_singleton.mp hq]
            exact hlogin
        · rw [hswitched h'] at hs
          cases hs
      · next hs =>
        obtain rfl := hnone (Bool.eq_false_iff.mpr hs)
        refine ⟨before ++ [p], [], by simp [Event.post?], ?_, by simp, fun _ => rfl⟩
        intro q hq
        rcases List.mem_append.mp hq with hq | hq
        · exact hbefore q hq
        · rw [List.mem_singleton.mp hq]
          exact hlogin

theorem login_switches_once {s : Settings} {st : State} {history : List Event} (h : Observed s st history) :
    OneSwitch s st.login history := by
  have hlogin : LoggedIn s st.login (Traffic.new st) := by
    refine ⟨rfl, ?_, trivial⟩
    intro tag p hp
    cases hp
  have hthrifty : Thrifty s st.login (Traffic.new st) := by
    refine ⟨fun _ => Nat.zero_le _, ?_⟩
    intro tag hpos
    cases hpos
  obtain ⟨t, ⟨hl, ht⟩, rfl⟩ := observed_invariant (P := fun t => LoggedIn s st.login t ∧ Thrifty s st.login t) h
    ⟨hlogin, hthrifty⟩ fun h hstep => ⟨h.1.step hstep, h.2.step h.1 hstep⟩
  have hle : ∀ tag, refusalRetries tag t.history ≤ (s.hasOther st.login).toNat := fun tag =>
    Nat.le_trans (Nat.le_add_right _ _) (ht.le tag)
  refine ⟨?_, ?_, ?_, ?_⟩
  · obtain ⟨before, after, hsplit, hbefore, hafter, -⟩ := logins_ordered hl.posts
    exact ⟨before, after, hsplit, hbefore, hafter⟩
  · intro later tag p earlier hh
    have hposts := hl.posts
    rw [hh] at hposts
    exact hposts.event tag p rfl
  · intro tag
    exact Nat.le_trans (hle tag) (Bool.toNat_le _)
  · intro hnone tag
    have hother : s.hasOther st.login = false := by
      rcases hnone with hnull | hsame
      · rw [Settings.hasOther, hnull]
        rfl
      · exact hasOther_of_same s hsame
    have := hle tag
    rw [hother] at this
    exact Nat.le_zero.mp this

def refusedRun : Run :=
  let refusal : Answer := .response ⟨401, [], [], .ok ""⟩
  (ask twoLogins.settings ⟨"session-get", .null, none, none⟩
    ⟨twoLogins.state, [⟨[⟨"session-stats", .null, none, none⟩], [], fun _ => refusal⟩, ⟨[], [], fun _ => refusal⟩],
      [], [], [], []⟩).2

theorem login_switches_once_refused :
    refusedRun.posts.map Post.login =
      [twoLogins.state.login, twoLogins.state.login, twoLogins.fallback, twoLogins.fallback] ∧
      OneSwitch twoLogins.settings twoLogins.state.login refusedRun.history :=
  ⟨rfl, login_switches_once (.inl ⟨refusedRun, .ask _ _ _ (.new [] [] [] []), rfl⟩)⟩

end TorrentRemote.Connection
