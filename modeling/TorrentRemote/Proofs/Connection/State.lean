import TorrentRemote.Connection.Run

/-!
# What an answer does to a connection

An answer that is not discarded can bring a token and can have the login switched to the fallback,
and it says whether the call tries again. Nothing else of the state changes.
-/

namespace TorrentRemote.Connection

def Answer.token? : Answer → Option Value
  | .response r => r.token?.map .text
  | _ => none

def Answer.isRefusal : Answer → Bool
  | .response r => r.status = 401
  | _ => false

/-- Whether there is a fallback that a login differs from. -/
def Settings.hasOther (s : Settings) (used : Value) : Bool :=
  !s.fallback.isNull && !used.same s.fallback

/-- Whether an answer to a post with a login lets the call try again: the token was missing, or the
login was refused and the fallback is another one. -/
def Settings.repeats (s : Settings) (used : Value) : Answer → Bool
  | .response r => r.status = 409 || (r.status = 401 && s.hasOther used)
  | _ => false

section
variable (s : Settings) (st : State) (used : Value) (r : HttpResponse)

theorem learnToken_state : (st.learnToken r).1 = { st with token := (r.token?.map .text).or st.token } := by
  unfold State.learnToken
  cases r.token? <;> simp

theorem switchLogin_fst : (st.switchLogin s used).1 = s.hasOther used := by
  unfold State.switchLogin Settings.hasOther
  cases s.fallback.isNull <;> cases used.same s.fallback <;> cases st.login.same s.fallback <;> simp

theorem switchLogin_state : (st.switchLogin s used).2.1 =
    { st with login := if s.hasOther used && !st.login.same s.fallback then s.fallback else st.login } := by
  unfold State.switchLogin Settings.hasOther
  cases s.fallback.isNull <;> cases used.same s.fallback <;> cases st.login.same s.fallback <;> simp

theorem react_fst : (st.react s used r).1 = s.repeats used (.response r) := by
  unfold State.react Settings.repeats
  by_cases h9 : r.status = 409
  · simp [h9]
  · by_cases h1 : r.status = 401
    · simp [h1, switchLogin_fst]
    · simp [h9, h1]

theorem react_state : (st.react s used r).2.1 =
    { lastTag := st.lastTag
      token := (r.token?.map .text).or st.token
      login := if r.status = 401 && s.hasOther used && !st.login.same s.fallback then s.fallback
        else st.login } := by
  unfold State.react
  by_cases h9 : r.status = 409
  · simp [h9, learnToken_state]
  · by_cases h1 : r.status = 401
    · simp [h1, learnToken_state, switchLogin_state]
    · simp [h9, h1, learnToken_state]

end

section
variable (s : Settings) (st : State) (used : Value) (cancelled : Bool) (a : Answer)

/-- A call goes on only after a response that it takes notice of. -/
theorem receive_answered {r : HttpResponse} {again : Bool}
    (h : (st.receive s used cancelled a).1 = .answered r again) :
    a = .response r ∧ cancelled = false ∧ again = s.repeats used a := by
  cases a with
  | networkFailure m => simp [State.receive] at h
  | broken f => simp [State.receive] at h
  | response r' =>
    cases cancelled with
    | true => simp [State.receive] at h
    | false =>
      simp only [State.receive, Bool.false_eq_true, ite_false, Attempt.answered.injEq] at h
      obtain ⟨rfl, rfl⟩ := h
      exact ⟨rfl, rfl, react_fst s st used r'⟩

theorem receive_state : (st.receive s used cancelled a).2.1 =
    { lastTag := st.lastTag
      token := if cancelled then st.token else a.token?.or st.token
      login := if !cancelled && a.isRefusal && s.hasOther used && !st.login.same s.fallback then s.fallback
        else st.login } := by
  cases a with
  | networkFailure m => cases cancelled <;> simp [State.receive, Answer.token?, Answer.isRefusal]
  | broken f => cases cancelled <;> simp [State.receive, Answer.token?, Answer.isRefusal]
  | response r =>
    cases cancelled with
    | true => simp [State.receive]
    | false => simp [State.receive, react_state, Answer.token?, Answer.isRefusal]

end

/-! ## Events -/

section
variable {asked : Asked} {events : List Nat}

theorem isCancelled_append (asked : Asked) (events more : List Nat) :
    asked.isCancelled (events ++ more) = (asked.isCancelled events || asked.isCancelled more) := by
  unfold Asked.isCancelled
  cases asked.cancel <;> simp

theorem cancellable_of_isCancelled (h : asked.isCancelled events = true) : asked.cancellable = true := by
  unfold Asked.cancellable
  cases hc : asked.cancel with
  | none => simp [Asked.isCancelled, hc] at h
  | some event => rfl

theorem isCancelled_eq_false (h : asked.cancellable = false) : asked.isCancelled events = false := by
  cases hc : asked.isCancelled events with
  | false => rfl
  | true =>
    rw [cancellable_of_isCancelled hc] at h
    cases h

theorem cancellable_and_isCancelled : (asked.cancellable && asked.isCancelled events) = asked.isCancelled events := by
  cases h : asked.isCancelled events with
  | false => exact Bool.and_false _
  | true =>
    rw [cancellable_of_isCancelled h]
    rfl

end

/-! ## Setting up -/

theorem start_ok {o : Options} {s : Settings} {st : State} (h : start o = .ok (s, st)) :
    s.timeout = o.timeout ∧ s.fallback = o.fallback ∧ st.lastTag = 0 ∧ st.token = nonempty? o.token := by
  unfold start at h
  cases hr : checkRetries o.retries with
  | error e =>
    rw [hr] at h
    cases h
  | ok _ =>
    rw [hr] at h
    cases he : Endpoint.resolve o.url o.host with
    | error e =>
      rw [he] at h
      cases h
    | ok endpoint =>
      rw [he] at h
      cases h
      exact ⟨rfl, rfl, rfl, rfl⟩

/-! ## A connection to try things on -/

def twoLogins : Options where
  host := .text "localhost"
  username := .text "ann"
  password := .text "first"
  retries := .int 2
  fallback := .tuple [.text "ann", .text "second"]

def twoLogins.settings : Settings where
  url := .text "http://localhost/transmission/rpc/"
  retries := .int 2
  timeout := .int defaultTimeout
  agent := .text defaultAgent
  fallback := .tuple [.text "ann", .text "second"]
  logsBodies := false

def twoLogins.state : State where
  lastTag := 0
  token := none
  login := .tuple [.text "ann", .text "first"]

def oneAndHalf : Binary64 := Binary64.ofRank false 0x3FF8000000000000

def fractionalSettings : Settings :=
  { twoLogins.settings with retries := .float oneAndHalf }

def loggingSettings : Settings :=
  { twoLogins.settings with fallback := .null, logsBodies := true }

def plainCall : Asked := ⟨"session-get", .null, none, none⟩

theorem twoLogins_start : start twoLogins = .ok (twoLogins.settings, twoLogins.state) := by rfl

end TorrentRemote.Connection
