import TorrentRemote.Proofs.Connection.Nested

/-!
# Session tokens

A post carries the latest token that a response brought, but for responses that were discarded
because their call had been cancelled: `post_token_kept`. So a token that came with such a response
is missing from the next post (`discarded_token_lost`).
-/

namespace TorrentRemote.Connection

def Post.token? (p : Post) : Option Value :=
  p.headers.lookup tokenHeader

def Event.token? : Event → Option Value
  | .answered _ _ answer _ => answer.token?
  | _ => none

def Event.isDiscarded : Event → Bool
  | .answered _ _ _ discarded => discarded
  | _ => false

/-- The latest token in a history, or the first one that there was. -/
def latestToken (first : Option Value) (history : List Event) : Option Value :=
  (history.findSome? Event.token?).or first

def kept (history : List Event) : List Event :=
  history.filter fun e => !e.isDiscarded

theorem post_token (s : Settings) (st : State) (body : String) : (post s st body).token? = st.token := by
  have h1 : (tokenHeader == "Content-Type") = false := by rfl
  have h2 : (tokenHeader == "User-Agent") = false := by rfl
  unfold Post.token? post headers
  cases st.token <;> simp [List.lookup_cons, h1, h2]

/-! ## The latest token -/

section
variable (first : Option Value) (e : Event) (history : List Event)

theorem latestToken_cons : latestToken first (e :: history) = e.token?.or (latestToken first history) := by
  rw [latestToken, List.findSome?_cons]
  cases e.token? <;> rfl

theorem latestToken_kept_cons : latestToken first (kept (e :: history)) =
    if e.isDiscarded then latestToken first (kept history) else e.token?.or (latestToken first (kept history)) := by
  rw [kept, List.filter_cons]
  cases e.isDiscarded with
  | true => rfl
  | false => exact latestToken_cons first e (kept history)

theorem latestToken_kept_other (h : e.token? = none) :
    latestToken first (kept (e :: history)) = latestToken first (kept history) := by
  rw [latestToken_kept_cons, h]
  cases e.isDiscarded <;> rfl

def latestBringer? (history : List Event) : Option Event :=
  history.find? fun e => e.token?.isSome

theorem latestToken_eq : latestToken first history = ((latestBringer? history).map Event.token?).getD first := by
  induction history with
  | nil => rfl
  | cons e earlier ih =>
    rw [latestToken_cons, latestBringer?, List.find?_cons]
    cases h : e.token? with
    | none => exact ih
    | some token => simp [h]

theorem latestToken_kept_of_none (h : latestBringer? history = none) :
    latestToken first (kept history) = first := by
  induction history with
  | nil => rfl
  | cons e earlier ih =>
    rw [latestBringer?, List.find?_cons] at h
    cases ht : e.token? with
    | none =>
      rw [ht] at h
      rw [latestToken_kept_other first e earlier ht]
      exact ih h
    | some token =>
      rw [ht] at h
      cases h

theorem latestToken_kept_of_some {e : Event} (h : latestBringer? history = some e) (hd : e.isDiscarded = false) :
    latestToken first (kept history) = e.token? := by
  induction history with
  | nil => cases h
  | cons e' earlier ih =>
    rw [latestBringer?, List.find?_cons] at h
    cases ht : e'.token? with
    | none =>
      rw [ht] at h
      rw [latestToken_kept_other first e' earlier ht]
      exact ih h
    | some token =>
      rw [ht] at h
      obtain rfl : e' = e := Option.some.inj h
      rw [latestToken_kept_cons, hd, ht]
      rfl

/-- Leaving out what was discarded makes no difference just if the latest token is not left out, or
is the one from before. -/
theorem latestToken_kept_iff : latestToken first (kept history) = latestToken first history ↔
    ∀ e, latestBringer? history = some e → e.isDiscarded = true → e.token? = latestToken first (kept history) := by
  rw [latestToken_eq first history]
  cases h : latestBringer? history with
  | none => simp [latestToken_kept_of_none first history h]
  | some e =>
    constructor
    · rintro heq e' he' -
      obtain rfl : e = e' := Option.some.inj he'
      exact heq.symm
    · intro heq
      cases hd : e.isDiscarded with
      | false => exact latestToken_kept_of_some first history h hd
      | true => exact (heq e rfl hd).symm

end

/-! ## Traffic -/

/-- The token of a connection is the latest one that was not discarded, and posts went out with the
one of their time. -/
structure TokenKept (first : Option Value) (t : Traffic) : Prop where
  token : t.state.token = latestToken first (kept t.history)
  posts : Chronicle (fun earlier e => ∀ tag p, e = .sent tag p → p.token? = latestToken first (kept earlier)) t.history

section
variable {s : Settings} {first : Option Value} {t t' : Traffic}

theorem TokenKept.see (h : TokenKept first t) {e : Event} (ht : e.token? = none) (hs : ∀ tag p, e ≠ .sent tag p)
    (htoken : t'.state.token = t.state.token) (hh : t'.history = e :: t.history) : TokenKept first t' := by
  refine ⟨?_, ?_⟩
  · rw [htoken, hh, latestToken_kept_other first e t.history ht]
    exact h.token
  · rw [hh]
    exact ⟨fun tag p he => absurd he (hs tag p), h.posts⟩

theorem TokenKept.close (h : TokenKept first t) (tag : Nat) (ending : Ending) :
    TokenKept first (t.close tag ending) :=
  h.see (e := .ended tag ending) rfl (by simp) rfl rfl

theorem TokenKept.takeTag (h : TokenKept first t) (asked : Asked) : TokenKept first (t.takeTag asked) :=
  h.see (e := .entered t.state.nextTag asked) rfl (by simp) rfl rfl

theorem TokenKept.send (h : TokenKept first t) (tag : Nat) (p : Pending) : TokenKept first (t.send s tag p) := by
  refine ⟨?_, ?_, h.posts⟩
  · rw [Traffic.send_state, Traffic.send_history, latestToken_kept_other first _ t.history rfl]
    exact h.token
  · intro tag' sent he
    cases he
    rw [post_token]
    exact h.token

theorem TokenKept.take (h : TokenKept first t) (tag : Nat) (p : Pending) (sent : Post) (a : Answer) :
    TokenKept first (t.take s tag p sent a) := by
  refine ⟨?_, ?_, h.posts⟩
  · rw [Traffic.take_state, receive_state, Traffic.take_history, latestToken_kept_cons, ← h.token]
    rfl
  · intro tag' sent' he
    cases he

theorem TokenKept.put (h : TokenKept first t) (tag : Nat) (p : Option Pending) : TokenKept first (t.put tag p) :=
  ⟨h.token, h.posts⟩

theorem TokenKept.step (h : TokenKept first t) (hstep : Step s t t') : TokenKept first t' := by
  cases hstep with
  | idle => exact h
  | cancelled which => exact ⟨h.token, h.posts⟩
  | refused hp => exact (h.takeTag _).see (e := .ended _ _) rfl (by simp) rfl rfl
  | entered cancelled hp => exact (h.takeTag _).put _ _
  | gaveUp hp hf hc => exact h.close _ _
  | sent hp hf hc => exact h.send _ _
  | failed a e hp hf => exact (h.take _ _ _ a).close _ _
  | repeated hp hf hc hr hl => exact (h.take _ _ _ _).put _ _
  | concluded hp hf hc hl => exact (h.take _ _ _ _).close _ _

end

/-! ## Posts and their tokens -/

/-- Every post carries the latest token that was not discarded. That is the latest token of all just
if this was not discarded itself, or is no other one. -/
theorem post_token_kept {o : Options} {s : Settings} {st : State} {later earlier : List Event} {tag : Nat} {p : Post}
    (ho : start o = .ok (s, st)) (h : Observed s st (later ++ .sent tag p :: earlier)) :
    p.token? = latestToken (nonempty? o.token) (kept earlier) ∧
      (p.token? = latestToken (nonempty? o.token) earlier ↔
        ∀ e, latestBringer? earlier = some e → e.isDiscarded = true → e.token? = p.token?) := by
  obtain ⟨-, -, -, htoken⟩ := start_ok ho
  have hnew : TokenKept st.token (Traffic.new st) := ⟨rfl, trivial⟩
  obtain ⟨t, ht, hh⟩ := observed_invariant h hnew fun h hstep => h.step hstep
  have hposts := ht.posts
  rw [hh, htoken] at hposts
  have hp := hposts.event tag p rfl
  refine ⟨hp, ?_⟩
  rw [hp]
  exact latestToken_kept_iff _ earlier

/-- Two calls, of which the first is cancelled while its post is in flight. The response to it brings
a token. -/
def discardingRun : Run :=
  let exchange : Exchange := ⟨[], [0], fun _ => .response ⟨200, [(tokenHeader, "ABC")], [], .ok ""⟩⟩
  let first := ask twoLogins.settings ⟨"session-get", .null, none, some 0⟩
    ⟨twoLogins.state, [exchange], [], [], [], []⟩
  (ask twoLogins.settings ⟨"session-get", .null, none, none⟩ { first.2 with script := [], cancelled := [] }).2

theorem discardingRun_reached : Reached twoLogins.settings twoLogins.state discardingRun :=
  .ask _ _ _ (.ask _ _ _ (.new [] [] [] []))

/-- The post of the second call in `discardingRun`, which goes out without a token. -/
def tokenlessPost : Post :=
  post twoLogins.settings twoLogins.state "\x7b\"method\": \"session-get\", \"tag\": 2\x7d"

theorem discardingRun_history :
    discardingRun.history = discardingRun.history.take 2 ++ .sent 2 tokenlessPost :: discardingRun.history.drop 3 := by
  rfl

theorem post_token_kept_discarding :
    tokenlessPost.token? = latestToken (nonempty? twoLogins.token) (kept (discardingRun.history.drop 3)) ∧
      (tokenlessPost.token? = latestToken (nonempty? twoLogins.token) (discardingRun.history.drop 3) ↔
        ∀ e, latestBringer? (discardingRun.history.drop 3) = some e → e.isDiscarded = true →
          e.token? = tokenlessPost.token?) :=
  post_token_kept twoLogins_start (.inl ⟨discardingRun, discardingRun_reached, discardingRun_history⟩)

theorem discarded_token_lost : ¬ ∀ (o : Options) (s : Settings) (st : State) (later earlier : List Event) (tag : Nat)
    (p : Post), start o = .ok (s, st) → Observed s st (later ++ .sent tag p :: earlier) →
      p.token? = latestToken (nonempty? o.token) earlier := by
  intro h
  have hlost := h twoLogins _ _ _ _ 2 tokenlessPost twoLogins_start
    (.inl ⟨discardingRun, discardingRun_reached, discardingRun_history⟩)
  have hnone : tokenlessPost.token? = none := by rfl
  have hsome : latestToken (nonempty? twoLogins.token) (discardingRun.history.drop 3) = some (.text "ABC") := by rfl
  rw [hnone, hsome] at hlost
  cases hlost

end TorrentRemote.Connection
