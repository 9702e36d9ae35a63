import TorrentRemote.Proofs.Connection.Landings
import TorrentRemote.Proofs.Connection.Nested
import TorrentRemote.Proofs.Connection.Rounds

/-!
# Calls that others overlap

Without a fallback login, other calls on a connection show in a call in nothing but the token of its
posts after the first. What a call sends and how it ends follows from the answers that its own posts
get: `overlap_shows_in_tokens`.
-/

namespace TorrentRemote.Connection

def Post.withoutToken (p : Post) : Post :=
  { p with headers := p.headers.filter fun h => h.1 ≠ tokenHeader }

theorem post_withoutToken (s : Settings) (st : State) (body : String) : (post s st body).withoutToken =
    ⟨s.url, body, [("Content-Type", .text "application/json"), ("User-Agent", s.agent)], st.login, s.timeout⟩ := by
  unfold Post.withoutToken post headers
  cases st.token <;> simp [tokenHeader]

/-! ## The login -/

section
variable {s : Settings} (hs : s.fallback.isNull = true)
include hs

theorem receive_login (st : State) (used : Value) (cancelled : Bool) (a : Answer) :
    (st.receive s used cancelled a).2.1.login = st.login := by
  rw [receive_state, Settings.hasOther, hs]
  simp

theorem step_login {t t' : Traffic} (hstep : Step s t t') : t'.state.login = t.state.login := by
  cases hstep with
  | failed a e hp hf => exact receive_login hs ..
  | repeated hp hf hc hr hl => exact receive_login hs ..
  | concluded hp hf hc hl => exact receive_login hs ..
  | _ => rfl

/-- Without a fallback a call leaves the login as it is, and so do the calls that overlap it. -/
theorem call_login (depth : Nat) (asked : Asked) (run : Run) :
    (call s depth asked run).2.state.login = run.state.login := by
  obtain ⟨moves, hm⟩ := call_traced s depth asked run (fun _ => none) fun _ _ => rfl
  have h : ((run.traffic fun _ => none).after s moves).state.login = run.state.login :=
    Traffic.after_of_step (P := fun t => t.state.login = run.state.login)
      (fun h hstep => (step_login hs hstep).trans h) moves rfl
  rw [hm] at h
  exact h

end

/-- Overlapping calls that leave the login as it is. -/
def Overlap.KeepsLogin (overlap : Overlap) : Prop :=
  ∀ other run, (overlap other run).state.login = run.state.login

theorem overlapping_keepsLogin {s : Settings} (hs : s.fallback.isNull = true) (depth : Nat) :
    (overlapping (call s depth)).KeepsLogin :=
  call_login hs depth

theorem Overlap.KeepsLogin.fold {overlap : Overlap} (hk : overlap.KeepsLogin) :
    ∀ (others : List Asked) (run : Run),
      (others.foldl (fun run other => overlap other run) run).state.login = run.state.login
  | [], _ => rfl
  | other :: others, run => (hk.fold others (overlap other run)).trans (hk other run)

section
variable {s : Settings} {overlap : Overlap} (call : Call) (hs : s.fallback.isNull = true) (hk : overlap.KeepsLogin)
include hs hk

theorem taken_login (run : Run) (number : Nat) :
    ((run.landing s overlap call number).taken s call).state.login = run.state.login := by
  have hflown : (run.flown s call number overlap).state.login = run.state.login := by
    refine (hk.fold _ (run.send s call number).next.2).trans ?_
    rw [next_state, send_state]
  rw [Landing.taken, receive_run, receive_login hs]
  exact hflown

/-- All posts of a call are the same but for their tokens. -/
theorem landings_posts (left number : Nat) (run : Run) :
    ∀ l ∈ landings s overlap call left number run, l.post.withoutToken = (post s run.state call.body).withoutToken := by
  induction left, number, run using attempts_induct s overlap call with
  | cancelled left number run h =>
    rw [landings_cancelled s overlap call left number run h]
    simp
  | ended left number run h hl =>
    rw [landings_ended s overlap call h hl]
    intro l hl
    rw [List.mem_singleton.mp hl]
    rfl
  | resumed left number run h hr ih =>
    rw [landings_resumed s overlap call h hr]
    intro l hl
    rcases List.mem_cons.mp hl with rfl | hl
    · rfl
    · rw [ih l hl, post_withoutToken, post_withoutToken, taken_login call hs hk]

end

theorem landings_head {s : Settings} {overlap : Overlap} {call : Call} {left number : Nat} {run : Run}
    (h : call.isCancelled run = false) :
    (landings s overlap call left number run).head? = some (run.landing s overlap call number) := by
  rw [landings, h]
  cases left with
  | zero => rfl
  | succ left =>
    simp only [Bool.false_eq_true, if_false]
    split <;> rfl

/-! ## Two runs -/

/-- Answers that are the same as far as both go, also in whether they find the call cancelled. -/
def SameAnswers (asked : Asked) (ls ls' : List Landing) : Prop :=
  ∀ (i : Nat) (l l' : Landing), ls[i]? = some l → ls'[i]? = some l' → l.answer = l'.answer ∧
    asked.isCancelled l.run.cancelled = asked.isCancelled l'.run.cancelled

section
variable {s : Settings} {call : Call} {left : Nat} {earlier earlier' : List Landing} {last last' : Landing}

theorem Landed.length_le_length (h : Landed s call left earlier last) (h' : Landed s call left earlier' last')
    (hsame : ∀ (i : Nat) (l l' : Landing), (earlier ++ [last])[i]? = some l → (earlier' ++ [last'])[i]? = some l' →
      l.resumes s call = l'.resumes s call) : earlier.length ≤ earlier'.length := by
  refine Nat.le_of_not_lt fun hlt => ?_
  -- the answer that the other call ends with would be one after which this call goes on
  have hl : (earlier ++ [last])[earlier'.length]? = some earlier[earlier'.length] := by
    rw [List.getElem?_append_left hlt, List.getElem?_eq_getElem hlt]
  have hl' : (earlier' ++ [last'])[earlier'.length]? = some last' := List.getElem?_concat_length
  have hresumes := (hsame _ _ _ hl hl').symm.trans (h.resumed _ (List.getElem_mem hlt))
  have := h'.used_up hresumes
  have := h.length_le
  omega

theorem Landed.length_eq (h : Landed s call left earlier last) (h' : Landed s call left earlier' last')
    (hsame : ∀ (i : Nat) (l l' : Landing), (earlier ++ [last])[i]? = some l → (earlier' ++ [last'])[i]? = some l' →
      l.resumes s call = l'.resumes s call) : earlier.length = earlier'.length :=
  Nat.le_antisymm (h.length_le_length h' hsame)
    (h'.length_le_length h fun i l l' hl hl' => (hsame i l' l hl' hl).symm)

end

/-- Two runs in which a call does the same but for the tokens of its posts after the first. -/
structure Alike (s : Settings) (asked : Asked) (run run' : Run) : Prop where
  posts : (asked.posts s run).map Post.withoutToken = (asked.posts s run').map Post.withoutToken
  first : (asked.posts s run).head? = (asked.posts s run').head?
  result : (ask s asked run).1 = (ask s asked run').1
  login : (ask s asked run).2.state.login = (ask s asked run').2.state.login

section
variable {s : Settings} (hs : s.fallback.isNull = true) {asked : Asked} {run run' : Run}
include hs

theorem ask_login (asked : Asked) (run : Run) : (ask s asked run).2.state.login = run.state.login :=
  call_login hs _ asked run

omit hs in
theorem callOf_congr (hst : run'.state = run.state) (body : String) :
    run'.callOf asked body = run.callOf asked body := by
  rw [Run.callOf, Run.callOf, hst]

omit hs in
theorem start_state_congr (hst : run'.state = run.state) : (run'.start s asked).state = (run.start s asked).state := by
  rw [start_state, start_state, hst]

theorem posts_withoutToken {body : String} {left : Nat} (hp : asked.prepare s run.state.nextTag = .ok (body, left)) :
    (asked.posts s run).map Post.withoutToken =
      List.replicate (asked.landings s run).length (post s (run.start s asked).state body).withoutToken := by
  rw [asked_posts, List.map_map, List.eq_replicate_iff, List.length_map]
  refine ⟨rfl, ?_⟩
  intro p hm
  obtain ⟨l, hl, rfl⟩ := List.mem_map.mp hm
  rw [asked_landings_prepared hp] at hl
  exact landings_posts (run.callOf asked body) hs (overlapping_keepsLogin hs _) left 1 _ l hl

theorem landing_login {body : String} {left : Nat} (hp : asked.prepare s run.state.nextTag = .ok (body, left))
    {l : Landing} (hl : l ∈ asked.landings s run) : l.post.login = run.state.login := by
  rw [asked_landings_prepared hp] at hl
  have h := landings_posts (run.callOf asked body) hs (overlapping_keepsLogin hs _) left 1 _ l hl
  have hlogin : l.post.withoutToken.login = (run.start s asked).state.login := by
    rw [h]
    rfl
  rw [start_state] at hlogin
  exact hlogin

omit hs in
theorem posts_head {body : String} {left : Nat} (hp : asked.prepare s run.state.nextTag = .ok (body, left))
    (h : asked.isCancelled run.cancelled = false) :
    (asked.posts s run).head? = some (post s (run.start s asked).state body) := by
  have hc : (run.callOf asked body).isCancelled (run.start s asked) = false := by
    rw [callOf_isCancelled, start_cancelled, h]
  rw [asked_posts, asked_landings_prepared hp, List.head?_map, landings_head hc]
  rfl

theorem alike_of_answers (hst : run'.state = run.state)
    (hc : asked.isCancelled run'.cancelled = asked.isCancelled run.cancelled)
    (ha : SameAnswers asked (asked.landings s run) (asked.landings s run')) : Alike s asked run run' := by
  have hlogin : (ask s asked run).2.state.login = (ask s asked run').2.state.login := by
    rw [ask_login hs, ask_login hs, hst]
  cases hp : asked.prepare s run.state.nextTag with
  | error e =>
    have hp' : asked.prepare s run'.state.nextTag = .error e := by rw [hst, hp]
    refine ⟨?_, ?_, ?_, hlogin⟩
    · rw [asked_posts, asked_posts, landings_refused hp, landings_refused hp']
    · rw [asked_posts, asked_posts, landings_refused hp, landings_refused hp']
    · rw [ask_refused hp, ask_refused hp']
      rfl
  | ok p =>
    obtain ⟨body, left⟩ := p
    have hp' : asked.prepare s run'.state.nextTag = .ok (body, left) := by rw [hst, hp]
    cases hx : asked.isCancelled run.cancelled with
    | true =>
      obtain ⟨hlandings, hask⟩ := ask_cancelled hp hx
      obtain ⟨hlandings', hask'⟩ := ask_cancelled hp' (by rw [hc, hx])
      refine ⟨?_, ?_, ?_, hlogin⟩
      · rw [asked_posts, asked_posts, hlandings, hlandings']
      · rw [asked_posts, asked_posts, hlandings, hlandings']
      · rw [hask, hask']
        rfl
    | false =>
      obtain ⟨earlier, last, hlandings, hlanded, hask⟩ := ask_landings hp hx
      obtain ⟨earlier', last', hlandings', hlanded', hask'⟩ := ask_landings hp' (by rw [hc, hx])
      rw [callOf_congr hst] at hlanded' hask'
      -- whether a call goes on depends on the login of its post, which no other call has changed
      have hsame : ∀ (i : Nat) (l l' : Landing), (earlier ++ [last])[i]? = some l →
          (earlier' ++ [last'])[i]? = some l' →
          l.resumes s (run.callOf asked body) = l'.resumes s (run.callOf asked body) := by
        intro i l l' hl hl'
        rw [← hlandings] at hl
        rw [← hlandings'] at hl'
        obtain ⟨hanswer, hcancelled⟩ := ha i l l' hl hl'
        rw [Landing.resumes, Landing.resumes, callOf_isCancelled, callOf_isCancelled, hcancelled, hanswer,
          landing_login hs hp (List.mem_of_getElem? hl), landing_login hs hp' (List.mem_of_getElem? hl'), hst]
      have hlength := hlanded.length_eq hlanded' hsame
      refine ⟨?_, ?_, ?_, hlogin⟩
      · rw [posts_withoutToken hs hp, posts_withoutToken hs hp', start_state_congr hst, hlandings, hlandings',
          List.length_append, List.length_append, hlength]
        rfl
      · rw [posts_head hp hx, posts_head hp' (by rw [hc, hx]), start_state_congr hst]
      · obtain ⟨hanswer, hcancelled⟩ := ha earlier.length last last'
          (by rw [hlandings, List.getElem?_concat_length]) (by rw [hlandings', hlength, List.getElem?_concat_length])
        have houtcome : last.outcome (run.callOf asked body) = last'.outcome (run.callOf asked body) := by
          rw [Landing.outcome, Landing.outcome, callOf_isCancelled, callOf_isCancelled, hcancelled, hanswer]
        rw [hask, hask', finish_result, finish_result, houtcome, hst]

end

/-! ## A run without the others -/

/-- The run in which no other call overlaps a call and its posts get the same answers. -/
def Run.alone (run : Run) (s : Settings) (asked : Asked) : Run :=
  { run with script := (asked.landings s run).map fun l => ⟨[], l.run.cancelled, fun _ => l.answer⟩ }

theorem alone_isPlain (run : Run) (s : Settings) (asked : Asked) : (run.alone s asked).IsPlain := by
  intro exchange he
  obtain ⟨l, -, rfl⟩ := List.mem_map.mp he
  rfl

section
variable (s : Settings) (overlap : Overlap) (call : Call)

theorem landing_answer (run : Run) (number : Nat) :
    (run.landing s overlap call number).answer = run.answerAt call.tag 0 := by
  show (run.send s call number).next.1.answer call.tag = _
  rw [next_fst]
  rfl

theorem landing_isCancelled (run : Run) (number : Nat) (hp : run.IsPlain) (h : call.isCancelled run = false) :
    call.isCancelled (run.landing s overlap call number).run =
      call.asked.isCancelled (run.script.getD 0 .idle).cancels := by
  show call.asked.isCancelled (run.flown s call number overlap).cancelled = _
  rw [flown_cancelled s call overlap number run hp, isCancelled_append]
  show (call.isCancelled run || _) = _
  rw [h, Bool.false_or]

/-- Without overlapping calls the answers are those of the script, one after another, and so are the
cancellations. -/
theorem landings_plain (left number : Nat) (run : Run) (hp : run.IsPlain) :
    ∀ (i : Nat) (l : Landing), (landings s overlap call left number run)[i]? = some l →
      l.answer = run.answerAt call.tag i ∧
        call.isCancelled l.run = call.asked.isCancelled (run.script.getD i .idle).cancels := by
  induction left, number, run using attempts_induct s overlap call with
  | cancelled left number run h =>
    rw [landings_cancelled s overlap call left number run h]
    simp
  | ended left number run h hl =>
    rw [landings_ended s overlap call h hl]
    intro i l hi
    obtain ⟨rfl, rfl⟩ : i = 0 ∧ _ = l := by simpa [List.getElem?_singleton] using hi
    exact ⟨landing_answer s overlap call run number, landing_isCancelled s overlap call run number hp h⟩
  | resumed left number run h hr ih =>
    have hscript : ((run.landing s overlap call number).taken s call).script = run.script.tail :=
      flown_script s call overlap number run hp
    rw [landings_resumed s overlap call h hr]
    intro i l hi
    cases i with
    | zero =>
      cases hi
      exact ⟨landing_answer s overlap call run number, landing_isCancelled s overlap call run number hp h⟩
    | succ i =>
      obtain ⟨hanswer, hcancelled⟩ := ih (.of_tail hp hscript) i l hi
      refine ⟨hanswer.trans (answerAt_of_tail hscript call.tag i), hcancelled.trans ?_⟩
      rw [hscript]
      cases run.script <;> rfl

end

theorem alone_answers (run : Run) (s : Settings) (asked : Asked) :
    SameAnswers asked (asked.landings s run) (asked.landings s (run.alone s asked)) := by
  intro i l l' hl hl'
  cases hp : asked.prepare s (run.alone s asked).state.nextTag with
  | error e =>
    rw [landings_refused hp] at hl'
    cases hl'
  | ok p =>
    obtain ⟨body, left⟩ := p
    have hscript := start_script (run.alone s asked) s asked
    rw [asked_landings_prepared hp] at hl'
    obtain ⟨hanswer, hcancelled⟩ := landings_plain s _ ((run.alone s asked).callOf asked body) left 1 _
      (by rw [Run.IsPlain, hscript]; exact alone_isPlain run s asked) i l' hl'
    have hexchange : (run.alone s asked).script.getD i .idle = ⟨[], l.run.cancelled, fun _ => l.answer⟩ := by
      simp [Run.alone, List.getD_eq_getElem?_getD, hl]
    rw [Run.answerAt, hscript, hexchange] at hanswer
    rw [hscript, hexchange] at hcancelled
    exact ⟨hanswer.symm, hcancelled.symm⟩

/-- Without a fallback login a call does the same in two runs in which its own posts get the same
answers, whatever other calls overlap it in either, and also as in the run in which none does. -/
theorem overlap_shows_in_tokens {s : Settings} (hs : s.fallback.isNull = true) (asked : Asked) (run : Run) :
    ((run.alone s asked).IsPlain ∧ SameAnswers asked (asked.landings s run) (asked.landings s (run.alone s asked)) ∧
      Alike s asked run (run.alone s asked)) ∧
    ∀ run' : Run, run'.state = run.state → asked.isCancelled run'.cancelled = asked.isCancelled run.cancelled →
      SameAnswers asked (asked.landings s run) (asked.landings s run') → Alike s asked run run' :=
  ⟨⟨alone_isPlain run s asked, alone_answers run s asked, alike_of_answers hs rfl rfl (alone_answers run s asked)⟩,
    fun _ hst hc ha => alike_of_answers hs hst hc ha⟩

def oneLogin : Settings :=
  { twoLogins.settings with fallback := .null }

/-- A call that has to try again. While its first post is in flight another call brings a token, and one
more is cancelled. -/
def overlappedRun : Run where
  state := twoLogins.state
  script := [
    ⟨[⟨"session-stats", .null, some .ok, none⟩, ⟨"session-get", .null, some .ok, some 1⟩], [],
      fun _ => .response ⟨409, [], [], .ok ""⟩⟩,
    ⟨[], [], fun _ => .response ⟨200, [(tokenHeader, "two")], [], .ok ""⟩⟩,
    ⟨[], [1], fun _ => .response ⟨200, [], [], .ok ""⟩⟩]
  cancelled := []
  history := []
  log := []
  overlapped := []

theorem overlap_shows_in_tokens_retried : oneLogin.fallback.isNull = true ∧
    (plainCall.posts oneLogin overlappedRun).map (·.headers.lookup tokenHeader) = [none, some (.text "two")] ∧
    (plainCall.posts oneLogin (overlappedRun.alone oneLogin plainCall)).map (·.headers.lookup tokenHeader) =
      [none, none] ∧
    ((overlappedRun.alone oneLogin plainCall).IsPlain ∧
      SameAnswers plainCall (plainCall.landings oneLogin overlappedRun)
        (plainCall.landings oneLogin (overlappedRun.alone oneLogin plainCall)) ∧
      Alike oneLogin plainCall overlappedRun (overlappedRun.alone oneLogin plainCall)) ∧
    ∀ run' : Run, run'.state = overlappedRun.state →
      plainCall.isCancelled run'.cancelled = plainCall.isCancelled overlappedRun.cancelled →
      SameAnswers plainCall (plainCall.landings oneLogin overlappedRun) (plainCall.landings oneLogin run') →
        Alike oneLogin plainCall overlappedRun run' :=
  ⟨rfl, rfl, rfl, overlap_shows_in_tokens rfl plainCall overlappedRun⟩

end TorrentRemote.Connection
