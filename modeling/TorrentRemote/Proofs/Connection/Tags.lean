import TorrentRemote.Proofs.Connection.Nested
import TorrentRemote.Proofs.Connection.Verdict
import TorrentRemote.Proofs.Envelope

/-!
# Tags

Calls get the tags 1, 2, 3, … in the order in which they begin, each posts one body with its own tag,
and a call gets its arguments from a response that suits this tag: `calls_kept_apart`.
-/

namespace TorrentRemote.Connection

def Event.entered? : Event → Option Nat
  | .entered tag _ => some tag
  | _ => none

def enteredTags (history : List Event) : List Nat :=
  history.reverse.filterMap Event.entered?

theorem enteredTags_cons (e : Event) (history : List Event) :
    enteredTags (e :: history) = enteredTags history ++ e.entered?.toList := by
  rw [enteredTags, List.reverse_cons, List.filterMap_append]
  cases h : e.entered? <;> simp [enteredTags, h]

theorem mem_enteredTags {tag : Nat} {asked : Asked} {history : List Event} (h : .entered tag asked ∈ history) :
    tag ∈ enteredTags history :=
  List.mem_filterMap.mpr ⟨.entered tag asked, List.mem_reverse.mpr h, rfl⟩

/-! ## What holds of each event -/

/-- What an event has to do with those before it: a call takes a tag above all others, posts the body
of what is asked under this tag, and ends with a failure or as a response to it says. -/
def Lawful (s : Settings) (earlier : List Event) : Event → Prop
  | .entered tag _ => ∀ other ∈ enteredTags earlier, other < tag
  | .sent tag p => ∃ asked, .entered tag asked ∈ earlier ∧ asked.body tag = .ok p.body ∧
      p.url = s.url ∧ p.timeout = s.timeout
  | .answered _ _ _ _ => True
  | .ended tag ending => (∃ e, ending = .failed e) ∨ ∃ asked p r, .entered tag asked ∈ earlier ∧
      .answered tag p (.response r) false ∈ earlier ∧ ending = conclude tag asked.read r

theorem Chronicle.of_mem {s : Settings} {history : List Event} {e : Event} (h : Chronicle (Lawful s) history)
    (he : e ∈ history) : ∃ earlier, Lawful s earlier e ∧ ∀ e' ∈ earlier, e' ∈ history := by
  obtain ⟨later, earlier, rfl⟩ := List.append_of_mem he
  exact ⟨earlier, h.event, fun e' he' => List.mem_append_right _ (List.mem_cons_of_mem _ he')⟩

theorem entered_unique {s : Settings} {tag : Nat} {asked asked' : Asked} : ∀ {history : List Event},
    Chronicle (Lawful s) history → .entered tag asked ∈ history → .entered tag asked' ∈ history → asked = asked'
  | [], _, h, _ => by cases h
  | e :: earlier, hc, h, h' => by
    have hlt : ∀ {a a' : Asked}, e = .entered tag a → .entered tag a' ∉ earlier := by
      rintro a a' rfl hm
      exact Nat.lt_irrefl tag (hc.1 tag (mem_enteredTags hm))
    rcases List.mem_cons.mp h with he | hm
    · rcases List.mem_cons.mp h' with he' | hm'
      · rw [← he] at he'
        cases he'
        rfl
      · exact absurd hm' (hlt he.symm)
    · rcases List.mem_cons.mp h' with he' | hm'
      · exact absurd hm (hlt he'.symm)
      · exact entered_unique hc.2 hm hm'

/-! ## Traffic -/

/-- The tags given out are the first ones, calls under way are in the history, and the history is
lawful. -/
structure Tagged (s : Settings) (t : Traffic) : Prop where
  tags : enteredTags t.history = List.range' 1 t.state.lastTag
  pending : t.All fun tag p => .entered tag p.asked ∈ t.history ∧ p.asked.body tag = .ok p.body
  events : Chronicle (Lawful s) t.history

namespace Tagged

variable {s : Settings} {t : Traffic} (h : Tagged s t)
include h

theorem put {tag : Nat} {p : Option Pending}
    (hp : ∀ q, p = some q → .entered tag q.asked ∈ t.history ∧ q.asked.body tag = .ok q.body) :
    Tagged s (t.put tag p) :=
  ⟨h.tags, h.pending.put hp, h.events⟩

theorem see {t' : Traffic} {e : Event} (ht : t'.state.lastTag = t.state.lastTag) (hp : t'.pending = t.pending)
    (hh : t'.history = e :: t.history) (hn : e.entered? = none) (he : Lawful s t.history e) : Tagged s t' := by
  refine ⟨?_, ?_, ?_⟩
  · rw [ht, hh, enteredTags_cons, hn]
    simpa using h.tags
  · intro tag p hq
    rw [hp] at hq
    rw [hh]
    exact ⟨List.mem_cons_of_mem _ (h.pending tag p hq).1, (h.pending tag p hq).2⟩
  · rw [hh]
    exact ⟨he, h.events⟩

theorem takeTag (asked : Asked) : Tagged s (t.takeTag asked) := by
  refine ⟨?_, ?_, ?_, h.events⟩
  · rw [Traffic.takeTag_history, enteredTags_cons, h.tags, Traffic.takeTag_state, State.nextTag, List.range'_1_concat,
      Nat.add_comm 1]
    rfl
  · intro tag p hp
    exact ⟨List.mem_cons_of_mem _ (h.pending tag p hp).1, (h.pending tag p hp).2⟩
  · intro other ho
    rw [h.tags, List.mem_range'_1] at ho
    rw [State.nextTag]
    omega

theorem close {tag : Nat} {ending : Ending} (he : Lawful s t.history (.ended tag ending)) :
    Tagged s (t.close tag ending) :=
  (h.put (p := none) (by simp)).see (e := .ended tag ending) rfl rfl rfl rfl he

theorem send {tag : Nat} {p : Pending} (hp : t.pending tag = some p) : Tagged s (t.send s tag p) := by
  obtain ⟨hm, hb⟩ := h.pending tag p hp
  refine (h.put (p := some { p with inFlight := some (post s t.state p.body) }) ?_).see
    (e := .sent tag (post s t.state p.body)) rfl rfl rfl rfl ⟨p.asked, hm, hb, rfl, rfl⟩
  intro q hq
  cases hq
  exact ⟨hm, hb⟩

theorem take (tag : Nat) (p : Pending) (sent : Post) (a : Answer) : Tagged s (t.take s tag p sent a) :=
  h.see (e := .answered tag sent a p.cancelled) (by rw [Traffic.take_state, receive_state]) rfl rfl rfl trivial

theorem step {t' : Traffic} (hstep : Step s t t') : Tagged s t' := by
  cases hstep with
  | idle => exact h
  | cancelled which => exact ⟨h.tags, h.pending.cancel id which, h.events⟩
  | refused hp => exact (h.takeTag _).see (e := .ended _ _) rfl rfl rfl rfl (.inl ⟨_, rfl⟩)
  | @entered asked body left cancelled hp =>
    obtain ⟨body', hb, hp⟩ := bind_ok hp
    obtain ⟨left', -, hp⟩ := bind_ok hp
    cases hp
    refine (h.takeTag asked).put ?_
    intro q hq
    cases hq
    exact ⟨List.mem_cons_self, hb⟩
  | gaveUp hp hf hc => exact h.close (.inl ⟨_, rfl⟩)
  | sent hp hf hc => exact h.send hp
  | failed a e hp hf => exact (h.take _ _ _ a).close (.inl ⟨e, rfl⟩)
  | @repeated tag p sent a left hp hf hc hr hl =>
    refine (h.take tag p sent a).put ?_
    intro q hq
    cases hq
    exact ⟨List.mem_cons_of_mem _ (h.pending tag p hp).1, (h.pending tag p hp).2⟩
  | @concluded tag p sent r hp hf hc hl =>
    refine (h.take tag p sent (.response r)).close ?_
    rcases shown_cases s r with hs | ⟨fault, -, -, hs⟩
    · rw [hs]
      refine .inr ⟨p.asked, sent, r, ?_, ?_, rfl⟩
      · exact List.mem_cons_of_mem _ (h.pending tag p hp).1
      · rw [Traffic.take_history, hc]
        exact List.mem_cons_self
    · rw [hs]
      exact .inl ⟨_, rfl⟩

end Tagged

theorem tagged_of_observed {o : Options} {s : Settings} {st : State} {history : List Event}
    (ho : start o = .ok (s, st)) (h : Observed s st history) : ∃ t, Tagged s t ∧ t.history = history := by
  obtain ⟨-, -, hlast, -⟩ := start_ok ho
  have hnew : Tagged s (Traffic.new st) := by
    refine ⟨?_, ?_, trivial⟩
    · show [] = List.range' 1 st.lastTag
      rw [hlast]
      rfl
    · intro tag p hp
      cases hp
  exact observed_invariant h hnew fun h hstep => h.step hstep

/-! ## Calls and their responses -/

theorem good_of_ending {s : Settings} {earlier : List Event} {tag : Nat} {ending : Ending}
    (h : Lawful s earlier (.ended tag ending)) (hok : ending.handed.isSome ∨ ∃ v, ending.result = .ok v) :
    ∃ asked p r envelope, .entered tag asked ∈ earlier ∧ .answered tag p (.response r) false ∈ earlier ∧
      GoodAnswer tag r envelope ∧ ending = .ofArguments envelope.arguments asked.read := by
  rcases h with ⟨e, rfl⟩ | ⟨asked, p, r, ha, hr, rfl⟩
  · rcases hok with hok | ⟨v, hok⟩ <;> cases hok
  · obtain ⟨envelope, hgood, hend⟩ := good_of_conclude hok
    exact ⟨asked, p, r, envelope, ha, hr, hgood, hend⟩

theorem body_carries {asked : Asked} {tag : Nat} {body : String} (h : asked.body tag = .ok body) :
    Envelope.Carries body tag :=
  Envelope.carries_of_encode h

/-- The calls on a connection do not get into each other's way. -/
structure KeptApart (history : List Event) : Prop where
  /-- The n-th call to begin has the tag n. -/
  tags : enteredTags history = List.range' 1 (enteredTags history).length
  own : ∀ tag p, .sent tag p ∈ history → tag ∈ enteredTags history ∧ Envelope.Carries p.body tag
  same : ∀ tag p p', .sent tag p ∈ history → .sent tag p' ∈ history →
    p.url = p'.url ∧ p.timeout = p'.timeout ∧ p.body = p'.body
  apart : ∀ tag tag' p p' n, .sent tag p ∈ history → .sent tag' p' ∈ history →
    Envelope.Carries p.body n → Envelope.Carries p'.body n → tag = tag'
  /-- A call that hands arguments on or returns a value has them from a response that it got itself. -/
  answers : ∀ later earlier tag ending, history = later ++ .ended tag ending :: earlier →
    (ending.handed.isSome ∨ ∃ v, ending.result = .ok v) →
      ∃ asked p r envelope, .entered tag asked ∈ earlier ∧ .answered tag p (.response r) false ∈ earlier ∧
        GoodAnswer tag r envelope ∧ ending = .ofArguments envelope.arguments asked.read

theorem calls_kept_apart {o : Options} {s : Settings} {st : State} {history : List Event}
    (ho : start o = .ok (s, st)) (h : Observed s st history) :
    KeptApart history ∧ ∀ asked run, ∃ ending earlier,
      (ask s asked run).2.history = .ended run.state.nextTag ending :: earlier ∧
        (ask s asked run).1 = ending.result := by
  obtain ⟨t, ht, rfl⟩ := tagged_of_observed ho h
  have hsent : ∀ {tag p}, .sent tag p ∈ t.history → ∃ asked, .entered tag asked ∈ t.history ∧
      asked.body tag = .ok p.body ∧ p.url = s.url ∧ p.timeout = s.timeout := by
    intro tag p hp
    obtain ⟨earlier, ⟨asked, ha, hlaw⟩, hsub⟩ := ht.events.of_mem hp
    exact ⟨asked, hsub _ ha, hlaw⟩
  refine ⟨⟨?_, ?_, ?_, ?_, ?_⟩, fun asked run => ask_returns s asked run⟩
  · rw [ht.tags, List.length_range']
  · intro tag p hp
    obtain ⟨asked, ha, hb, -⟩ := hsent hp
    exact ⟨mem_enteredTags ha, body_carries hb⟩
  · intro tag p p' hp hp'
    obtain ⟨asked, ha, hb, hu, ht'⟩ := hsent hp
    obtain ⟨asked', ha', hb', hu', ht''⟩ := hsent hp'
    obtain rfl := entered_unique ht.events ha ha'
    rw [hb] at hb'
    exact ⟨hu.trans hu'.symm, ht'.trans ht''.symm, Except.ok.inj hb'⟩
  · intro tag tag' p p' n hp hp' hn hn'
    obtain ⟨asked, -, hb, -⟩ := hsent hp
    obtain ⟨asked', -, hb', -⟩ := hsent hp'
    rw [(body_carries hb).unique hn, (body_carries hb').unique hn']
  · intro later earlier tag ending hh hok
    have hlaw := ht.events
    rw [hh] at hlaw
    exact good_of_ending hlaw.event hok

def crossedRun : Run :=
  let other := Text.Utf8.encode "\x7b\"result\":\"success\",\"tag\":2\x7d"
  let exchange : Exchange :=
    ⟨[⟨"session-stats", .null, none, none⟩], [], fun _ => .response ⟨200, [], other, .ok ""⟩⟩
  (ask twoLogins.settings ⟨"session-get", .null, none, none⟩ ⟨twoLogins.state, [exchange], [], [], [], []⟩).2

theorem calls_kept_apart_crossed : enteredTags crossedRun.history = [1, 2] ∧
    KeptApart crossedRun.history ∧ ∀ asked run, ∃ ending earlier,
      (ask twoLogins.settings asked run).2.history = .ended run.state.nextTag ending :: earlier ∧
        (ask twoLogins.settings asked run).1 = ending.result :=
  ⟨rfl, calls_kept_apart twoLogins_start (.inl ⟨crossedRun, .ask _ _ _ (.new [] [] [] []), rfl⟩)⟩

end TorrentRemote.Connection
