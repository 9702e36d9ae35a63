import TorrentRemote.Connection.Run

/-!
# What the last answer means

The outcome of a call as a table: one row for each way in which the last answer can turn out. The
rows exclude each other and leave nothing out (`verdict_iff`), so the last answer alone decides.
-/

namespace TorrentRemote

/-- Whether an envelope can answer the call with a tag: it has that tag or none. -/
def Response.Suits (envelope : Response) (tag : Nat) : Prop :=
  envelope.tag = none ∨ envelope.tag = some (tag : Int)

theorem Response.suits_or_other (envelope : Response) (tag : Nat) :
    envelope.Suits tag ∨ ∃ other, envelope.tag = some other ∧ other ≠ tag := by
  cases h : envelope.tag with
  | none => exact .inl (.inl h)
  | some other =>
    by_cases hother : other = tag
    · exact .inl (.inr (by rw [h, hother]))
    · exact .inr ⟨other, rfl, hother⟩

namespace Connection

/-- A response whose arguments belong to the call with a tag. -/
structure GoodAnswer (tag : Nat) (r : HttpResponse) (envelope : Response) : Prop where
  status : r.status = 200
  decoded : Response.decodeBytes r.body = .ok envelope
  suits : envelope.Suits tag
  success : envelope.result = "success"

def Answer.outcome : Answer → Except Failure HttpResponse
  | .networkFailure message => .error (.client (.requestFailed ("Request failed: " ++ message) .null .null))
  | .broken fault => .error (.session fault)
  | .response r => .ok r

/-- What the last answer to a call with a tag means for it. -/
inductive Verdict (tag : Nat) (read : Option Reader) : Answer → Except Failure Value → Prop
  | networkFailure (message : String) : Verdict tag read (.networkFailure message)
      (.error (.client (.requestFailed ("Request failed: " ++ message) .null .null)))
  | broken (fault : SessionFault) : Verdict tag read (.broken fault) (.error (.session fault))
  | unauthorized {r : HttpResponse} : r.status = 401 →
      Verdict tag read (.response r) (.error (.client .unauthorized))
  | status {r : HttpResponse} : r.status ≠ 401 → r.status ≠ 200 →
      Verdict tag read (.response r) (.error (.client
        (.requestFailed ("Request failed: HTTP " ++ toString r.status) (.int r.status) .null)))
  | noEnvelope {r : HttpResponse} {e : Failure} : r.status = 200 → Response.decodeBytes r.body = .error e →
      Verdict tag read (.response r) (.error e)
  | mismatched {r : HttpResponse} {envelope : Response} {other : Int} : r.status = 200 →
      Response.decodeBytes r.body = .ok envelope → envelope.tag = some other → other ≠ tag →
      Verdict tag read (.response r) (.error (.client (.mismatchedTag (.int tag) (.int other))))
  | refused {r : HttpResponse} {envelope : Response} : r.status = 200 →
      Response.decodeBytes r.body = .ok envelope → envelope.Suits tag → envelope.result ≠ "success" →
      Verdict tag read (.response r) (.error (.client
        (.requestFailed ("Request failed: " ++ envelope.result) (.int 200) (.text envelope.result))))
  | unread {r : HttpResponse} {envelope : Response} : GoodAnswer tag r envelope → read = none →
      Verdict tag read (.response r) (.ok .null)
  | handed {r : HttpResponse} {envelope : Response} {f : Reader} : GoodAnswer tag r envelope → read = some f →
      Verdict tag read (.response r) (f envelope.arguments)

section
variable {tag : Nat} {r : HttpResponse} {envelope : Response}

theorem accept_unauthorized (h : r.status = 401) : accept tag r = .error (.client .unauthorized) := by
  rw [accept, if_pos h]

theorem accept_status (h1 : r.status ≠ 401) (h2 : r.status ≠ 200) : accept tag r =
    .error (.client (.requestFailed ("Request failed: HTTP " ++ toString r.status) (.int r.status) .null)) := by
  rw [accept, if_neg h1, if_pos h2]

theorem accept_ok_status (h : r.status = 200) : accept tag r = (do
    let envelope ← Response.decodeBytes r.body
    match envelope.tag with
    | some other => if other ≠ tag then throw (.client (.mismatchedTag (.int tag) (.int other)))
    | none => pure ()
    if !envelope.isSuccess then
      throw (.client (.requestFailed ("Request failed: " ++ envelope.result) (.int r.status) (.text envelope.result)))
    return envelope.arguments) := by
  have h1 : ¬ r.status = 401 := by omega
  have h401 : accept tag r = ite (r.status ≠ 200) _ _ := if_neg h1
  exact h401.trans (if_neg (not_not_intro h))

theorem accept_noEnvelope {e : Failure} (h : r.status = 200) (hd : Response.decodeBytes r.body = .error e) :
    accept tag r = .error e := by
  rw [accept_ok_status h, hd]
  rfl

theorem accept_mismatched {other : Int} (h : r.status = 200) (hd : Response.decodeBytes r.body = .ok envelope)
    (ht : envelope.tag = some other) (hne : other ≠ tag) :
    accept tag r = .error (.client (.mismatchedTag (.int tag) (.int other))) := by
  rw [accept_ok_status h, hd]
  simp [ht, hne, bind, Except.bind, throw, throwThe, MonadExceptOf.throw]

theorem accept_suits (h : r.status = 200) (hd : Response.decodeBytes r.body = .ok envelope)
    (ht : envelope.Suits tag) : accept tag r =
      if envelope.result = "success" then .ok envelope.arguments
      else .error (.client
        (.requestFailed ("Request failed: " ++ envelope.result) (.int 200) (.text envelope.result))) := by
  rw [accept_ok_status h, hd, h]
  by_cases hs : envelope.result = "success"
  · rcases ht with ht | ht
    · simp [ht, hs, Response.isSuccess, Response.successWord, bind, Except.bind, pure, Except.pure]
    · simp [ht, hs, Response.isSuccess, Response.successWord, bind, Except.bind, pure, Except.pure]
  · rcases ht with ht | ht
    · simp [ht, hs, Response.isSuccess, Response.successWord, bind, Except.bind, throw, throwThe, MonadExceptOf.throw]
    · simp [ht, hs, Response.isSuccess, Response.successWord, bind, Except.bind, throw, throwThe, MonadExceptOf.throw]

theorem accept_of_good (h : GoodAnswer tag r envelope) : accept tag r = .ok envelope.arguments := by
  rw [accept_suits h.status h.decoded h.suits, if_pos h.success]

theorem good_of_accept {arguments : Value} (h : accept tag r = .ok arguments) :
    ∃ envelope, GoodAnswer tag r envelope ∧ arguments = envelope.arguments := by
  by_cases h1 : r.status = 401
  · rw [accept_unauthorized h1] at h
    cases h
  by_cases h2 : r.status ≠ 200
  · rw [accept_status h1 h2] at h
    cases h
  have h2 := Decidable.not_not.mp h2
  cases hd : Response.decodeBytes r.body with
  | error e =>
    rw [accept_noEnvelope h2 hd] at h
    cases h
  | ok envelope =>
    rcases envelope.suits_or_other tag with hs | ⟨other, ho, hne⟩
    · rw [accept_suits h2 hd hs] at h
      split at h
      · next hsuccess =>
        cases h
        exact ⟨envelope, ⟨h2, hd, hs, hsuccess⟩, rfl⟩
      · cases h
    · rw [accept_mismatched h2 hd ho hne] at h
      cases h

end

/-! ## Texts for the log -/

/-- A response has a text, if its body is for the log. -/
def Settings.CanShow (s : Settings) (r : HttpResponse) : Prop :=
  s.logsBodies = true → ∃ text, r.text = .ok text

section
variable {s : Settings} {r : HttpResponse}

theorem shown_ok (h : s.CanShow r) : s.shown r = .ok r := by
  unfold Settings.shown
  split
  · next hlogs =>
    obtain ⟨text, htext⟩ := h hlogs
    rw [htext]
    rfl
  · rfl

theorem shown_fault {fault : SessionFault} (hlogs : s.logsBodies = true) (htext : r.text = .error fault) :
    s.shown r = .error (.session fault) := by
  rw [Settings.shown, if_pos hlogs, htext]
  rfl

theorem shown_cases (s : Settings) (r : HttpResponse) :
    s.shown r = .ok r ∨ ∃ fault, s.logsBodies = true ∧ r.text = .error fault ∧ s.shown r = .error (.session fault) := by
  cases hlogs : s.logsBodies with
  | false => exact .inl (shown_ok fun h => by rw [hlogs] at h; cases h)
  | true =>
    cases htext : r.text with
    | ok text => exact .inl (shown_ok fun _ => ⟨text, htext⟩)
    | error fault => exact .inr ⟨fault, rfl, rfl, shown_fault hlogs htext⟩

end

/-! ## The table and the program -/

section
variable {tag : Nat} {read : Option Reader}

theorem conclude_failed {r : HttpResponse} {e : Failure} (h : accept tag r = .error e) :
    conclude tag read r = .failed e := by
  rw [conclude, h]

theorem conclude_good {r : HttpResponse} {envelope : Response} (h : GoodAnswer tag r envelope) :
    conclude tag read r = .ofArguments envelope.arguments read := by
  rw [conclude, accept_of_good h]

theorem good_of_conclude {r : HttpResponse}
    (h : (conclude tag read r).handed.isSome ∨ ∃ v, (conclude tag read r).result = .ok v) :
    ∃ envelope, GoodAnswer tag r envelope ∧ conclude tag read r = .ofArguments envelope.arguments read := by
  cases ha : accept tag r with
  | error e =>
    rw [conclude_failed ha] at h
    rcases h with h | ⟨v, h⟩ <;> cases h
  | ok arguments =>
    obtain ⟨envelope, hgood, -⟩ := good_of_accept ha
    exact ⟨envelope, hgood, conclude_good hgood⟩

theorem Verdict.eq {a : Answer} {result : Except Failure Value} (h : Verdict tag read a result) :
    result = (Ending.ofAttempts tag read a.outcome).result := by
  cases h with
  | networkFailure => rfl
  | broken => rfl
  | unauthorized h => rw [Answer.outcome, Ending.ofAttempts, conclude_failed (accept_unauthorized h)]; rfl
  | status h1 h2 => rw [Answer.outcome, Ending.ofAttempts, conclude_failed (accept_status h1 h2)]; rfl
  | noEnvelope h hd => rw [Answer.outcome, Ending.ofAttempts, conclude_failed (accept_noEnvelope h hd)]; rfl
  | mismatched h hd ht hne =>
    rw [Answer.outcome, Ending.ofAttempts, conclude_failed (accept_mismatched h hd ht hne)]
    rfl
  | refused h hd hs hne =>
    have ha := accept_suits h hd hs
    rw [if_neg hne] at ha
    rw [Answer.outcome, Ending.ofAttempts, conclude_failed ha]
    rfl
  | unread hgood hread => rw [Answer.outcome, Ending.ofAttempts, conclude_good hgood, hread]; rfl
  | handed hgood hread => rw [Answer.outcome, Ending.ofAttempts, conclude_good hgood, hread]; rfl

theorem Verdict.exists (tag : Nat) (read : Option Reader) (a : Answer) : ∃ result, Verdict tag read a result := by
  cases a with
  | networkFailure message => exact ⟨_, .networkFailure message⟩
  | broken fault => exact ⟨_, .broken fault⟩
  | response r =>
    by_cases h1 : r.status = 401
    · exact ⟨_, .unauthorized h1⟩
    by_cases h2 : r.status ≠ 200
    · exact ⟨_, .status h1 h2⟩
    have h2 := Decidable.not_not.mp h2
    cases hd : Response.decodeBytes r.body with
    | error e => exact ⟨_, .noEnvelope h2 hd⟩
    | ok envelope =>
      rcases envelope.suits_or_other tag with hs | ⟨other, ho, hne⟩
      · by_cases hsuccess : envelope.result = "success"
        · cases hr : read with
          | none => exact ⟨_, .unread ⟨h2, hd, hs, hsuccess⟩ rfl⟩
          | some f => exact ⟨_, .handed ⟨h2, hd, hs, hsuccess⟩ rfl⟩
        · exact ⟨_, .refused h2 hd hs hsuccess⟩
      · exact ⟨_, .mismatched h2 hd ho hne⟩

theorem verdict_iff {a : Answer} {result : Except Failure Value} :
    Verdict tag read a result ↔ result = (Ending.ofAttempts tag read a.outcome).result := by
  constructor
  · exact Verdict.eq
  · rintro rfl
    obtain ⟨result, h⟩ := Verdict.exists tag read a
    rw [← h.eq]
    exact h

end

end Connection

end TorrentRemote
