import TorrentRemote.Client
import TorrentRemote.Proofs.Connection.Isolation
import TorrentRemote.Proofs.Json.Uncarried
import TorrentRemote.Proofs.Request.Refusals
import TorrentRemote.Proofs.Value.Shown

/-!
# How far the operations of a client get

An operation makes a request, and the request is either idle, or refused before it takes a tag, or refused with its
tag because JSON cannot carry its arguments, or posted: `Client.operations_handle`.
-/

namespace TorrentRemote

/-! ## Runs of a request -/

namespace Client
open Connection

/-- What becomes of a request that is run on a client without being cancelled. -/
structure Handles (client : Client) (r : Request) : Prop where
  idle : r.IsEmpty → client.perform r none = (.ok .null, client)
  miscounted : ¬ r.IsCounted →
    client.perform r none = (.error (.client (.singleTorrent (.int r.ids.length))), client)
  misnamed : ¬ r.IsEmpty → r.IsCounted → (∃ v ∈ r.ids, ∀ w, ¬ Identifier.Names v w) →
    ∃ v ∈ r.ids, (∀ w, ¬ Identifier.Names v w) ∧ client.perform r none =
      (.error (if v.hasText then .client (.identifier (InfoHash.spelling v)) else .integerTooLong), client)
  built : r.IsCounted → (∀ v ∈ r.ids, ∃ w, Identifier.Names v w) → ∃ v, r.arguments = .ok v
  unsendable : ¬ r.IsEmpty → ∀ v, r.arguments = .ok v →
    Json.Uncarried v ∨ ¬ Value.HasDigits client.run.state.nextTag →
    ∃ (e : Json.WriteError) (after : Client), client.perform r none =
        (.error (.client (.arguments ("Cannot encode " ++ r.method ++ " arguments: " ++ e.message))), after) ∧
      after.run.posts = client.run.posts ∧
      after.run.state = { client.run.state with lastTag := client.run.state.nextTag }
  uncounted : ¬ r.IsEmpty → ∀ v, r.arguments = .ok v → ¬ Json.Uncarried v → Value.HasDigits client.run.state.nextTag →
    ∀ e, client.settings.retryCount = .error e → ∃ after : Client, client.perform r none = (.error e, after) ∧
      after.run.posts = client.run.posts ∧
      after.run.state = { client.run.state with lastTag := client.run.state.nextTag }
  posted : ¬ r.IsEmpty → ∀ v, r.arguments = .ok v → ¬ Json.Uncarried v → Value.HasDigits client.run.state.nextTag →
    ∀ retries, client.settings.retryCount = .ok retries →
    ∃ body, Envelope.encode r.method v (.int client.run.state.nextTag) = .ok body ∧
      (sends client.run.state.nextTag (client.run.since (client.perform r none).2.run)).head? =
        some (post client.settings client.run.state body)

section
variable (client : Client) {r : Request}

theorem perform_idle (h : r.isIdle = true) : client.perform r none = (.ok .null, client) := by
  simp only [perform, Connection.perform, h, if_true]

theorem perform_refused {e : Failure} (hidle : r.isIdle = false) (h : r.arguments = .error e) :
    client.perform r none = (.error e, client) := by
  simp [perform, Connection.perform, hidle, h]

theorem perform_built {v : Value} (hidle : r.isIdle = false) (h : r.arguments = .ok v) :
    client.perform r none = client.ask ⟨r.method, v, some r.readAnswer, none⟩ := by
  simp [perform, Connection.perform, ask, hidle, h]

end

section
variable (client : Client) {asked : Asked}

theorem ask_unprepared {e : Failure} (h : asked.prepare client.settings client.run.state.nextTag = .error e) :
    ∃ after, client.ask asked = (.error e, after) ∧ after.run.posts = client.run.posts ∧
      after.run.state = { client.run.state with lastTag := client.run.state.nextTag } := by
  rw [ask, ask_refused h]
  -- the call takes its tag and ends, neither of which is a post
  have hposts : ∀ run : Run, run.history = .ended client.run.state.nextTag (.failed e) ::
      .entered client.run.state.nextTag asked :: client.run.history → run.posts = client.run.posts := by
    intro run hhistory
    simp [Run.posts, hhistory, Event.post?]
  exact ⟨_, rfl, hposts _ (congrArg _ (start_history client.run client.settings asked)),
    start_state client.run client.settings asked⟩

theorem ask_posts {body : String} {left : Nat}
    (h : asked.prepare client.settings client.run.state.nextTag = .ok (body, left)) (hc : asked.cancellable = false) :
    (sends client.run.state.nextTag (client.run.since (client.ask asked).2.run)).head? =
      some (post client.settings client.run.state body) := by
  have hhead := posts_head h (isCancelled_eq_false hc)
  rw [start_state] at hhead
  exact hhead

end

theorem handles (client : Client) {r : Request} (hmethod : r.method ≠ "") (hwrite : r.IsWritable) :
    client.Handles r where
  idle h := client.perform_idle (Request.isIdle_iff.mpr h)
  miscounted h := client.perform_refused (Request.isIdle_of_miscounted h) (Request.arguments_miscounted h)
  misnamed := by
    intro hempty hcount hbad
    obtain ⟨v, hv, hnone, harguments⟩ := Request.arguments_misnamed hcount hwrite hbad
    rw [Identifier.refusal_eq] at harguments
    exact ⟨v, hv, hnone, client.perform_refused (Request.isIdle_eq_false hempty) harguments⟩
  built hcount hnamed := Request.arguments_built hcount hwrite hnamed
  unsendable := by
    intro hempty v harguments huncarried
    obtain ⟨e, hencode⟩ := Envelope.encode_uncarried hmethod huncarried
    refine ⟨e, ?_⟩
    rw [client.perform_built (Request.isIdle_eq_false hempty) harguments]
    apply client.ask_unprepared
    rw [Asked.prepare, Asked.body, hencode]
    rfl
  uncounted := by
    intro hempty v harguments hcarried htag e hretries
    obtain ⟨body, hbody⟩ := Envelope.encode_carried hmethod hcarried htag
    rw [client.perform_built (Request.isIdle_eq_false hempty) harguments]
    apply client.ask_unprepared
    rw [Asked.prepare, Asked.body, hbody, hretries]
    rfl
  posted := by
    intro hempty v harguments hcarried htag retries hretries
    obtain ⟨body, hbody⟩ := Envelope.encode_carried hmethod hcarried htag
    refine ⟨body, hbody, ?_⟩
    rw [client.perform_built (Request.isIdle_eq_false hempty) harguments]
    apply client.ask_posts _ rfl
    · exact retries
    · rw [Asked.prepare, Asked.body, hbody, hretries]
      rfl

/-! ## Operations -/

section
variable {name title : String} {a : Arguments}

def ListsFields (a : Arguments) : Prop :=
  a.get "fields" .null = .null ∨ ∃ vs, a.get "fields" .null = .list vs

theorem fieldsOf_ok (h : ListsFields a) : ∃ fields, Request.fieldsOf a = .ok fields := by
  unfold Request.fieldsOf
  rcases h with h | ⟨vs, h⟩
  · rw [h]
    exact ⟨none, rfl⟩
  · rw [h]
    exact ⟨some vs, rfl⟩

theorem build_ok (htitle : title ∈ operations.map Prod.snd) (hfields : title = "TorrentGetRequest" → ListsFields a) :
    ∃ r, Request.build? title a = some (.ok r) ∧ r.method ≠ "" ∧ r.IsWritable := by
  simp only [operations, List.map_cons, List.map_nil, List.mem_cons, List.not_mem_nil, or_false] at htitle
  by_cases hget : title = "TorrentGetRequest"
  · obtain ⟨fields, hok⟩ := fieldsOf_ok (hfields hget)
    refine ⟨.getTorrents a.ordered fields, ?_, by simp [Request.method], trivial⟩
    rw [hget]
    show some ((Request.fieldsOf a).map (Request.getTorrents a.ordered)) = _
    rw [hok]
    rfl
  · rcases htitle with rfl | rfl | rfl | rfl | rfl | rfl | rfl | rfl | rfl | rfl | rfl | rfl | rfl | rfl | rfl | rfl |
      rfl | rfl | rfl <;>
    first
    | exact absurd rfl hget
    | exact ⟨_, rfl, by simp [Request.method, Action.method], trivial⟩

theorem not_property (client : Client) (h : operations.lookup ((aliases.lookup name).getD name) = some title) :
    client.property? name = none := by
  unfold property?
  split
  · cases h
  · cases h
  · cases h
  · cases h
  · rfl

theorem not_runner {operation : String} (h : operations.lookup operation = some title) :
    runners.contains operation = false := by
  cases hrunner : runners.contains operation with
  | false => rfl
  | true =>
    simp only [runners, List.contains_iff_mem, List.mem_cons, List.not_mem_nil, or_false] at hrunner
    rcases hrunner with rfl | rfl | rfl <;> cases h

theorem checkNames_ok {known : List String} (h : ∀ given ∈ a.named, given.1 ∈ known) (operation : String) :
    a.checkNames operation known = .ok () := by
  unfold Arguments.checkNames
  rw [List.find?_eq_none.mpr]
  intro key hkey
  obtain ⟨given, hmem, rfl⟩ := List.mem_map.mp hkey
  simpa using h given hmem

theorem request_ok (client : Client) (hname : operations.lookup ((aliases.lookup name).getD name) = some title)
    (hgiven : ∀ given ∈ a.named, given.1 ∈ Request.argumentNames title)
    (hfields : title = "TorrentGetRequest" → ListsFields a) :
    ∃ r, client.request false name a = .ok r ∧ r.method ≠ "" ∧ r.IsWritable := by
  have htitle : title ∈ operations.map Prod.snd := by
    obtain ⟨before, after, hsplit, -⟩ := List.lookup_eq_some_iff.mp hname
    rw [hsplit]
    simp
  obtain ⟨r, hbuild, hr⟩ := build_ok htitle hfields
  refine ⟨r, ?_, hr⟩
  unfold request
  simp only [client.not_property hname, not_runner hname, hname, checkNames_ok hgiven, hbuild]
  rfl

end

/-- Every operation makes a request from the arguments that it knows, and the runners take changes, with no time among
them that has no wire form. -/
theorem operations_handle (client : Client) :
    (∀ name title a, operations.lookup ((aliases.lookup name).getD name) = some title →
      (∀ given ∈ a.named, given.1 ∈ Request.argumentNames title) → (title = "TorrentGetRequest" → ListsFields a) →
      ∃ r, client.request false name a = .ok r ∧ client.Handles r) ∧
    ∀ c : ChangeSet, (∀ f ∈ c.values, ¬ Wire.Unwritable f.2) → client.Handles (.change c) := by
  constructor
  · intro name title a hname hgiven hfields
    obtain ⟨r, hr, hmethod, hwrite⟩ := client.request_ok hname hgiven hfields
    exact ⟨r, hr, client.handles hmethod hwrite⟩
  · intro c hwrite
    have hmethod : (Request.change c).method ≠ "" := by
      rw [Request.method]
      cases c.kind <;> simp [ChangeKind.method]
    exact client.handles hmethod hwrite

def sampleClient : Client where
  settings := twoLogins.settings
  ownsSession := true
  run := ⟨twoLogins.state, [], [], [], [], []⟩
  closings := 0

/-- No changes, an identifier that is not valid, a path that is no text, and a request that is sent. -/
theorem operations_handle_sample :
    sampleClient.perform (.change (.empty .torrent)) none = (.ok .null, sampleClient) ∧
    (∃ r, sampleClient.request false "torrent_stop" { ordered := [.int 1, .text "x"] } = .ok r ∧
      ∃ v ∈ r.ids, sampleClient.perform r none =
        (.error (if v.hasText then .client (.identifier (InfoHash.spelling v)) else .integerTooLong), sampleClient)) ∧
    (∃ r message after, sampleClient.request false "free_space" { named := [("path", .bytes [])] } = .ok r ∧
      sampleClient.perform r none = (.error (.client (.arguments message)), after) ∧ after.run.posts = []) ∧
    ∃ r body, sampleClient.request false "session_shutdown" {} = .ok r ∧
      (sends 1 (sampleClient.run.since (sampleClient.perform r none).2.run)).head? =
        some (post sampleClient.settings sampleClient.run.state body) := by
  obtain ⟨hoperations, hchanges⟩ := operations_handle sampleClient
  refine ⟨?_, ?_, ?_, ?_⟩
  · have hnone : ∀ f ∈ (ChangeSet.empty .torrent).values, f.2 = .null := by
      intro f hf
      obtain ⟨s, -, rfl⟩ := List.mem_map.mp hf
      rfl
    have hwrite : ∀ f ∈ (ChangeSet.empty .torrent).values, ¬ Wire.Unwritable f.2 := by
      intro f hf
      rw [hnone f hf]
      rintro ⟨⟩
    exact (hchanges _ hwrite).idle ⟨by simp [ChangeSet.empty], hnone⟩
  · obtain ⟨r, hr, hhandles⟩ := hoperations "torrent_stop" "TorrentStopRequest" { ordered := [.int 1, .text "x"] } rfl
      (by simp) (by simp)
    refine ⟨r, hr, ?_⟩
    cases hr
    have hchecked : Identifier.check (.text "x") = .error (.client (.identifier (.text "x"))) := by rfl
    have hbad : ∀ w, ¬ Identifier.Names (.text "x") w := by
      intro w hw
      rw [Identifier.check_iff.mpr hw] at hchecked
      cases hchecked
    obtain ⟨v, hv, -, hperform⟩ := hhandles.misnamed id trivial ⟨.text "x", by simp [Request.ids], hbad⟩
    exact ⟨v, hv, hperform⟩
  · obtain ⟨r, hr, hhandles⟩ := hoperations "free_space" "FreeSpaceRequest" { named := [("path", .bytes [])] } rfl
      (by simp [Request.argumentNames]) (by simp)
    have hpath : r = .freeSpace (.bytes []) := by
      cases hr
      rfl
    rw [hpath] at hhandles
    have huncarried : Json.Uncarried (Value.ofFields [("path", .bytes [])]) := .value List.mem_cons_self (.bytes [])
    obtain ⟨e, after, hperform, hposts, -⟩ := hhandles.unsendable id _ rfl (.inl huncarried)
    rw [← hpath] at hperform
    exact ⟨r, _, after, hr, hperform, hposts⟩
  · obtain ⟨r, hr, hhandles⟩ := hoperations "session_shutdown" "SessionCloseRequest" {} rfl (by simp) (by simp)
    have hcarried : ¬ Json.Uncarried (.mapping []) := by
      intro h
      cases h with
      | key he _ => cases he
      | value he _ => cases he
    have hclose : r = .closeSession := by
      cases hr
      rfl
    rw [hclose] at hhandles
    obtain ⟨body, -, hposts⟩ := hhandles.posted id _ rfl hcarried (by decide) 2 rfl
    rw [← hclose] at hposts
    exact ⟨r, body, hr, hposts⟩

theorem leastLong_unnamed (w : Value) : ¬ Identifier.Names (.int Value.leastLong) w := by
  intro h
  cases h with
  | number hn hlow hhigh =>
    cases hn
    exact Value.leastLong_not_hasDigits (Value.hasDigits_of_lt (k := 20) (by decide) (by omega))
  | keyword h => cases h
  | hash h _ => cases h

def fractionalClient : Client :=
  { sampleClient with settings := fractionalSettings }

/-- Retries that are a fraction keep a call from being posted, and an identifier may be too long for its error. -/
theorem operations_cut_short :
    (checkRetries fractionalClient.settings.retries = .ok () ∧ ∃ after,
      fractionalClient.perform .closeSession none = (.error (.notAnIndex "float"), after) ∧ after.run.posts = []) ∧
    sampleClient.perform (.act .stop [.int Value.leastLong]) none = (.error .integerTooLong, sampleClient) ∧
    ¬ (∀ (client : Client) (r : Request), ¬ r.IsEmpty → r.IsCounted → (∃ v ∈ r.ids, ∀ w, ¬ Identifier.Names v w) →
      ∃ v, (client.perform r none).1 = .error (.client (.identifier v))) ∧
    ¬ ∀ (client : Client) (r : Request), ¬ r.IsEmpty → ∀ v, r.arguments = .ok v → ¬ Json.Uncarried v →
      Value.HasDigits client.run.state.nextTag → (client.perform r none).2.run.posts ≠ client.run.posts := by
  have hcarried : ¬ Json.Uncarried (.mapping []) := by
    intro h
    cases h with
    | key he _ => cases he
    | value he _ => cases he
  have hfraction : ∃ after, fractionalClient.perform .closeSession none = (.error (.notAnIndex "float"), after) ∧
      after.run.posts = [] := by
    have hclose := fractionalClient.handles (r := .closeSession) (by simp [Request.method]) trivial
    obtain ⟨after, hperform, hposts, -⟩ := hclose.uncounted id _ rfl hcarried (by decide) _ rfl
    exact ⟨after, hperform, hposts⟩
  have hlong : sampleClient.perform (.act .stop [.int Value.leastLong]) none =
      (.error .integerTooLong, sampleClient) := by
    have hstop := sampleClient.handles (r := .act .stop [.int Value.leastLong])
      (by simp [Request.method, Action.method]) trivial
    obtain ⟨v, hv, -, hperform⟩ := hstop.misnamed id trivial ⟨_, List.mem_singleton.mpr rfl, leastLong_unnamed⟩
    have htext : (Value.int Value.leastLong).hasText ≠ true :=
      fun h => Value.leastLong_not_hasDigits (Value.hasText_int.mp h)
    rwa [List.mem_singleton.mp hv, if_neg htext] at hperform
  refine ⟨⟨ok_of_toOption (by decide +kernel), hfraction⟩, hlong, fun h => ?_, fun h => ?_⟩
  · obtain ⟨v, hv⟩ := h sampleClient (.act .stop [.int Value.leastLong]) id trivial
      ⟨_, List.mem_singleton.mpr rfl, leastLong_unnamed⟩
    rw [hlong] at hv
    cases hv
  · obtain ⟨after, hperform, hposts⟩ := hfraction
    apply h fractionalClient .closeSession id _ rfl hcarried (by decide)
    rw [hperform, hposts]
    rfl

end Client

end TorrentRemote
