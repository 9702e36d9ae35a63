import TorrentRemote.Proofs.Request.Sameness
import TorrentRemote.Proofs.Value.Shown
import TorrentRemote.Text.Lines

/-!
# Cookies

Cookies can be given as names and values in turn or as a mapping, and both ways store one text. Where none of its marks
is in a name or a value, the cookies can be read back from the text in order: `cookies_stored`.
-/

namespace TorrentRemote

namespace Text

/-- Cuts a text wherever a mark stands. So many characters in front are left out as the rest of a mark. -/
def splitAt (mark : List Char) : Nat → List Char → List (List Char)
  | _, [] => [[]]
  | skip + 1, _ :: rest => splitAt mark skip rest
  | 0, c :: rest =>
    if mark.isPrefixOf (c :: rest) then [] :: splitAt mark (mark.length - 1) rest
    else extendLine c (splitAt mark 0 rest)

theorem splitAt_skip (mark front rest : List Char) :
    splitAt mark front.length (front ++ rest) = splitAt mark 0 rest := by
  induction front with
  | nil => rfl
  | cons c front ih => exact ih

section
variable {m : Char} {tail part : List Char}

theorem splitAt_mark (m : Char) (tail rest : List Char) :
    splitAt (m :: tail) 0 ((m :: tail) ++ rest) = [] :: splitAt (m :: tail) 0 rest := by
  rw [List.cons_append, splitAt, if_pos (by simp [List.isPrefixOf_iff_prefix]), List.length_cons, Nat.add_sub_cancel,
    splitAt_skip]

theorem splitAt_other {c : Char} (hc : m ≠ c) (rest : List Char) :
    splitAt (m :: tail) 0 (c :: rest) = extendLine c (splitAt (m :: tail) 0 rest) := by
  rw [splitAt, if_neg (by simp [hc])]

theorem splitAt_last (h : m ∉ part) : splitAt (m :: tail) 0 part = [part] := by
  induction part with
  | nil => rfl
  | cons c part ih =>
    rw [List.mem_cons, not_or] at h
    rw [splitAt_other h.1, ih h.2]
    rfl

theorem splitAt_part (h : m ∉ part) (rest : List Char) :
    splitAt (m :: tail) 0 (part ++ ((m :: tail) ++ rest)) = part :: splitAt (m :: tail) 0 rest := by
  induction part with
  | nil => exact splitAt_mark m tail rest
  | cons c part ih =>
    rw [List.mem_cons, not_or] at h
    rw [List.cons_append, splitAt_other h.1, ih h.2]
    rfl

/-- Parts that do not have the first character of the mark are found again in the text that the mark joins them to. -/
theorem splitAt_intercalate : ∀ {parts : List (List Char)}, parts ≠ [] → (∀ part ∈ parts, m ∉ part) →
    splitAt (m :: tail) 0 ((m :: tail).intercalate parts) = parts
  | [], hne, _ => absurd rfl hne
  | [part], _, h => by
    rw [List.intercalate_singleton]
    exact splitAt_last (h part List.mem_cons_self)
  | part :: other :: parts, _, h => by
    obtain ⟨hpart, hparts⟩ := List.forall_mem_cons.mp h
    rw [List.intercalate_cons_cons, List.append_assoc, splitAt_part hpart,
      splitAt_intercalate (List.cons_ne_nil _ _) hparts]

end

end Text

namespace Value

theorem putEntry_new {key v : Value} : ∀ {kept : List (Value × Value)}, (∀ e ∈ kept, e.1.same key = false) →
    putEntry key v kept = kept ++ [(key, v)]
  | [], _ => rfl
  | (k, old) :: kept, h => by
    obtain ⟨hk, hkept⟩ := List.forall_mem_cons.mp h
    rw [putEntry, if_neg (by simp [hk]), putEntry_new hkept]
    rfl

/-- A mapping that is made of entries with different keys has just these entries. -/
theorem ofEntries_distinct {entries : List (Value × Value)} (h : entries.Pairwise fun e f => e.1.same f.1 = false) :
    ofEntries entries = .mapping entries := by
  have hfold : ∀ (later kept : List (Value × Value)), (kept ++ later).Pairwise (fun e f => e.1.same f.1 = false) →
      later.foldl (fun kept e => putEntry e.1 e.2 kept) kept = kept ++ later := by
    intro later
    induction later with
    | nil => intro kept _; rw [List.append_nil]; rfl
    | cons e later ih =>
      intro kept hkept
      have hnew : ∀ e' ∈ kept, e'.1.same e.1 = false := fun e' he' =>
        (List.pairwise_append.mp hkept).2.2 e' he' e List.mem_cons_self
      rw [List.foldl_cons, putEntry_new hnew, ih _ (by rwa [List.append_assoc]), List.append_assoc]
      rfl
  exact congrArg Value.mapping (hfold entries [] h)

end Value

namespace ChangeSet

theorem same_refl (c : ChangeSet) : c.same c = true := by
  unfold same
  rw [Value.sameAll_refl, Value.sameFields_refl]
  simp

def value? (c : ChangeSet) (name : String) : Option Value :=
  (c.values.find? fun f => f.1.name = name).map Prod.snd

theorem settled_value {kind : ChangeKind} {name : String} (h : name ∈ kind.names) (ids : List Value) (ws : List Write) :
    (settled kind ids ws).value? name = some (lastValue ws name) := by
  obtain ⟨s, hs, rfl⟩ := List.mem_map.mp h
  have hfind : kind.settings.find? (fun s' => s'.label.name = s.label.name) = some s :=
    (setting_eq_some (c := settled kind ids ws)).mpr ⟨hs, rfl⟩
  unfold value? settled
  rw [List.find?_map]
  show ((kind.settings.find? fun s' => s'.label.name = s.label.name).map _).map Prod.snd = _
  rw [hfind]
  rfl

/-! ## Names and values -/

section
variable (pairs : List (String × String))

def cookieEntries : List (Value × Value) :=
  pairs.map fun p => (.text p.1, .text p.2)

def cookiesInTurn : List Value :=
  pairs.flatMap fun p => [.text p.1, .text p.2]

theorem cookieEntries_haveText : Value.entriesHaveText (cookieEntries pairs) = true := by
  rw [Value.entriesHaveText_iff]
  intro e he
  obtain ⟨p, -, rfl⟩ := List.mem_map.mp he
  exact ⟨rfl, rfl⟩

theorem pairUp_cookiesInTurn : pairUp? (cookiesInTurn pairs) = some (cookieEntries pairs) := by
  induction pairs with
  | nil => rfl
  | cons p pairs ih =>
    show (pairUp? (cookiesInTurn pairs)).map _ = _
    rw [ih]
    rfl

theorem pairUp_eq_none : ∀ {given : List Value}, pairUp? given = none ↔ given.length % 2 = 1
  | [] => by simp [pairUp?]
  | [_] => by simp [pairUp?]
  | _ :: _ :: given => by
    rw [pairUp?, Option.map_eq_none_iff, pairUp_eq_none, List.length_cons, List.length_cons]
    omega

end

section
variable {pairs : List (String × String)}

theorem ofEntries_cookies (hnames : (pairs.map Prod.fst).Nodup) :
    Value.ofEntries (cookieEntries pairs) = .mapping (cookieEntries pairs) := by
  apply Value.ofEntries_distinct
  rw [cookieEntries, List.pairwise_map]
  refine (List.pairwise_map.mp hnames).imp ?_
  intro p q hne
  exact eq_false_of_ne_true fun hsame => hne (Value.same_text.mp hsame)

/-! ## Reading cookies -/

def readCookie (part : List Char) : String × String :=
  (String.ofList (part.takeWhile (· ≠ '=')), String.ofList ((part.dropWhile (· ≠ '=')).drop 1))

def readCookies (s : String) : List (String × String) :=
  (Text.splitAt "; ".toList 0 s.toList).map readCookie

/-- None of the marks that a text of cookies has between its parts is in a name or a value, where it would be taken for
one. A value can have an equals sign. -/
def HasNoMark (p : String × String) : Prop :=
  ';' ∉ p.1.toList ∧ ';' ∉ p.2.toList ∧ '=' ∉ p.1.toList

theorem readCookie_text {p : String × String} (h : '=' ∉ p.1.toList) :
    readCookie (p.1 ++ "=" ++ p.2).toList = p := by
  have htext : (p.1 ++ "=" ++ p.2).toList = p.1.toList ++ '=' :: p.2.toList := by simp [String.toList_append]
  have hname : ∀ c ∈ p.1.toList, decide (c ≠ '=') = true := fun c hc => decide_eq_true fun heq => h (heq ▸ hc)
  unfold readCookie
  rw [htext, List.takeWhile_append_of_pos hname, List.dropWhile_append_of_pos hname,
    List.takeWhile_cons_of_neg (by decide), List.dropWhile_cons_of_neg (by decide), List.append_nil, List.drop_one,
    List.tail_cons, String.ofList_toList, String.ofList_toList]

theorem readCookies_cookieText (hne : pairs ≠ []) (h : ∀ p ∈ pairs, HasNoMark p) :
    readCookies (cookieText (cookieEntries pairs)) = pairs := by
  have hparts : Text.splitAt "; ".toList 0 (cookieText (cookieEntries pairs)).toList =
      pairs.map fun p => (p.1 ++ "=" ++ p.2).toList := by
    unfold cookieText cookieEntries
    rw [String.toList_intercalate, List.map_map, List.map_map, show "; ".toList = [';', ' '] from rfl]
    apply Text.splitAt_intercalate
    · simpa using hne
    · intro part hpart
      obtain ⟨p, hp, rfl⟩ := List.mem_map.mp hpart
      obtain ⟨hname, hvalue, -⟩ := h p hp
      simp [Value.plain, String.toList_append, hname, hvalue]
  unfold readCookies
  rw [hparts, List.map_map]
  conv => rhs; rw [← List.map_id pairs]
  exact List.map_congr_left fun p hp => readCookie_text (h p hp).2.2

end

/-! ## Main result -/

theorem cookies_stored {ids : List Value} {given : List (String × Value)} {made : ChangeSet}
    {calls : List (String × List Value)} {r : Request} (hmade : make .newTorrent ids given = .ok made)
    (hcalls : (Request.change made).callAll calls = .ok r) :
    (∀ pairs : List (String × String), (pairs.map Prod.fst).Nodup → ∃ a b,
      r.call "with_cookies_list" (cookiesInTurn pairs) = .ok a ∧
      r.call "with_cookies_map" [.ofEntries (cookieEntries pairs)] = .ok b ∧
      a.same b = true ∧ (∀ tag, a.body tag = b.body tag) ∧
      ∃ c text, a = .change c ∧ c.value? "cookies" = some (.text text) ∧
        (pairs ≠ [] → (∀ p ∈ pairs, HasNoMark p) → readCookies text = pairs)) ∧
    ∀ words : List Value, r.call "with_cookies_list" words = .error .oddCookies ↔ words.length % 2 = 1 := by
  obtain rfl := make_ok hmade
  obtain ⟨later, -, rfl⟩ := callAll_ok.mp hcalls
  generalize named given ++ later = ws
  constructor
  · intro pairs hnames
    have hlist : Stores (settled .newTorrent ids ws).kind (cookiesInTurn pairs) "cookies_list" _ :=
      .cookieList rfl (pairUp_cookiesInTurn pairs) (cookieEntries_haveText pairs)
    have hmap : Stores (settled .newTorrent ids ws).kind [.ofEntries (cookieEntries pairs)] "cookies_map" _ :=
      .cookieMap rfl (ofEntries_cookies hnames) (cookieEntries_haveText pairs)
    refine ⟨_, _, Request.call_ok.mpr ⟨_, rfl, hlist.set⟩, Request.call_ok.mpr ⟨_, rfl, hmap.set⟩, same_refl _,
      fun _ => rfl, _, cookieText (cookieEntries pairs), rfl, ?_, readCookies_cookieText⟩
    rw [apply_settled, settled_value (by decide), lastValue_append]
    rfl
  · intro words
    have hcall : (Request.change (settled .newTorrent ids ws)).call "with_cookies_list" words =
        ((settled .newTorrent ids ws).withCookieList words).map .change :=
      Request.call_operationName _ "cookies_list" words
    rw [hcall, ← pairUp_eq_none]
    unfold withCookieList
    cases pairUp? words with
    | none => exact iff_of_true rfl rfl
    | some pairs =>
      refine iff_of_false (fun h => ?_) nofun
      have hcookies : (settled .newTorrent ids ws).withCookies pairs = .error .oddCookies := map_error h
      unfold withCookies at hcookies
      split at hcookies
      · cases hcookies
      · cases hcookies

/-- A cookie with an equals sign and blanks in its value, and one with nothing in it. -/
theorem cookies_stored_odd_values : ∃ made r a b c text,
    make .newTorrent [] [("filename", .text "x")] = .ok made ∧
    (Request.change made).callAll [("with_paused", [.bool true])] = .ok r ∧
    r.call "with_cookies_list" (cookiesInTurn [("a", " 1=2 "), ("", "")]) = .ok a ∧
    r.call "with_cookies_map" [.ofEntries (cookieEntries [("a", " 1=2 "), ("", "")])] = .ok b ∧ a.same b = true ∧
    a = .change c ∧ c.value? "cookies" = some (.text text) ∧ readCookies text = [("a", " 1=2 "), ("", "")] ∧
    r.call "with_cookies_list" [.text "a"] = .error .oddCookies := by
  have hmade : make .newTorrent [] [("filename", .text "x")] =
      .ok (settled .newTorrent [] (named [("filename", .text "x")])) := by rfl
  have hpaused : Stores .newTorrent [.bool true] "paused" (.value "paused" (.bool true)) :=
    .setting (s := .plain "paused" "paused") (by simp [ChangeKind.settings, Setting.ofNewTorrent]) rfl
  have hlater : StoresAll .newTorrent [("with_paused", [.bool true])] [.value "paused" (.bool true)] :=
    .cons ⟨"paused", rfl, hpaused⟩ .nil
  have hcalls := hlater.callAll [] (named [("filename", .text "x")])
  obtain ⟨halike, hodd⟩ := cookies_stored hmade hcalls
  obtain ⟨a, b, ha, hb, hsame, -, c, text, hc, htext, hread⟩ := halike [("a", " 1=2 "), ("", "")] (by decide)
  exact ⟨_, _, a, b, c, text, hmade, hcalls, ha, hb, hsame, hc, htext,
    hread (by decide) (by simp [HasNoMark]), (hodd _).mpr rfl⟩

end ChangeSet

end TorrentRemote
