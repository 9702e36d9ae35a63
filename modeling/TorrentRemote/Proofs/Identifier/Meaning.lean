import TorrentRemote.Proofs.Identifier

/-!
# What identifiers mean

An identifier means a torrent by its number or its hash, or all torrents that were active recently. A list has a
normal form exactly if all of it means something. The normal form means the same, and identifiers have the same
form only if they mean the same (`Identifier.normal_form`). Of a list that has none the first identifier without
a meaning is reported, bytes by their text where they have one (`Identifier.first_unknown_reported`).
-/

namespace TorrentRemote

/-! ## Letters of either case -/

namespace Text

def hexLetters : List Char := "0123456789abcdef".toList

def HexFor (c letter : Char) : Prop :=
  letter ∈ hexLetters ∧ (c = letter ∨ c = letter.toUpper)

theorem isHexDigit_ascii {c : Char} (h : isHexDigit c = true) : c.toNat < 128 := by
  by_contra hc
  have hdigit : ¬ c ≤ '9' := fun hle => hc (Nat.lt_of_le_of_lt hle (by decide))
  have hlower : ¬ c ≤ 'f' := fun hle => hc (Nat.lt_of_le_of_lt hle (by decide))
  have hupper : ¬ c ≤ 'F' := fun hle => hc (Nat.lt_of_le_of_lt hle (by decide))
  simp [isHexDigit, hexValue?, hdigit, hlower, hupper] at h

theorem hexFor_iff {c letter : Char} : HexFor c letter ↔ isHexDigit c = true ∧ c.toLower = letter := by
  constructor
  · intro ⟨hletter, hc⟩
    have hall : hexLetters.all (fun letter => [letter, letter.toUpper].all fun c =>
        isHexDigit c && decide (c.toLower = letter)) = true := by
      decide
    have hboth := List.all_eq_true.mp (List.all_eq_true.mp hall letter hletter) c (by simpa using hc)
    simpa using hboth
  · rintro ⟨hc, rfl⟩
    have hall : ∀ n < 128, isHexDigit (Char.ofNat n) = true → (Char.ofNat n).toLower ∈ hexLetters ∧
        (Char.ofNat n = (Char.ofNat n).toLower ∨ Char.ofNat n = (Char.ofNat n).toLower.toUpper) := by
      decide +kernel
    have h := hall c.toNat (isHexDigit_ascii hc)
    rw [Char.ofNat_toNat] at h
    exact h hc

theorem hexFor_lower {cs ds : List Char} :
    List.Forall₂ HexFor cs ds ↔ (∀ c ∈ cs, isHexDigit c = true) ∧ ds = cs.map Char.toLower := by
  induction cs generalizing ds with
  | nil => simp
  | cons c cs ih =>
    cases ds with
    | nil => simp
    | cons d ds =>
      rw [List.forall₂_cons, ih, hexFor_iff, List.forall_mem_cons, List.map_cons, List.cons.injEq, eq_comm (a := d)]
      exact and_and_and_comm

theorem hexFor_again {cs ds : List Char} (h : List.Forall₂ HexFor cs ds) : List.Forall₂ HexFor ds ds := by
  induction h with
  | nil => exact .nil
  | cons hc _ ih => exact .cons ⟨hc.1, .inl rfl⟩ ih

end Text

namespace InfoHash

theorem asciiText?_iff {bs : List UInt8} {s : String} : asciiText? bs = some s ↔
    (∀ b ∈ bs, b.toNat < 128) ∧ bs.map UInt8.toNat = s.toList.map Char.toNat := by
  have hall : bs.all (· < 128) = true ↔ ∀ b ∈ bs, b.toNat < 128 := by
    simp [List.all_eq_true, UInt8.lt_iff_toNat_lt]
  unfold asciiText?
  by_cases h : ∀ b ∈ bs, b.toNat < 128
  · rw [if_pos (hall.mpr h)]
    have hcode : ∀ b ∈ bs, (Char.ofNat b.toNat).toNat = b.toNat := by
      intro b hb
      rw [Char.ofNat, dif_pos (.inl (Nat.lt_trans (h b hb) (by decide)))]
      rfl
    have hcodes : (bs.map fun b => Char.ofNat b.toNat).map Char.toNat = bs.map UInt8.toNat := by
      simpa using hcode
    simp only [Option.some.injEq, ← String.toList_inj, String.toList_ofList, ← hcodes]
    rw [List.map_inj_right fun _ _ => Char.toNat_inj.mp]
    exact (and_iff_right h).symm
  · rw [if_neg (mt hall.mp h)]
    simp [h]

theorem asciiText?_exists {bs : List UInt8} : (∃ s, asciiText? bs = some s) ↔ ∀ b ∈ bs, b.toNat < 128 := by
  simp [asciiText?, UInt8.lt_iff_toNat_lt]

end InfoHash

namespace Identifier
open InfoHash Text Value

/-! ## Meanings -/

/-- What an identifier stands for; a hash is given by its digits in lower case. -/
inductive Target where
  | number (n : Int)
  | recent
  | hash (digits : List Char)

/-- The value is a text of these characters, or bytes that are their codes. -/
inductive Reads : Value → List Char → Prop
  | text {v : Value} {s : String} : v.text? = some s → Reads v s.toList
  | bytes {v : Value} {bs : List UInt8} {cs : List Char} : v.byteContent? = some bs →
      bs.map UInt8.toNat = cs.map Char.toNat → Reads v cs

inductive Means : Value → Target → Prop
  | number {v : Value} {n : Int} : v.int? = some n → -9223372036854775808 ≤ n → n ≤ 9223372036854775807 →
      Means v (.number n)
  | recent {v : Value} : v.text? = some "recently-active" → Means v .recent
  | hash {v : Value} {cs ds : List Char} : Reads v cs → cs.length = 40 ∨ cs.length = 7 → List.Forall₂ HexFor cs ds →
      Means v (.hash ds)

/-- The wire form of an identifier that means the target. -/
def Target.form (v : Value) : Target → Value
  | .number _ => v
  | .recent => .text "recently-active"
  | .hash digits => .text (String.ofList digits)

theorem reads_iff {v : Value} {cs : List Char} (h : ∀ c ∈ cs, c.toNat < 128) :
    Reads v cs ↔ (spelling v).text? = some (String.ofList cs) := by
  rw [spelled_iff]
  simp only [asciiText?_iff, String.toList_ofList]
  constructor
  · intro hreads
    cases hreads with
    | text hs => exact .inl (by rw [hs, String.ofList_toList])
    | @bytes bs _ hbs hcodes =>
      refine .inr ⟨bs, hbs, fun b hb => ?_, hcodes⟩
      have hcode : b.toNat ∈ cs.map Char.toNat := hcodes ▸ List.mem_map_of_mem hb
      obtain ⟨c, hc, heq⟩ := List.mem_map.mp hcode
      exact heq ▸ h c hc
  · intro hspelled
    rcases hspelled with hs | ⟨bs, hbs, -, hcodes⟩
    · rw [← String.toList_ofList (l := cs)]
      exact .text hs
    · exact .bytes hbs hcodes

theorem hash_iff {v : Value} {s : String} : (spelling v).text? = some s ∧ Spells s ↔
    Reads v s.toList ∧ (s.toList.length = 40 ∨ s.toList.length = 7) ∧
      List.Forall₂ HexFor s.toList (s.toList.map Char.toLower) := by
  have hspelled : Spells s → (Reads v s.toList ↔ (spelling v).text? = some s) := by
    intro hspells
    rw [reads_iff fun c hc => isHexDigit_ascii (hspells.2 c hc), String.ofList_toList]
  have hspells : Spells s ↔ (s.toList.length = 40 ∨ s.toList.length = 7) ∧
      List.Forall₂ HexFor s.toList (s.toList.map Char.toLower) := by
    rw [hexFor_lower, Spells]
    simp [fullLength, shortLength]
  rw [← hspells]
  exact and_congr_left fun h => (hspelled h).symm

theorem names_iff {v w : Value} : Names v w ↔ ∃ t, Means v t ∧ w = t.form v := by
  constructor
  · intro h
    cases h with
    | @number n hn hlow hhigh => exact ⟨.number n, .number hn (by omega) (by omega), rfl⟩
    | keyword hkeyword => exact ⟨.recent, .recent hkeyword, rfl⟩
    | @hash s hs hspells =>
      obtain ⟨hreads, hlength, hdigits⟩ := hash_iff.mp ⟨hs, hspells⟩
      exact ⟨_, .hash hreads hlength hdigits, rfl⟩
  · rintro ⟨t, ht, rfl⟩
    cases ht with
    | number hn hlow hhigh => exact .number hn (by omega) (by omega)
    | recent hkeyword => exact .keyword hkeyword
    | @hash cs ds hreads hlength hdigits =>
      obtain ⟨-, rfl⟩ := hexFor_lower.mp hdigits
      rw [← String.toList_ofList (l := cs)] at hreads hlength hdigits
      obtain ⟨hs, hspells⟩ := hash_iff.mpr ⟨hreads, hlength, by rwa [String.toList_ofList] at hdigits ⊢⟩
      have hform := Names.hash hs hspells
      rwa [String.toList_ofList] at hform

/-! ## Normal forms -/

def Target.scalar : Target → Scalar
  | .number n => .number (.whole n)
  | .recent => .text "recently-active"
  | .hash digits => .text (String.ofList digits)

section
variable {v w : Value} {t u : Target}

theorem Means.form_scalar (h : Means v t) : (t.form v).scalar? = some t.scalar := by
  cases h with
  | number hn _ _ => exact int?_scalar hn
  | recent _ => rfl
  | hash _ _ _ => rfl

theorem Means.not_keyword {ds : List Char} (h : Means v (.hash ds)) : String.ofList ds ≠ "recently-active" := by
  intro heq
  cases h with
  | hash _ hlength hdigits =>
    rw [hdigits.length_eq, ← String.toList_ofList (l := ds), heq] at hlength
    exact absurd hlength (by decide)

/-- Normal forms are the same exactly if they are of one target. -/
theorem Means.form_same (hv : Means v t) (hw : Means w u) : (t.form v).same (u.form w) = true ↔ t = u := by
  have hsame : (t.form v).same (u.form w) = true ↔ t.scalar.same u.scalar = true := by
    rw [same_of_scalar hv.form_scalar, sameLeaf_iff]
    simp [hv.form_scalar, hw.form_scalar]
  rw [hsame]
  cases t with
  | number m => cases u <;> simp [Target.scalar, Scalar.same, Quantity.same]
  | recent =>
    cases u with
    | hash ds => simp [Target.scalar, Scalar.same, hw.not_keyword.symm]
    | _ => simp [Target.scalar, Scalar.same]
  | hash ds =>
    cases u with
    | hash ds' => simp [Target.scalar, Scalar.same, String.ofList_inj]
    | recent => simp [Target.scalar, Scalar.same, hv.not_keyword]
    | number n => simp [Target.scalar, Scalar.same]

theorem Means.unique (hv : Means v t) (hw : Means v u) : t = u := by
  have hforms := (Except.ok.inj ((check_iff.mpr (names_iff.mpr ⟨t, hv, rfl⟩)).symm.trans
    (check_iff.mpr (names_iff.mpr ⟨u, hw, rfl⟩))))
  exact (hv.form_same hw).mp (hforms ▸ same_refl _)

theorem Means.form_means (h : Means v t) : Means (t.form v) t ∧ t.form (t.form v) = t.form v := by
  refine ⟨?_, by cases t <;> rfl⟩
  cases h with
  | number hn hlow hhigh => exact .number hn hlow hhigh
  | recent hkeyword => exact .recent rfl
  | @hash cs ds hreads hlength hdigits =>
    have htext : Reads (.text (String.ofList ds)) (String.ofList ds).toList := .text rfl
    rw [String.toList_ofList] at htext
    rw [hdigits.length_eq] at hlength
    exact .hash htext hlength (hexFor_again hdigits)

end

/-- A value that means something, and its wire form. -/
def HasForm (v w : Value) : Prop :=
  ∃ t, Means v t ∧ w = t.form v

theorem HasForm.again {v w : Value} (h : HasForm v w) : HasForm w w := by
  obtain ⟨t, ht, rfl⟩ := h
  exact ⟨t, ht.form_means.1, ht.form_means.2.symm⟩

theorem names_eq : Names = HasForm := by
  funext v w
  exact propext names_iff

theorem named_iff {v : Value} : (∃ w, Names v w) ↔ ∃ t, Means v t := by
  simp only [names_iff]
  constructor
  · rintro ⟨-, t, ht, -⟩
    exact ⟨t, ht⟩
  · rintro ⟨t, ht⟩
    exact ⟨_, t, ht, rfl⟩

section
variable {ids ws : List Value}

theorem checkAll_none : checkAll ids = .ok none ↔ ids = [] := by
  rw [checkAll_iff]
  constructor
  · rintro ⟨ws, hws, h⟩
    cases hws with
    | nil => rfl
    | cons => cases h
  · rintro rfl
    exact ⟨[], .nil, rfl⟩

theorem checkAll_some : checkAll ids = .ok (some ws) ↔ ids ≠ [] ∧ List.Forall₂ HasForm ids ws := by
  rw [checkAll_iff, names_eq]
  constructor
  · rintro ⟨ws', hws, h⟩
    cases hws with
    | nil => cases h
    | cons hw hws =>
      cases h
      exact ⟨List.cons_ne_nil _ _, .cons hw hws⟩
  · rintro ⟨hne, hws⟩
    cases hws with
    | nil => exact absurd rfl hne
    | cons hw hws => exact ⟨_, .cons hw hws, rfl⟩

theorem checkAll_again (h : checkAll ids = .ok (some ws)) : checkAll ws = .ok (some ws) := by
  obtain ⟨hne, hforms⟩ := checkAll_some.mp h
  have hagain : ∀ {ids ws}, List.Forall₂ HasForm ids ws → List.Forall₂ HasForm ws ws := by
    intro ids ws hforms
    induction hforms with
    | nil => exact .nil
    | cons hform _ ih => exact .cons hform.again ih
  refine checkAll_some.mpr ⟨fun hnil => ?_, hagain hforms⟩
  rw [hnil] at hforms
  exact hne (List.forall₂_nil_right_iff.mp hforms)

end

/-- A list and its normal form: item by item, with nothing left to normalise, and with items that are the same
exactly where those of the list mean the same. -/
structure Normalises (ids ws : List Value) : Prop where
  forms : List.Forall₂ (fun v w => ∃ t, Means v t ∧ w = t.form v) ids ws
  again : checkAll ws = .ok (some ws)
  agree : ∀ p ∈ ids.zip ws, ∀ q ∈ ids.zip ws, p.2.same q.2 = true ↔ ∃ t, Means p.1 t ∧ Means q.1 t

theorem normalises_of_checkAll {ids ws : List Value} (h : checkAll ids = .ok (some ws)) : Normalises ids ws := by
  have hforms := (checkAll_some.mp h).2
  refine ⟨hforms, checkAll_again h, fun p hp q hq => ?_⟩
  obtain ⟨t, hpt, hpform⟩ := (List.forall₂_iff_zip.mp hforms).2 hp
  obtain ⟨u, hqu, hqform⟩ := (List.forall₂_iff_zip.mp hforms).2 hq
  rw [hpform, hqform, hpt.form_same hqu]
  constructor
  · rintro rfl
    exact ⟨t, hpt, hqu⟩
  · rintro ⟨t', hpt', hqt'⟩
    rw [hpt.unique hpt', hqu.unique hqt']

theorem normal_form (ids : List Value) : (checkAll ids = .ok none ↔ ids = []) ∧
    ((∃ checked, checkAll ids = .ok checked) ↔ ∀ v ∈ ids, ∃ t, Means v t) ∧
    ∀ ws, checkAll ids = .ok (some ws) → Normalises ids ws := by
  refine ⟨checkAll_none, ?_, fun ws => normalises_of_checkAll⟩
  rw [checkAll_ok_iff]
  simp only [named_iff]

def mixedIds : List Value := [.member (.priority .low), .text "a0B1C2d",
  .buffer [0x41, 0x30, 0x62, 0x31, 0x63, 0x32, 0x64], .text "recently-active"]

theorem normal_form_mixed : Normalises mixedIds
    [.member (.priority .low), .text "a0b1c2d", .text "a0b1c2d", .text "recently-active"] :=
  (normal_form mixedIds).2.2 _ rfl

/-! ## What is reported -/

def IsAsciiBytes (v : Value) : Prop :=
  ∃ bs, v.byteContent? = some bs ∧ ∀ b ∈ bs, b.toNat < 128

/-- What the error for a value carries. -/
inductive ReportedAs (v : Value) : Value → Prop
  | given : ¬ IsAsciiBytes v → ReportedAs v v
  | text {bs : List UInt8} {s : String} : v.byteContent? = some bs → (∀ b ∈ bs, b.toNat < 128) →
      bs.map UInt8.toNat = s.toList.map Char.toNat → ReportedAs v (.text s)

theorem ReportedAs.eq_iff {v r : Value} (h : ReportedAs v r) : r = v ↔ ¬ IsAsciiBytes v := by
  cases h with
  | given hbytes => exact iff_of_true rfl hbytes
  | text hbs hascii _ =>
    refine iff_of_false ?_ (not_not.mpr ⟨_, hbs, hascii⟩)
    rintro rfl
    cases hbs

theorem spelling_reported (v : Value) : ReportedAs v (spelling v) := by
  have hcontent : ∀ bs, v.byteContent? = some bs → spelling v = ((asciiText? bs).map .text).getD v := by
    intro bs hbs
    cases v <;> cases hbs <;> rfl
  by_cases h : IsAsciiBytes v
  · obtain ⟨bs, hbs, hascii⟩ := h
    obtain ⟨s, hs⟩ : ∃ s, asciiText? bs = some s := asciiText?_exists.mpr hascii
    rw [hcontent bs hbs, hs]
    exact .text hbs hascii (asciiText?_iff.mp hs).2
  · have hsame : spelling v = v := by
      cases hbs : v.byteContent? with
      | none => cases v <;> first | rfl | cases hbs
      | some bs =>
        have hnone : asciiText? bs = none := by
          cases hs : asciiText? bs with
          | none => rfl
          | some s => exact absurd ⟨bs, hbs, (asciiText?_iff.mp hs).1⟩ h
        rw [hcontent bs hbs, hnone]
        rfl
    rw [hsame]
    exact .given h

/-- The first value without a meaning is reported if it can be shown, and it is so as it was given unless it is bytes
in ASCII. -/
theorem first_unknown_reported {ids : List Value} (h : ∃ v ∈ ids, ∀ t, ¬ Means v t) :
    ∃ front v rest r, ids = front ++ v :: rest ∧ (∀ u ∈ front, ∃ t, Means u t) ∧ (∀ t, ¬ Means v t) ∧
      checkAll ids = .error (if v.hasText then .client (.identifier r) else .integerTooLong) ∧
      ReportedAs v r ∧ (r = v ↔ ¬ IsAsciiBytes v) := by
  cases hcheck : checkAll ids with
  | ok checked =>
    obtain ⟨v, hv, hnone⟩ := h
    obtain ⟨t, ht⟩ := named_iff.mp (checkAll_ok_iff.mp ⟨checked, hcheck⟩ v hv)
    exact absurd ht (hnone t)
  | error e =>
    obtain ⟨front, v, rest, hids, hfront, hnone, rfl⟩ := checkAll_error_iff.mp hcheck
    have hmeans : ∀ t, ¬ Means v t := by
      intro t ht
      obtain ⟨w, hw⟩ := named_iff.mpr ⟨t, ht⟩
      exact hnone w hw
    have hreported := spelling_reported v
    exact ⟨front, v, rest, _, hids, fun u hu => named_iff.mp (hfront u hu), hmeans,
      congrArg _ (refusal_eq v), hreported,
      hreported.eq_iff⟩

theorem unknown_of_error {v : Value} {e : Failure} (h : check v = .error e) (t : Target) : ¬ Means v t := by
  intro ht
  rw [check_iff.mpr (names_iff.mpr ⟨t, ht, rfl⟩)] at h
  cases h

/-- A byte that is not ASCII is reported before a text that is no hash. -/
theorem first_unknown_reported_foreign : ∃ front v rest r,
    [.int 7, .buffer [0xFF], .text "nope"] = front ++ v :: rest ∧ (∀ u ∈ front, ∃ t, Means u t) ∧
      (∀ t, ¬ Means v t) ∧ checkAll [.int 7, .buffer [0xFF], .text "nope"] =
        .error (if v.hasText then .client (.identifier r) else .integerTooLong) ∧
      ReportedAs v r ∧ (r = v ↔ ¬ IsAsciiBytes v) :=
  first_unknown_reported ⟨.text "nope", by simp, unknown_of_error (e := .client (.identifier (.text "nope"))) rfl⟩

theorem ascii_bytes_retold : checkAll [.bytes [0x78, 0x79, 0x7A]] = .error (.client (.identifier (.text "xyz"))) ∧
    ¬ ∀ ids, (∃ v ∈ ids, ∀ t, ¬ Means v t) → ∃ front v rest, ids = front ++ v :: rest ∧
      (∀ u ∈ front, ∃ t, Means u t) ∧ (∀ t, ¬ Means v t) ∧ checkAll ids = .error (.client (.identifier v)) := by
  have hcheck : checkAll [.bytes [0x78, 0x79, 0x7A]] = .error (.client (.identifier (.text "xyz"))) := rfl
  have hunknown : check (.bytes [0x78, 0x79, 0x7A]) = .error (.client (.identifier (.text "xyz"))) := rfl
  refine ⟨hcheck, fun h => ?_⟩
  obtain ⟨front, v, rest, hids, -, -, hreported⟩ := h _ ⟨_, List.mem_singleton.mpr rfl, unknown_of_error hunknown⟩
  have hv : v = .bytes [0x78, 0x79, 0x7A] := by
    have hmem : v ∈ [Value.bytes [0x78, 0x79, 0x7A]] := hids ▸ List.mem_append_right _ List.mem_cons_self
    exact List.mem_singleton.mp hmem
  rw [hcheck, hv] at hreported
  cases hreported

end Identifier

end TorrentRemote
