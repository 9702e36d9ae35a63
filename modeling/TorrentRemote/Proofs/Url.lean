import Mathlib.Data.List.TakeWhile
import TorrentRemote.Proofs.Except
import TorrentRemote.Proofs.Text.Percent
import TorrentRemote.Url

/-!
# Addresses taken apart and put together

An address of a scheme, an authority and a path is taken apart into them (`parse_ofParts`) and put together again
(`render_ofParts`). The user information of an authority ends at its last at sign, and the user's name at its first
colon.
-/

namespace TorrentRemote.Url

open Text.Percent (isUnreserved)

/-! ## Characters -/

def isAddressChar (c : Char) : Bool :=
  isUnreserved c || c = '%' || c = ':' || c = '@' || c = '/'

theorem unreserved_ne {c : Char} (h : isUnreserved c = true) : c ≠ ':' ∧ c ≠ '@' ∧ c ≠ '/' := by
  refine ⟨?_, ?_, ?_⟩ <;> rintro rfl <;> exact absurd h (by decide)

theorem alphanum_cases {c : Char} (h : c.isAlphanum = true) :
    65 ≤ c.toNat ∧ c.toNat ≤ 90 ∨ 97 ≤ c.toNat ∧ c.toNat ≤ 122 ∨ 48 ≤ c.toNat ∧ c.toNat ≤ 57 := by
  have hranges : ((decide (65 ≤ c.val ∧ c.val ≤ 90) || decide (97 ≤ c.val) && decide (c.val ≤ 122)) ||
      decide (48 ≤ c.val) && decide (c.val ≤ 57)) = true := h
  simpa [UInt32.le_iff_toNat_le, or_assoc] using hranges

theorem address_bounds {c : Char} (h : isAddressChar c = true) :
    32 < c.toNat ∧ c.toNat < 128 ∧ c ≠ '#' ∧ c ≠ '?' ∧ c ≠ '[' ∧ c ≠ ']' := by
  simp [isAddressChar, isUnreserved, ← Char.toNat_inj, or_assoc] at h ⊢
  rcases h with h | h
  · have := alphanum_cases h
    omega
  · omega

/-! ## Cuts -/

section
variable {p : Char → Bool} {cs rest : List Char} {d : Char}

theorem cutAt_none (h : ∀ c ∈ cs, p c = false) : cutAt p cs = (cs, none) := by
  have hdrop : (cs.dropWhile fun c => !p c) = [] := by
    rw [List.dropWhile_eq_nil_iff]
    intro c hc
    simp [h c hc]
  unfold cutAt
  rw [hdrop]

theorem cutAt_first (h : ∀ c ∈ cs, p c = false) (hd : p d = true) : cutAt p (cs ++ d :: rest) = (cs, some rest) := by
  have hinside : ∀ c ∈ cs, (!p c) = true := fun c hc => by simp [h c hc]
  unfold cutAt
  rw [List.dropWhile_append_of_pos hinside, List.takeWhile_append_of_pos hinside,
    List.dropWhile_cons_of_neg (by simp [hd]), List.takeWhile_cons_of_neg (by simp [hd]), List.append_nil]

end

section
variable {host : List Char} (h : ∀ c ∈ host, c ≠ '@')
include h

theorem cutUser_none : cutUser host = (none, host) := by
  have hcut : cutAt (· = '@') host.reverse = (host.reverse, none) :=
    cutAt_none fun c hc => by simp [h c (List.mem_reverse.mp hc)]
  unfold cutUser
  rw [hcut]

/-- At signs further to the front belong to the user information. -/
theorem cutUser_last (user : List Char) : cutUser (user ++ '@' :: host) = (some user, host) := by
  have hcut : cutAt (· = '@') (host.reverse ++ '@' :: user.reverse) = (host.reverse, some user.reverse) :=
    cutAt_first (fun c hc => by simp [h c (List.mem_reverse.mp hc)]) (by decide)
  have hreverse : (user ++ '@' :: host).reverse = host.reverse ++ '@' :: user.reverse := by simp
  unfold cutUser
  rw [hreverse, hcut]
  simp

end

theorem clean_eq {cs : List Char} (h : ∀ c ∈ cs, isAddressChar c = true) : clean cs = cs := by
  have hdrop : (cs.dropWhile fun c => c.toNat ≤ 32) = cs := by
    cases cs with
    | nil => rfl
    | cons c cs =>
      have := (address_bounds (h c List.mem_cons_self)).1
      exact List.dropWhile_cons_of_neg (by simp; omega)
  unfold clean
  rw [hdrop, List.filter_eq_self]
  intro c hc
  have hbound := (address_bounds (h c hc)).1
  have hne : ∀ d : Char, d.toNat ≤ 32 → c ≠ d := by
    rintro d hd rfl
    omega
  simp [hne]

theorem checkBrackets_ok {cs : List Char} (h : ∀ c ∈ cs, isAddressChar c = true) : checkBrackets cs = .ok () := by
  have hnone : ∀ d, isAddressChar d = false → cs.contains d = false := by
    intro d hd
    by_contra hmem
    have := h d (by simpa using hmem)
    simp [hd] at this
  unfold checkBrackets
  rw [hnone '[' (by decide), hnone ']' (by decide)]
  rfl

theorem checkFolding_ok {cs : List Char} (h : ∀ c ∈ cs, isAddressChar c = true) : checkFolding cs = .ok () := by
  have hall : ∀ n ∈ foldedDelimiters, 128 ≤ n := by decide
  unfold checkFolding
  rw [if_neg]
  intro hany
  obtain ⟨c, hc, hfold⟩ := List.any_eq_true.mp hany
  have hlarge := hall _ (by simpa using hfold)
  have hsmall := (address_bounds (h c hc)).2.1
  omega

/-! ## Parts -/

def IsWebScheme (scheme : String) : Prop := scheme = "http" ∨ scheme = "https"

/-- A path that starts at a slash and needs no percent signs. -/
structure IsPath (path : String) : Prop where
  head : path.toList.head? = some '/'
  plain : path.toList.all (fun c => isUnreserved c || c = '/') = true

theorem cutScheme_web {scheme : String} (h : IsWebScheme scheme) (rest : List Char) :
    cutScheme (scheme.toList ++ ':' :: rest) = (scheme.toList, rest) := by
  have hcolon : scheme.toList.all (fun c => !decide (c = ':')) = true := by
    rcases h with rfl | rfl <;> decide
  unfold cutScheme
  rw [cutAt_first (fun c hc => by simpa using List.all_eq_true.mp hcolon c hc) (by decide)]
  rcases h with rfl | rfl <;> rfl

section
variable {path : String} (hpath : IsPath path)
include hpath

theorem path_chars : ∀ c ∈ path.toList, isAddressChar c = true := by
  intro c hc
  have hplain : isUnreserved c = true ∨ c = '/' := by simpa using List.all_eq_true.mp hpath.plain c hc
  rcases hplain with h | rfl
  · simp [isAddressChar, h]
  · decide

theorem path_startsWith : path.startsWith "/" = true := by
  obtain ⟨tail, htail⟩ := List.head?_eq_some_iff.mp hpath.head
  rw [String.startsWith_string_iff, htail]
  exact ⟨tail, rfl⟩

theorem cutAuthority_path {authority : List Char} (h : ∀ c ∈ authority, isAddressChar c = true ∧ c ≠ '/') :
    cutAuthority ('/' :: '/' :: (authority ++ path.toList)) = (authority, path.toList) := by
  obtain ⟨tail, htail⟩ := List.head?_eq_some_iff.mp hpath.head
  have hinside : ∀ c ∈ authority, (c ≠ '/' && c ≠ '?' && c ≠ '#') = true := by
    intro c hc
    obtain ⟨hchar, hslash⟩ := h c hc
    obtain ⟨-, -, hsharp, hquestion, -⟩ := address_bounds hchar
    simp [hslash, hsharp, hquestion]
  rw [cutAuthority, List.takeWhile_append_of_pos hinside, List.dropWhile_append_of_pos hinside, htail]
  simp

theorem cutAt_path {d : Char} (hd : isAddressChar d = false) : cutAt (· = d) path.toList = (path.toList, none) := by
  refine cutAt_none fun c hc => decide_eq_false ?_
  rintro rfl
  rw [path_chars hpath c hc] at hd
  cases hd

end

/-! ## Taking apart and putting together -/

def ofParts (scheme authority path : String) : String :=
  scheme ++ "://" ++ authority ++ path

theorem ofParts_toList (scheme authority path : String) : (ofParts scheme authority path).toList =
    scheme.toList ++ ':' :: '/' :: '/' :: (authority.toList ++ path.toList) := by
  simp [ofParts]

section
variable {scheme authority path : String} (hscheme : IsWebScheme scheme) (hpath : IsPath path)
include hscheme hpath

theorem ofParts_chars (h : ∀ c ∈ authority.toList, isAddressChar c = true) :
    ∀ c ∈ (ofParts scheme authority path).toList, isAddressChar c = true := by
  have hfront : (scheme.toList ++ [':', '/', '/']).all isAddressChar = true := by
    rcases hscheme with rfl | rfl <;> decide
  intro c hc
  rw [ofParts_toList] at hc
  have hparts : c ∈ (scheme.toList ++ [':', '/', '/']) ++ (authority.toList ++ path.toList) := by simpa using hc
  rcases List.mem_append.mp hparts with hc | hc
  · exact List.all_eq_true.mp hfront c hc
  · rcases List.mem_append.mp hc with hc | hc
    · exact h c hc
    · exact path_chars hpath c hc

theorem parse_ofParts (h : ∀ c ∈ authority.toList, isAddressChar c = true ∧ c ≠ '/') :
    parse (ofParts scheme authority path) = .ok ⟨scheme, authority, path, "", ""⟩ := by
  have hauthority : ∀ c ∈ authority.toList, isAddressChar c = true := fun c hc => (h c hc).1
  have hsharp := cutAt_path hpath (d := '#') (by decide)
  have hquestion := cutAt_path hpath (d := '?') (by decide)
  unfold parse
  rw [clean_eq (ofParts_chars hscheme hpath hauthority), ofParts_toList, cutScheme_web hscheme]
  simp only [cutAuthority_path hpath h, hsharp, hquestion, checkBrackets_ok hauthority, checkFolding_ok hauthority,
    ok_bind, String.ofList_toList]
  rfl

theorem render_ofParts (h : authority ≠ "") :
    render ⟨scheme, authority, path, "", ""⟩ = ofParts scheme authority path := by
  have hslash := path_startsWith hpath
  have hscheme : scheme.isEmpty = false := by
    rcases hscheme with rfl | rfl <;> decide
  unfold render
  simp [hslash, hscheme, h, part, ← String.toList_inj, ofParts_toList]

end

end TorrentRemote.Url
