import Mathlib.Data.List.Forall2
import TorrentRemote.Text.Blank
import TorrentRemote.Text.Lines

/-!
# Texts of lines

A text that is put together from lines, each with an end of one of the three kinds, is cut into these lines again:
`Consists.lines`. White space around a line is taken off it without touching the line: `trim_around`.
-/

namespace TorrentRemote.Text

/-! ## White space at the ends -/

section
variable {cs : List Char} (front back : List Char) (hback : ∀ c ∈ back, isBlank c = true)
  (hlast : ∀ c, cs.getLast? = some c → isBlank c = false)
include hback hlast

theorem trimEnd_around : trimEnd isBlank (cs ++ back) = cs := by
  have hrest : cs.reverse.dropWhile isBlank = cs.reverse := by
    cases hcs : cs.reverse with
    | nil => rfl
    | cons c rest =>
      have hc : cs.getLast? = some c := by rw [← List.head?_reverse, hcs, List.head?_cons]
      exact List.dropWhile_cons_of_neg (by simp [hlast c hc])
  unfold trimEnd
  rw [List.reverse_append, List.dropWhile_append_of_pos (by simpa using hback), hrest, List.reverse_reverse]

theorem trim_around (hfront : ∀ c ∈ front, isBlank c = true) (hhead : ∀ c, cs.head? = some c → isBlank c = false) :
    trim (front ++ cs ++ back) = cs := by
  unfold trim trimBy
  rw [List.append_assoc, List.dropWhile_append_of_pos hfront]
  cases cs with
  | nil =>
    rw [List.nil_append, ← List.append_nil back, List.dropWhile_append_of_pos hback]
    rfl
  | cons c rest =>
    rw [List.cons_append, List.dropWhile_cons_of_neg (by simp [hhead c rfl])]
    exact trimEnd_around back hback hlast

end

/-! ## Lines and their ends -/

theorem forall_mem_of_all {p : Char → Prop} [DecidablePred p] {cs : List Char}
    (h : cs.all (fun c => decide (p c)) = true) :
    ∀ c ∈ cs, p c := by
  simpa using h

def lineEnds : List (List Char) := [['\n'], ['\r'], ['\r', '\n']]

/-- A line that is not empty and has no end inside. -/
def IsLine (line : List Char) : Prop :=
  line ≠ [] ∧ ∀ c ∈ line, c ≠ '\n' ∧ c ≠ '\r'

/-- A text consists of lines. The last one may have no end. -/
inductive Consists : List (List Char) → List Char → Prop
  | nil : Consists [] []
  | last (line : List Char) : Consists [line] line
  | cons (line : List Char) {stop cs : List Char} {rest : List (List Char)} : stop ∈ lineEnds → Consists rest cs →
      Consists (line :: rest) (line ++ (stop ++ cs))

theorem IsLine.head_ne {line : List Char} (h : IsLine line) (rest : List Char) : (line ++ rest).head? ≠ some '\n' := by
  obtain ⟨hne, hline⟩ := h
  cases line with
  | nil => exact absurd rfl hne
  | cons c line =>
    intro hhead
    exact (hline c List.mem_cons_self).1 (Option.some.inj hhead)

theorem Consists.head_ne {ls : List (List Char)} {cs : List Char} (h : Consists ls cs)
    (hls : ∀ line ∈ ls, IsLine line) : cs.head? ≠ some '\n' := by
  cases h with
  | nil => nofun
  | last =>
    have hne := (hls cs List.mem_cons_self).head_ne []
    rwa [List.append_nil] at hne
  | cons line _ _ => exact (hls line List.mem_cons_self).head_ne _

theorem plainEnds_line {line : List Char} (h : ∀ c ∈ line, c ≠ '\n' ∧ c ≠ '\r') (rest : List Char) :
    plainEnds (line ++ rest) = line ++ plainEnds rest := by
  induction line with
  | nil => rfl
  | cons c line ih =>
    obtain ⟨hc, hline⟩ := List.forall_mem_cons.mp h
    rw [List.cons_append, plainEnds, ih hline]
    · rfl
    · exact fun _ heq _ => hc.2 heq
    · exact hc.2

theorem plainEnds_stop {stop cs : List Char} (h : stop ∈ lineEnds) (hcs : cs.head? ≠ some '\n') :
    plainEnds (stop ++ cs) = '\n' :: plainEnds cs := by
  simp only [lineEnds, List.mem_cons, List.not_mem_nil, or_false] at h
  rcases h with rfl | rfl | rfl
  · rfl
  · -- a line feed behind it would belong to the same end
    cases cs with
    | nil => rfl
    | cons c cs =>
      rw [List.singleton_append, plainEnds]
      rintro _ ⟨⟩
      exact hcs rfl
  · rfl

theorem cutLines_line {line : List Char} (h : ∀ c ∈ line, c ≠ '\n' ∧ c ≠ '\r') (rest : List Char) :
    cutLines (line ++ '\n' :: rest) = (line ++ ['\n']) :: cutLines rest := by
  induction line with
  | nil => rfl
  | cons c line ih =>
    obtain ⟨hc, hline⟩ := List.forall_mem_cons.mp h
    rw [List.cons_append, cutLines, ih hline]
    · rfl
    · exact hc.1

theorem cutLines_last {line : List Char} (h : IsLine line) : cutLines line = [line] := by
  obtain ⟨hne, hline⟩ := h
  induction line with
  | nil => exact absurd rfl hne
  | cons c line ih =>
    obtain ⟨hc, hline⟩ := List.forall_mem_cons.mp hline
    rw [cutLines]
    · cases line with
      | nil => rfl
      | cons d line => rw [ih (by simp) hline]; rfl
    · exact hc.1

/-- The lines of a text are those it consists of, with line feeds as their ends. -/
theorem Consists.lines {ls : List (List Char)} {cs : List Char} (h : Consists ls cs) (hls : ∀ line ∈ ls, IsLine line) :
    List.Forall₂ (fun line whole => whole = line ∨ whole = line ++ ['\n']) ls (lines cs) := by
  induction h with
  | nil => exact .nil
  | last line =>
    have hline := hls line List.mem_cons_self
    have hplain := plainEnds_line hline.2 []
    rw [List.append_nil] at hplain
    unfold Text.lines
    rw [hplain, show plainEnds [] = [] from rfl, List.append_nil, cutLines_last hline]
    exact .cons (.inl rfl) .nil
  | cons line hstop hrest ih =>
    obtain ⟨hline, hls⟩ := List.forall_mem_cons.mp hls
    unfold Text.lines
    rw [plainEnds_line hline.2, plainEnds_stop hstop (hrest.head_ne hls), cutLines_line hline.2]
    exact .cons (.inr rfl) (ih hls)

/-- Lines that end with line feeds are cut back, also where they are empty. -/
theorem lines_ended {ls : List (List Char)} (h : ∀ line ∈ ls, ∀ c ∈ line, c ≠ '\n' ∧ c ≠ '\r') :
    lines (ls.flatMap (· ++ ['\n'])) = ls.map (· ++ ['\n']) := by
  induction ls with
  | nil => rfl
  | cons line ls ih =>
    obtain ⟨hline, hls⟩ := List.forall_mem_cons.mp h
    have hfirst : plainEnds (line ++ '\n' :: ls.flatMap (· ++ ['\n'])) =
        line ++ '\n' :: plainEnds (ls.flatMap (· ++ ['\n'])) := plainEnds_line hline _
    rw [List.flatMap_cons, List.append_assoc, List.singleton_append, lines, hfirst, cutLines_line hline, List.map_cons]
    exact congrArg _ (ih hls)

end TorrentRemote.Text
