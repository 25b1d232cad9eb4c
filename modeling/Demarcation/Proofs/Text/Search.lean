/-
What looking inside a text finds, told by how the text is put together: of a beginning and a rest, of a
rest and an end, of pieces with a character between them, of blanks around what trimming leaves.
-/
import Demarcation.Text.Blank
import Demarcation.Text.Search
import Mathlib.Data.List.DropRight

namespace Demarcation.Text

/-! ## Beginnings and ends -/

theorem after?_eq_some_iff {head s rest : List Char} : after? head s = some rest ↔ s = head ++ rest := by
  induction head generalizing s with
  | nil => simp [after?]
  | cons h head ih =>
    cases s with
    | nil => simp [after?]
    | cons c s =>
      by_cases hc : h = c
      · subst hc
        simp [after?, ih]
      · simp [after?, hc, Ne.symm hc]

@[simp] theorem after?_append (head rest : List Char) : after? head (head ++ rest) = some rest :=
  after?_eq_some_iff.2 rfl

theorem before?_eq_some_iff {tail s rest : List Char} : before? tail s = some rest ↔ s = rest ++ tail := by
  unfold before?
  simp only [Option.map_eq_some_iff, after?_eq_some_iff]
  constructor
  · rintro ⟨back, hs, rfl⟩
    have h := congrArg List.reverse hs
    simpa using h
  · rintro rfl
    exact ⟨rest.reverse, by simp, by simp⟩

/-! ## Pieces -/

theorem splitAt_eq_splitOn (c : Char) (s : List Char) : splitAt c s = s.splitOn c := by
  induction s with
  | nil => rfl
  | cons x s ih =>
    rw [List.splitOn_cons_eq_if_modifyHead, splitAt, ih]
    cases hs : s.splitOn c with
    | nil => exact absurd hs (List.splitOn_ne_nil c s)
    | cons piece pieces => simp

theorem splitAt_ne_nil (c : Char) (s : List Char) : splitAt c s ≠ [] := by
  rw [splitAt_eq_splitOn]
  exact List.splitOn_ne_nil c s

theorem splitAt_free {c : Char} {s piece : List Char} (h : piece ∈ splitAt c s) : c ∉ piece := by
  induction s generalizing piece with
  | nil =>
    obtain rfl := List.mem_singleton.1 h
    exact List.not_mem_nil
  | cons x s ih =>
    obtain ⟨first, rest, hs⟩ := List.exists_cons_of_ne_nil (splitAt_ne_nil c s)
    simp only [splitAt, hs] at h
    rw [hs] at ih
    split at h
    · rcases List.mem_cons.1 h with rfl | h
      · exact List.not_mem_nil
      · exact ih h
    · rename_i hx
      rcases List.mem_cons.1 h with rfl | h
      · simp [Ne.symm hx, ih (List.mem_cons_self ..)]
      · exact ih (List.mem_cons_of_mem _ h)

/-- The pieces of a text: without the character themselves, and the text when it is put between them. -/
theorem splitAt_eq_iff {c : Char} {s : List Char} {pieces : List (List Char)} :
    splitAt c s = pieces ↔
      pieces ≠ [] ∧ (∀ piece ∈ pieces, c ∉ piece) ∧ s = [c].intercalate pieces := by
  constructor
  · rintro rfl
    refine ⟨splitAt_ne_nil c s, fun piece => splitAt_free, ?_⟩
    rw [splitAt_eq_splitOn, List.intercalate_splitOn]
  · rintro ⟨hne, hfree, rfl⟩
    rw [splitAt_eq_splitOn]
    exact List.splitOn_intercalate c hfree hne

/-! ## Blanks -/

/-- Blanks and nothing else. -/
def Blanks (s : List Char) : Prop := ∀ c ∈ s, isBlank c = true

instance (s : List Char) : Decidable (Blanks s) := List.decidableBAll _ s

/-- `w` is what `s` holds between the blanks at its beginning and those at its end. -/
structure Trims (s w : List Char) : Prop where
  around : ∃ before after, Blanks before ∧ Blanks after ∧ s = before ++ w ++ after
  first : ∀ c ∈ w.head?, isBlank c = false
  last : ∀ c ∈ w.getLast?, isBlank c = false

theorem blanks_nil : Blanks [] := by simp [Blanks]

theorem Blanks.not_mem {s : List Char} {c : Char} (h : Blanks s) (hc : isBlank c = false) : c ∉ s := by
  intro hmem
  rw [h c hmem] at hc
  cases hc

theorem Blanks.reverse {s : List Char} (h : Blanks s) : Blanks s.reverse := by
  intro c hc
  exact h c (List.mem_reverse.1 hc)

theorem trim_append_blanks {before after : List Char} (hbefore : Blanks before) (hafter : Blanks after)
    (s : List Char) : trim (before ++ s ++ after) = trim s := by
  unfold trim
  rw [List.append_assoc, List.dropWhile_append_of_pos hbefore, List.dropWhile_append]
  split
  · rename_i hs
    rw [List.dropWhile_eq_nil_iff.2 hafter, List.isEmpty_iff.1 hs]
  · rw [List.reverse_append, List.dropWhile_append_of_pos hafter.reverse]

theorem trim_blanks {s : List Char} (h : Blanks s) : trim s = [] := by
  have hs := trim_append_blanks h blanks_nil []
  simpa [trim] using hs

theorem dropWhile_first {s : List Char} {c : Char} (h : c ∈ (s.dropWhile isBlank).head?) :
    isBlank c = false := by
  have hfirst := List.head?_dropWhile_not isBlank s
  rw [Option.mem_def.1 h] at hfirst
  exact hfirst

theorem dropWhile_eq_self {w : List Char} (h : ∀ c ∈ w.head?, isBlank c = false) :
    w.dropWhile isBlank = w := by
  cases w with
  | nil => rfl
  | cons c w => simp [h c rfl]

theorem trim_eq_self {w : List Char} (hfirst : ∀ c ∈ w.head?, isBlank c = false)
    (hlast : ∀ c ∈ w.getLast?, isBlank c = false) : trim w = w := by
  unfold trim
  rw [dropWhile_eq_self hfirst, dropWhile_eq_self (by simpa using hlast), List.reverse_reverse]

theorem trims_trim (s : List Char) : Trims s (trim s) := by
  have hfront : s.takeWhile isBlank ++ s.dropWhile isBlank = s := List.takeWhile_append_dropWhile
  have hback : trim s ++ (s.dropWhile isBlank).rtakeWhile isBlank = s.dropWhile isBlank :=
    List.rdropWhile_append_rtakeWhile ..
  refine ⟨⟨s.takeWhile isBlank, (s.dropWhile isBlank).rtakeWhile isBlank, ?before, ?after, ?whole⟩, ?first, ?last⟩
  case before => exact fun c hc => List.mem_takeWhile_imp hc
  case after => exact fun c hc => List.mem_rtakeWhile_imp hc
  case whole => rw [List.append_assoc, hback, hfront]
  case first =>
    intro c hc
    refine dropWhile_first (s := s) ?_
    rw [← hback, List.head?_append, Option.mem_def.1 hc]
    rfl
  case last =>
    intro c hc
    refine dropWhile_first (s := (s.dropWhile isBlank).reverse) ?_
    simpa [trim] using hc

/-- Trimming is told by what it leaves. -/
theorem trim_eq_iff {s w : List Char} : trim s = w ↔ Trims s w := by
  constructor
  · rintro rfl
    exact trims_trim s
  · rintro ⟨⟨before, after, hbefore, hafter, rfl⟩, hfirst, hlast⟩
    rw [trim_append_blanks hbefore hafter, trim_eq_self hfirst hlast]

end Demarcation.Text
