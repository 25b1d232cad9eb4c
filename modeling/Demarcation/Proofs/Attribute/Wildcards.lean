/-
The language of a pattern. It holds the texts that can be had from the pattern by putting a text for each
star, and matching decides it.
-/
import Demarcation.Attribute.NameMatch
import Demarcation.Proofs.Text.Search

namespace Demarcation.Pattern

open Demarcation.Text

/-- A text that can be had from a pattern by putting a text for each of its stars. -/
inductive Covers : List Char → List Char → Prop
  | nil : Covers [] []
  | char {c : Char} {pattern s : List Char} (plain : c ≠ '*') (rest : Covers pattern s) :
      Covers (c :: pattern) (c :: s)
  | star (run : List Char) {pattern s : List Char} (rest : Covers pattern s) :
      Covers ('*' :: pattern) (run ++ s)

theorem covers_star {pattern s : List Char} :
    Covers ('*' :: pattern) s ↔ ∃ run rest, s = run ++ rest ∧ Covers pattern rest := by
  constructor
  · intro h
    cases h with
    | char plain rest => exact absurd rfl plain
    | star run rest => exact ⟨run, _, rfl, rest⟩
  · rintro ⟨run, rest, rfl, h⟩
    exact .star run h

/-- Without a star a beginning stands for itself. -/
theorem covers_append {head pattern s : List Char} (hfree : '*' ∉ head) :
    Covers (head ++ pattern) s ↔ ∃ rest, s = head ++ rest ∧ Covers pattern rest := by
  induction head generalizing s with
  | nil => simp
  | cons c head ih =>
    obtain ⟨hc, hhead⟩ := not_or.1 (mt List.mem_cons.2 hfree)
    constructor
    · intro h
      cases h with
      | char _ htail =>
        obtain ⟨rest, rfl, hrest⟩ := (ih hhead).1 htail
        exact ⟨rest, rfl, hrest⟩
      | star _ _ => exact absurd rfl hc
    · rintro ⟨rest, rfl, hrest⟩
      exact .char (Ne.symm hc) ((ih hhead).2 ⟨rest, rfl, hrest⟩)

theorem covers_free {pattern s : List Char} (hfree : '*' ∉ pattern) : Covers pattern s ↔ s = pattern := by
  have happend := @covers_append pattern [] s hfree
  rw [List.append_nil] at happend
  rw [happend]
  constructor
  · rintro ⟨rest, rfl, hrest⟩
    cases hrest
    exact List.append_nil pattern
  · rintro rfl
    exact ⟨[], (List.append_nil _).symm, .nil⟩

theorem covers_self (pattern : List Char) : Covers pattern pattern := by
  induction pattern with
  | nil => exact .nil
  | cons c pattern ih =>
    by_cases hc : c = '*'
    · subst hc
      exact .star ['*'] ih
    · exact .char hc ih

/-! ## Matching -/

theorem anySuffix_iff {accepts : List Char → Bool} {s : List Char} :
    anySuffix accepts s = true ↔ ∃ run rest, s = run ++ rest ∧ accepts rest = true := by
  induction s with
  | nil => simp [anySuffix]
  | cons c s ih =>
    simp only [anySuffix, Bool.or_eq_true, ih]
    constructor
    · rintro (h | ⟨run, rest, rfl, h⟩)
      · exact ⟨[], c :: s, rfl, h⟩
      · exact ⟨c :: run, rest, rfl, h⟩
    · rintro ⟨run, rest, hs, h⟩
      cases run with
      | nil =>
        obtain rfl : c :: s = rest := hs
        exact .inl h
      | cons d run =>
        obtain ⟨-, rfl⟩ := List.cons.inj hs
        exact .inr ⟨run, rest, rfl, h⟩

/-- After the piece before a star the star can take any run. Of a star that ends the pattern nothing is
tried, since it takes whatever is left. -/
theorem matchesPieces_cons_cons {head next s : List Char} {rest : List (List Char)} :
    matchesPieces (head :: next :: rest) s = true ↔
      ∃ run tail, s = head ++ (run ++ tail) ∧ matchesPieces (next :: rest) tail = true := by
  by_cases hlast : next = [] ∧ rest = []
  · obtain ⟨rfl, rfl⟩ := hlast
    rw [matchesPieces, Option.isSome_iff_exists]
    simp only [after?_eq_some_iff]
    constructor
    · rintro ⟨run, rfl⟩
      exact ⟨run, [], by rw [List.append_nil], rfl⟩
    · rintro ⟨run, tail, rfl, _⟩
      exact ⟨run ++ tail, rfl⟩
  · rw [matchesPieces]
    · cases hafter : after? head s with
      | none =>
        refine iff_of_false Bool.false_ne_true ?_
        rintro ⟨run, tail, rfl, _⟩
        rw [after?_append] at hafter
        cases hafter
      | some remaining =>
        obtain rfl := after?_eq_some_iff.1 hafter
        simp only [anySuffix_iff, List.append_cancel_left_eq]
    · exact fun hnext hrest => hlast ⟨hnext, hrest⟩

/-- The pieces of a pattern match what the pattern covers. -/
theorem matchesPieces_iff {pieces : List (List Char)} {s : List Char} (hne : pieces ≠ [])
    (hfree : ∀ piece ∈ pieces, '*' ∉ piece) :
    matchesPieces pieces s = true ↔ Covers (['*'].intercalate pieces) s := by
  induction pieces generalizing s with
  | nil => exact absurd rfl hne
  | cons head pieces ih =>
    obtain ⟨hhead, htail⟩ := List.forall_mem_cons.1 hfree
    cases pieces with
    | nil => rw [List.intercalate_singleton, covers_free hhead, matchesPieces, beq_iff_eq]
    | cons next rest =>
      rw [List.intercalate_cons_cons, List.append_assoc, List.singleton_append, covers_append hhead]
      simp only [matchesPieces_cons_cons, ih (List.cons_ne_nil next rest) htail, covers_star]
      constructor
      · rintro ⟨run, tail, rfl, hcovers⟩
        exact ⟨run ++ tail, rfl, run, tail, rfl, hcovers⟩
      · rintro ⟨_, rfl, run, tail, rfl, hcovers⟩
        exact ⟨run, tail, rfl, hcovers⟩

/-- Matching decides the language of the pattern. -/
theorem isMatch_iff {pattern text : String} : isMatch pattern text = true ↔ Covers pattern.toList text.toList := by
  obtain ⟨hne, hfree, hpattern⟩ := splitAt_eq_iff.1 (rfl : splitAt '*' pattern.toList = _)
  rw [isMatch, matchesPieces_iff hne hfree, ← hpattern]

end Demarcation.Pattern
