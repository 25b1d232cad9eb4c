/-
Matching as it goes over the bytes of a text. It cuts the pattern at its first star, the text behind what
stands before the star, and what is left of the text wherever a character begins and at the end. A cut inside a
character would be an error. None is met, matching ends, and the texts that it accepts are those that can be had
from the pattern by putting a text for each star.
-/
import Demarcation.Proofs.Attribute.Wildcards

namespace Demarcation.Pattern

/-! ## Cuts at byte offsets -/

/-- The two parts of a text before and behind a byte offset. An offset inside a character or behind the end is
no place for a cut, and gives nothing. -/
def cut? (s : String) (offset : Nat) : Option (String × String) :=
  if h : String.Pos.Raw.IsValid s ⟨offset⟩ then
    some ((s.sliceTo (s.pos ⟨offset⟩ h)).copy, (s.sliceFrom (s.pos ⟨offset⟩ h)).copy)
  else none

/-- The byte offsets at which characters begin, the first of them at `n`. -/
def offsetsFrom (n : Nat) : List Char → List Nat
  | [] => []
  | c :: s => n :: offsetsFrom (n + c.utf8Size) s

/-- The byte offsets at which the characters of a text begin, and its end. -/
def offsets (s : String) : List Nat := offsetsFrom 0 s.toList ++ [s.utf8ByteSize]

/-- The byte offset of the first star, counted from `n`. -/
def starFrom? (n : Nat) : List Char → Option Nat
  | [] => none
  | c :: s => if c = '*' then some n else starFrom? (n + c.utf8Size) s

theorem cut?_eq_some_iff {s before behind : String} {n : Nat} :
    cut? s n = some (before, behind) ↔ s = before ++ behind ∧ before.utf8ByteSize = n := by
  unfold cut?
  constructor
  · intro h
    split at h
    · rename_i hvalid
      cases h
      have hsplits := (s.pos ⟨n⟩ hvalid).splits
      have hoffset := congrArg String.Pos.Raw.byteIdx hsplits.offset_eq_rawEndPos
      exact ⟨hsplits.eq_append, hoffset.symm⟩
    · cases h
  · rintro ⟨rfl, rfl⟩
    have hvalid : String.Pos.Raw.IsValid (before ++ behind) ⟨before.utf8ByteSize⟩ :=
      String.Pos.Raw.isValid_iff_exists_append.2 ⟨before, behind, rfl, rfl⟩
    have hsplits : ((before ++ behind).pos ⟨before.utf8ByteSize⟩ hvalid).Splits before behind :=
      String.Pos.splits_append_rawEndPos
    rw [dif_pos hvalid, hsplits.copy_sliceTo_eq, hsplits.copy_sliceFrom_eq]

@[simp] theorem cut?_append (before behind : String) :
    cut? (before ++ behind) before.utf8ByteSize = some (before, behind) :=
  cut?_eq_some_iff.2 ⟨rfl, rfl⟩

theorem utf8ByteSize_ofList_cons (c : Char) (s : List Char) :
    (String.ofList (c :: s)).utf8ByteSize = c.utf8Size + (String.ofList s).utf8ByteSize := by
  rw [String.ofList_cons, String.utf8ByteSize_append, String.utf8ByteSize_singleton]

theorem mem_offsetsFrom {n m : Nat} {s : List Char} :
    m ∈ offsetsFrom n s ↔
      ∃ before c behind, s = before ++ c :: behind ∧ n + (String.ofList before).utf8ByteSize = m := by
  induction s generalizing n with
  | nil => simp [offsetsFrom]
  | cons c s ih =>
    simp only [offsetsFrom, List.mem_cons, ih]
    constructor
    · rintro (rfl | ⟨before, d, behind, rfl, hm⟩)
      · exact ⟨[], c, s, rfl, rfl⟩
      · refine ⟨c :: before, d, behind, rfl, ?_⟩
        rw [utf8ByteSize_ofList_cons]
        omega
    · rintro ⟨before, d, behind, hs, hm⟩
      cases before with
      | nil => exact .inl hm.symm
      | cons e before =>
        obtain ⟨rfl, rfl⟩ := List.cons.inj hs
        rw [utf8ByteSize_ofList_cons] at hm
        exact .inr ⟨before, d, behind, rfl, by omega⟩

/-- The offsets are the sizes of the beginnings of the text. -/
theorem mem_offsets_iff {s : String} {n : Nat} :
    n ∈ offsets s ↔ ∃ before behind, s = before ++ behind ∧ before.utf8ByteSize = n := by
  simp only [offsets, List.mem_append, List.mem_singleton, mem_offsetsFrom, Nat.zero_add]
  constructor
  · rintro (⟨before, c, behind, hs, rfl⟩ | rfl)
    · refine ⟨String.ofList before, String.ofList (c :: behind), ?_, rfl⟩
      rw [← String.ofList_append, ← hs, String.ofList_toList]
    · exact ⟨s, "", by simp, rfl⟩
  · rintro ⟨before, behind, rfl, rfl⟩
    cases hbehind : behind.toList with
    | nil =>
      obtain rfl := String.toList_eq_nil_iff.1 hbehind
      simp
    | cons c rest => exact .inl ⟨before.toList, c, rest, by simp [hbehind], by simp⟩

/-! ## The first star -/

theorem starFrom?_free {n : Nat} {s : List Char} (hfree : '*' ∉ s) : starFrom? n s = none := by
  induction s generalizing n with
  | nil => rfl
  | cons c s ih =>
    obtain ⟨hc, hs⟩ := not_or.1 (mt List.mem_cons.2 hfree)
    rw [starFrom?, if_neg (Ne.symm hc), ih hs]

theorem starFrom?_append {n : Nat} {head rest : List Char} (hfree : '*' ∉ head) :
    starFrom? n (head ++ '*' :: rest) = some (n + (String.ofList head).utf8ByteSize) := by
  induction head generalizing n with
  | nil => simp [starFrom?]
  | cons c head ih =>
    obtain ⟨hc, hhead⟩ := not_or.1 (mt List.mem_cons.2 hfree)
    rw [List.cons_append, starFrom?, if_neg (Ne.symm hc), ih hhead, utf8ByteSize_ofList_cons, Nat.add_assoc]

/-- What stands before and behind the first star of a pattern, or `some none` for a pattern without one. There
is no answer if the cut is inside a character. -/
def splitOnce? (pattern : String) : Option (Option (String × String)) :=
  match starFrom? 0 pattern.toList with
  | none => some none
  | some star => do
    let (head, tail) ← cut? pattern star
    let (_, rest) ← cut? tail 1
    pure (some (head, rest))

theorem splitOnce?_free {pattern : String} (hfree : '*' ∉ pattern.toList) : splitOnce? pattern = some none := by
  rw [splitOnce?, starFrom?_free hfree]

theorem splitOnce?_append {head rest : String} (hfree : '*' ∉ head.toList) :
    splitOnce? (head ++ ("*" ++ rest)) = some (some (head, rest)) := by
  have hstar : starFrom? 0 (head ++ ("*" ++ rest)).toList = some head.utf8ByteSize := by
    have hfirst := @starFrom?_append 0 head.toList rest.toList hfree
    simpa using hfirst
  have hone : cut? ("*" ++ rest) 1 = some ("*", rest) := cut?_append "*" rest
  rw [splitOnce?, hstar]
  simp [hone]

/-- Behind the star there is less of the pattern than before. -/
theorem size_of_splitOnce? {pattern head rest : String} (h : splitOnce? pattern = some (some (head, rest))) :
    rest.utf8ByteSize < pattern.utf8ByteSize := by
  unfold splitOnce? at h
  split at h
  · cases h
  · simp only [Option.bind_eq_bind, Option.bind_eq_some_iff, Option.pure_def, Option.some.injEq,
      Prod.mk.injEq, Prod.exists, cut?_eq_some_iff] at h
    obtain ⟨head, tail, ⟨rfl, -⟩, star, rest, ⟨rfl, hone⟩, rfl, rfl⟩ := h
    simp only [String.utf8ByteSize_append]
    omega

/-! ## Matching -/

/-- Whether a text matches a pattern, found by cuts. Behind the piece before the first star, every end of the
text is tried on the rest of the pattern, unless there is no rest. -/
def cutMatch? (pattern text : String) : Option Bool :=
  match _h : splitOnce? pattern with
  | none => none
  | some none => some (pattern == text)
  | some (some (head, rest)) =>
    if head.toList <+: text.toList then do
      let (_, text) ← cut? text head.utf8ByteSize
      if rest.isEmpty then pure true
      else
        (offsets text).anyM fun offset => do
          let (_, text) ← cut? text offset
          cutMatch? rest text
    else some false
termination_by pattern.utf8ByteSize
decreasing_by exact size_of_splitOnce? ‹_›

theorem anyM_eq_some {α : Type} {f : α → Option Bool} {g : α → Bool} {l : List α}
    (h : ∀ a ∈ l, f a = some (g a)) : l.anyM f = some (l.any g) := by
  induction l with
  | nil => rfl
  | cons a l ih =>
    obtain ⟨ha, hl⟩ := List.forall_mem_cons.1 h
    rw [List.anyM, ha]
    cases hg : g a
    · simpa [hg] using ih hl
    · simp [hg]

/-- Either there is no star, or a first one. -/
theorem free_or_first_star (pattern : String) :
    '*' ∉ pattern.toList ∨ ∃ head rest : String, '*' ∉ head.toList ∧ pattern = head ++ ("*" ++ rest) := by
  by_cases hstar : '*' ∈ pattern.toList
  · obtain ⟨head, rest, hpattern, hfree⟩ := List.eq_append_cons_of_mem hstar
    refine .inr ⟨String.ofList head, String.ofList rest, by simpa using hfree, String.toList_inj.1 ?_⟩
    simp [hpattern]
  · exact .inl hstar

/-- After the piece before the first star, some end of the text has to match what is behind the star. -/
theorem isMatch_star {head rest text : String} (hfree : '*' ∉ head.toList) :
    isMatch (head ++ ("*" ++ rest)) text = true ↔
      ∃ run tail, text = head ++ (run ++ tail) ∧ isMatch rest tail = true := by
  have hpattern : (head ++ ("*" ++ rest)).toList = head.toList ++ '*' :: rest.toList := by simp
  simp only [isMatch_iff, hpattern, covers_append hfree, covers_star]
  constructor
  · rintro ⟨_, htext, run, tail, rfl, htail⟩
    refine ⟨String.ofList run, String.ofList tail, String.toList_inj.1 ?_, by simpa using htail⟩
    simpa using htext
  · rintro ⟨run, tail, rfl, htail⟩
    exact ⟨run.toList ++ tail.toList, by simp, run.toList, tail.toList, rfl, htail⟩

theorem isMatch_free {pattern text : String} (hfree : '*' ∉ pattern.toList) :
    isMatch pattern text = true ↔ text = pattern := by
  rw [isMatch_iff, covers_free hfree, String.toList_inj]

/-- The tries at all offsets together find a matching end of the text if there is one. -/
theorem any_offset_iff {behind rest : String} :
    ((offsets behind).any fun n => (cut? behind n).any fun parts => isMatch rest parts.2) = true ↔
      ∃ run tail, behind = run ++ tail ∧ isMatch rest tail = true := by
  simp only [List.any_eq_true, mem_offsets_iff]
  constructor
  · rintro ⟨_, ⟨run, tail, rfl, rfl⟩, htail⟩
    rw [cut?_append] at htail
    exact ⟨run, tail, rfl, htail⟩
  · rintro ⟨run, tail, rfl, htail⟩
    exact ⟨_, ⟨run, tail, rfl, rfl⟩, by rwa [cut?_append]⟩

/-- No cut falls into a character, and matching by cuts ends with the answer of matching. -/
theorem cutMatch?_eq (pattern text : String) : cutMatch? pattern text = some (isMatch pattern text) := by
  induction hsize : pattern.utf8ByteSize using Nat.strong_induction_on generalizing pattern text with
  | _ size ih =>
    subst hsize
    rcases free_or_first_star pattern with hfree | ⟨head, rest, hfree, rfl⟩
    · rw [cutMatch?, splitOnce?_free hfree]
      refine congrArg some (Bool.eq_iff_iff.2 ?_)
      rw [isMatch_free hfree, beq_iff_eq, eq_comm]
    · have hrest := size_of_splitOnce? (@splitOnce?_append head rest hfree)
      rw [cutMatch?, splitOnce?_append hfree]
      dsimp only
      split
      case isTrue hhead =>
        obtain ⟨behind, hbehind⟩ := hhead
        obtain rfl : head ++ String.ofList behind = text := String.toList_inj.1 (by simpa using hbehind)
        rw [cut?_append]
        by_cases hend : rest = ""
        · -- a star at the end takes whatever is left
          subst hend
          have hmatch : isMatch (head ++ ("*" ++ "")) (head ++ String.ofList behind) = true :=
            (isMatch_star hfree).2 ⟨String.ofList behind, "", by simp, rfl⟩
          rw [hmatch]
          simp
        · have htries : ∀ n ∈ offsets (String.ofList behind),
              (do let (_, tail) ← cut? (String.ofList behind) n; cutMatch? rest tail) =
                some ((cut? (String.ofList behind) n).any fun parts => isMatch rest parts.2) := by
            intro n hn
            obtain ⟨run, tail, hparts, rfl⟩ := mem_offsets_iff.1 hn
            simp [hparts, ih _ hrest rest tail rfl]
          simp only [Option.bind_eq_bind, Option.bind_some, String.isEmpty_iff, hend, if_false]
          refine (anyM_eq_some htries).trans (congrArg some (Bool.eq_iff_iff.2 ?_))
          rw [any_offset_iff, isMatch_star hfree]
          simp only [String.append_right_inj]
      case isFalse hhead =>
        refine congrArg some (Bool.eq_iff_iff.2 ?_)
        rw [isMatch_star hfree]
        refine iff_of_false Bool.false_ne_true ?_
        rintro ⟨run, tail, rfl, -⟩
        exact hhead ⟨(run ++ tail).toList, by simp⟩

/-! ## Adjacent stars -/

/-- The pattern with one star in place of each run of stars. -/
def collapse : List Char → List Char
  | [] => []
  | c :: s => if c = '*' ∧ s.head? = some '*' then collapse s else c :: collapse s

theorem covers_two_stars {pattern s : List Char} : Covers ('*' :: '*' :: pattern) s ↔ Covers ('*' :: pattern) s := by
  simp only [covers_star]
  constructor
  · rintro ⟨run, _, rfl, more, rest, rfl, hrest⟩
    exact ⟨run ++ more, rest, by simp, hrest⟩
  · rintro ⟨run, rest, rfl, hrest⟩
    exact ⟨run, rest, rfl, [], rest, rfl, hrest⟩

theorem covers_cons_congr {p q : List Char} (h : ∀ s, Covers p s ↔ Covers q s) (c : Char) (s : List Char) :
    Covers (c :: p) s ↔ Covers (c :: q) s := by
  by_cases hc : c = '*'
  · subst hc
    simp only [covers_star, h]
  · have hfree : '*' ∉ [c] := by simpa using Ne.symm hc
    have happend : ∀ pattern, Covers (c :: pattern) s ↔ ∃ rest, s = [c] ++ rest ∧ Covers pattern rest :=
      fun pattern => @covers_append [c] pattern s hfree
    simp only [happend, h]

theorem covers_append_congr {p q : List Char} (h : ∀ s, Covers p s ↔ Covers q s) (before s : List Char) :
    Covers (before ++ p) s ↔ Covers (before ++ q) s := by
  induction before generalizing s with
  | nil => exact h s
  | cons c before ih => exact covers_cons_congr ih c s

theorem covers_collapse (pattern s : List Char) : Covers (collapse pattern) s ↔ Covers pattern s := by
  induction pattern generalizing s with
  | nil => rfl
  | cons c pattern ih =>
    rw [collapse]
    split
    · rename_i hstars
      obtain ⟨rfl, hhead⟩ := hstars
      obtain ⟨rest, rfl⟩ := List.head?_eq_some_iff.1 hhead
      rw [ih, covers_two_stars]
    · exact covers_cons_congr ih c s

/-! ## Main statement -/

/-- Matching cuts only between characters and ends, whatever pattern and text. It accepts the texts that can be
had from the pattern by putting a text for each star. So a pattern without a star matches itself alone, and of
stars that stand side by side all but one can be left out. -/
theorem matching_is_wildcard_language (pattern text : String) :
    cutMatch? pattern text = some (isMatch pattern text) ∧
    (isMatch pattern text = true ↔ Covers pattern.toList text.toList) ∧
    ('*' ∉ pattern.toList → (isMatch pattern text = true ↔ text = pattern)) ∧
    (∀ before behind, pattern = before ++ ("**" ++ behind) →
      isMatch (before ++ ("*" ++ behind)) text = isMatch pattern text) ∧
    isMatch (String.ofList (collapse pattern.toList)) text = isMatch pattern text := by
  refine ⟨cutMatch?_eq pattern text, isMatch_iff, isMatch_free, ?two, ?all⟩
  case two =>
    rintro before behind rfl
    rw [Bool.eq_iff_iff, isMatch_iff, isMatch_iff]
    have hstars := covers_append_congr (@covers_two_stars behind.toList) before.toList text.toList
    simpa using hstars.symm
  case all =>
    rw [Bool.eq_iff_iff, isMatch_iff, isMatch_iff, String.toList_ofList, covers_collapse]

/-- Two stars side by side, between characters of two and of three bytes. -/
theorem matching_is_wildcard_language_multibyte :
    cutMatch? "é**€" "éx€" = some true ∧ isMatch "é*€" "éx€" = true ∧ ¬ isMatch "é" "éx€" = true := by
  obtain ⟨hcuts, -, -, htwo, -⟩ := matching_is_wildcard_language "é**€" "éx€"
  obtain ⟨-, -, hfree, -⟩ := matching_is_wildcard_language "é" "éx€"
  have hmatch : isMatch "é**€" "éx€" = true := by decide
  refine ⟨by rw [hcuts, hmatch], by rw [← hmatch]; exact htwo "é" "€" rfl, ?_⟩
  rw [hfree (by decide)]
  decide

end Demarcation.Pattern
