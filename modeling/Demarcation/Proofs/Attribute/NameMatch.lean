/-
Which mapping decides about an operation. It is the first whose pattern is the name of the operation; without
one it is, of the longest patterns that cover the name, the one added last. So neither mappings of other
names nor the order of patterns of different lengths make a difference.
-/
import Demarcation.Proofs.Attribute.Wildcards
import Demarcation.Proofs.Reordering

namespace Demarcation.NameMatches

variable {α : Type}

/-- The length of the pattern of a mapping, in bytes. -/
def patternSize (m : String × α) : Nat := m.1.utf8ByteSize

/-- The pattern of the mapping is the name, or covers it. -/
def Concerns (name : String) (m : String × α) : Prop :=
  m.1 = name ∨ Pattern.Covers m.1.toList name.toList

theorem concerns_iff {name : String} {m : String × α} : Concerns name m ↔ Pattern.isMatch m.1 name = true := by
  rw [Pattern.isMatch_iff]
  constructor
  · rintro (rfl | h)
    · exact Pattern.covers_self _
    · exact h
  · exact .inr

instance (name : String) (m : String × α) : Decidable (Concerns name m) :=
  decidable_of_iff _ concerns_iff.symm

theorem filter_concerns (ms : NameMatches α) (name : String) :
    (ms.filter fun m => Pattern.isMatch m.1 name) = ms.filter fun m => Concerns name m := by
  refine List.filter_congr fun m _ => ?_
  rw [Bool.eq_iff_iff, decide_eq_true_iff, concerns_iff]

/-- The mapping decides about the name: it is the first whose pattern is the name or, where no pattern is,
the last of the longest that cover it. -/
inductive Decides (ms : NameMatches α) (name : String) (m : String × α) : Prop
  | named (first : (ms.filter fun n => n.1 = name).head? = some m)
  | covering (unnamed : ∀ n ∈ ms, n.1 ≠ name)
      (longest : ∀ n ∈ ms, Concerns name n → patternSize n ≤ patternSize m)
      (last : (ms.filter fun n => Concerns name n ∧ patternSize n = patternSize m).getLast? = some m)

/-! ## The longest pattern -/

theorem longest?_eq_none_iff {ms : NameMatches α} : longest? ms = none ↔ ms = [] := by
  constructor
  · intro h
    cases ms with
    | nil => rfl
    | cons m ms =>
      rw [longest?] at h
      split at h
      · cases h
      · split at h <;> cases h
  · rintro rfl
    rfl

theorem longest?_spec {ms : NameMatches α} {m : String × α} (h : longest? ms = some m) :
    (∀ n ∈ ms, patternSize n ≤ patternSize m) ∧
    (ms.filter fun n => patternSize n = patternSize m).getLast? = some m := by
  induction ms generalizing m with
  | nil => cases h
  | cons n ms ih =>
    rw [longest?] at h
    split at h
    case h_1 hnone =>
      obtain rfl := longest?_eq_none_iff.1 hnone
      cases h
      simp
    case h_2 k hk =>
      obtain ⟨hle, hlast⟩ := ih hk
      split at h
      case isTrue hlt =>
        cases h
        have hshorter : ∀ l ∈ ms, patternSize l < patternSize n := fun l hl => (hle l hl).trans_lt hlt
        have hfilter : (ms.filter fun l => patternSize l = patternSize n) = [] := by
          rw [List.filter_eq_nil_iff]
          intro l hl
          simpa using (hshorter l hl).ne
        refine ⟨List.forall_mem_cons.2 ⟨le_rfl, fun l hl => (hshorter l hl).le⟩, ?_⟩
        simp [hfilter]
      case isFalse hge =>
        cases h
        refine ⟨List.forall_mem_cons.2 ⟨Nat.le_of_not_lt hge, hle⟩, ?_⟩
        rw [List.filter_cons]
        split
        · rw [List.getLast?_cons, hlast]
          rfl
        · exact hlast

/-- The longest pattern is told by no pattern being longer, and by being the last of its length. -/
theorem longest?_eq_some_iff {ms : NameMatches α} {m : String × α} :
    longest? ms = some m ↔
      (∀ n ∈ ms, patternSize n ≤ patternSize m) ∧
      (ms.filter fun n => patternSize n = patternSize m).getLast? = some m := by
  refine ⟨longest?_spec, ?_⟩
  rintro ⟨hle, hlast⟩
  have hm : m ∈ ms := List.mem_of_mem_filter (List.mem_of_getLast? hlast)
  cases hk : longest? ms with
  | none =>
    rw [longest?_eq_none_iff.1 hk] at hm
    cases hm
  | some k =>
    obtain ⟨hle', hlast'⟩ := longest?_spec hk
    have hmem : k ∈ ms := List.mem_of_mem_filter (List.mem_of_getLast? hlast')
    have hsize : patternSize k = patternSize m := Nat.le_antisymm (hle k hmem) (hle' m hm)
    rw [hsize] at hlast'
    rw [← hlast', hlast]

/-! ## The mapping that decides -/

theorem filter_concerns_size (ms : NameMatches α) (name : String) (size : Nat) :
    ((ms.filter fun n => Concerns name n).filter fun n => patternSize n = size) =
      ms.filter fun n => Concerns name n ∧ patternSize n = size := by
  rw [List.filter_filter]
  refine List.filter_congr fun n _ => ?_
  rw [Bool.and_comm, Bool.decide_and]

theorem find?_eq_some_iff {ms : NameMatches α} {name : String} {m : String × α} :
    ms.find? name = some m ↔ ms.Decides name m := by
  have hhead : List.find? (fun n => n.1 == name) ms = (ms.filter fun n => n.1 = name).head? :=
    List.head?_filter.symm
  rw [find?, hhead, filter_concerns]
  cases hfirst : (ms.filter fun n => n.1 = name).head? with
  | some k =>
    have hk : k ∈ ms ∧ k.1 = name := by simpa using List.mem_of_mem_head? hfirst
    constructor
    · intro h
      cases h
      exact .named hfirst
    · rintro (hfirst' | ⟨hunnamed, -, -⟩)
      · exact hfirst.symm.trans hfirst'
      · exact absurd hk.2 (hunnamed k hk.1)
  | none =>
    have hunnamed : ∀ n ∈ ms, n.1 ≠ name := by simpa using hfirst
    show longest? _ = some m ↔ _
    rw [longest?_eq_some_iff, filter_concerns_size]
    simp only [List.mem_filter, decide_eq_true_iff, and_imp]
    constructor
    · rintro ⟨hlongest, hlast⟩
      exact .covering hunnamed hlongest hlast
    · rintro (hfirst' | ⟨-, hlongest, hlast⟩)
      · rw [hfirst] at hfirst'
        cases hfirst'
      · exact ⟨hlongest, hlast⟩

theorem find?_eq_none_iff {ms : NameMatches α} {name : String} :
    ms.find? name = none ↔ ∀ m ∈ ms, ¬ Concerns name m := by
  rw [find?, filter_concerns]
  split
  · rename_i k hk
    have hname : k.1 = name := by simpa using List.find?_some hk
    exact iff_of_false (Option.some_ne_none k) fun h => h k (List.mem_of_find?_eq_some hk) (.inl hname)
  · simp only [longest?_eq_none_iff, List.filter_eq_nil_iff, decide_eq_true_iff]

/-! ## What makes no difference -/

/-- Only the mappings that concern the name are looked at. -/
theorem find?_filter_concerns (ms : NameMatches α) (name : String) :
    find? (ms.filter fun m => Concerns name m) name = ms.find? name := by
  have hnamed : List.find? (fun m => m.1 == name) (ms.filter fun m => Concerns name m) =
      List.find? (fun m => m.1 == name) ms := by
    rw [List.find?_filter]
    congr 1
    funext m
    by_cases hm : m.1 = name
    · simp [hm, Concerns]
    · simp [hm]
  have hcovering : ((ms.filter fun m => Concerns name m).filter fun m => Pattern.isMatch m.1 name) =
      ms.filter fun m => Pattern.isMatch m.1 name := by
    rw [filter_concerns, filter_concerns, List.filter_filter]
    simp only [Bool.and_self]
  rw [find?, hnamed, hcovering, ← find?]

theorem Decides.of_sameBy {ms ms' : NameMatches α} (h : SameBy patternSize ms ms') {name : String}
    {m : String × α} (hm : ms.Decides name m) : ms'.Decides name m := by
  rcases hm with hfirst | ⟨hunnamed, hlongest, hlast⟩
  · rw [h.filter_eq fun n hn => congrArg String.utf8ByteSize hn] at hfirst
    exact .named hfirst
  · rw [h.filter_eq fun n hn => hn.2] at hlast
    simp only [h.mem_iff] at hunnamed hlongest
    exact .covering hunnamed hlongest hlast

theorem find?_congr {ms ms' : NameMatches α} (h : SameBy patternSize ms ms') (name : String) :
    ms.find? name = ms'.find? name := by
  refine Option.ext fun m => ?_
  rw [find?_eq_some_iff, find?_eq_some_iff]
  exact ⟨Decides.of_sameBy h, Decides.of_sameBy h.symm⟩

/-! ## Main statement -/

/-- Without a pattern that is the name or covers it there is no attribute. The first pattern that is the
name gives its attribute, whatever else covers the name; otherwise it is the longest of the patterns that
do, and of equally long ones the last. So neither mappings of other names, wherever they are added, nor the
order of patterns of different lengths change the answer. -/
theorem source_most_specific (ms : NameMatches Attribute) (o : Operation) :
    (ms.source o = none ↔ ∀ m ∈ ms, ¬ Concerns o.name m) ∧
    (∀ a, ms.source o = some a ↔ ∃ m, ms.Decides o.name m ∧ m.2 = a) ∧
    (∀ before added after : NameMatches Attribute, ms = before ++ after → (∀ m ∈ added, ¬ Concerns o.name m) →
      (before ++ added ++ after).source o = ms.source o) ∧
    (∀ ms' : NameMatches Attribute,
      (ms'.filter fun m => Concerns o.name m) = (ms.filter fun m => Concerns o.name m) →
      ms'.source o = ms.source o) ∧
    (∀ ms' : NameMatches Attribute, SameBy patternSize ms' ms → ms'.source o = ms.source o) ∧
    (∀ ms' : NameMatches Attribute, ms'.Perm ms →
      (ms.Pairwise fun m n => patternSize m ≠ patternSize n) → ms'.source o = ms.source o) := by
  have hconcerned : ∀ ms' : NameMatches Attribute,
      (ms'.filter fun m => Concerns o.name m) = (ms.filter fun m => Concerns o.name m) →
      ms'.source o = ms.source o := by
    intro ms' h
    rw [source, source, ← find?_filter_concerns ms', h, find?_filter_concerns]
  have hlengths : ∀ ms' : NameMatches Attribute, SameBy patternSize ms' ms → ms'.source o = ms.source o := by
    intro ms' h
    rw [source, source, find?_congr h]
  refine ⟨?unanswered, ?answered, ?added, hconcerned, hlengths, ?reordered⟩
  case unanswered => rw [source, Option.map_eq_none_iff, find?_eq_none_iff]
  case answered =>
    intro a
    simp only [source, Option.map_eq_some_iff, find?_eq_some_iff]
  case added =>
    rintro before added after rfl hadded
    refine hconcerned _ ?_
    have hnone : (added.filter fun m => Concerns o.name m) = [] :=
      List.filter_eq_nil_iff.2 fun m hm => by simpa using hadded m hm
    rw [List.filter_append, List.filter_append, hnone, List.append_nil, List.filter_append]
  case reordered =>
    intro ms' hperm hne
    exact hlengths ms' (SameBy.of_perm hperm.symm hne).symm

/-- Patterns that cover one another's texts, one of them twice. -/
def overlapping : NameMatches Attribute :=
  [("*é", {}), ("é*", { definition := { readOnly := true } }), ("*", {}),
    ("é*", { definition := { propagation := .never } })]

/-- A name that is also a pattern goes by the first of the same text, and one that is only covered by the
last of the three patterns of three bytes. A longer pattern of other names takes nothing away. -/
theorem source_most_specific_overlapping :
    overlapping.source ⟨"é*", []⟩ = some { definition := { readOnly := true } } ∧
    overlapping.source ⟨"éé", []⟩ = some { definition := { propagation := .never } } ∧
    source (("é*x", {}) :: overlapping) ⟨"éé", []⟩ = overlapping.source ⟨"éé", []⟩ := by
  obtain ⟨-, hnamed, -⟩ := source_most_specific overlapping ⟨"é*", []⟩
  obtain ⟨-, hcovering, hadded, -⟩ := source_most_specific overlapping ⟨"éé", []⟩
  have hfirst : overlapping.Decides "é*" ("é*", { definition := { readOnly := true } }) := .named rfl
  have hlast : overlapping.Decides "éé" ("é*", { definition := { propagation := .never } }) :=
    .covering (by simp [overlapping]) (by simp only [overlapping, List.forall_mem_cons]; decide) rfl
  refine ⟨(hnamed _).2 ⟨_, hfirst, rfl⟩, (hcovering _).2 ⟨_, hlast, rfl⟩, ?_⟩
  refine hadded [] [("é*x", {})] overlapping rfl ?_
  simp only [List.forall_mem_singleton]
  decide

end Demarcation.NameMatches
