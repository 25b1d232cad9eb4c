/-
Lists that differ only in the order of members of different classes. What a list says of one class at a time
is the same of both.
-/
import Mathlib.Data.List.Perm.Basic

namespace Demarcation

section

variable {α β κ : Type} [DecidableEq κ] {key : α → κ} {l l' : List α}

/-- The same members of each class, in the same order. -/
def SameBy (key : α → κ) (l l' : List α) : Prop :=
  ∀ k : κ, (l.filter fun a => key a = k) = l'.filter fun a => key a = k

namespace SameBy

theorem symm (h : SameBy key l l') : SameBy key l' l := fun k => (h k).symm

theorem filterMap_eq (h : SameBy key l l') {f : α → Option β} {k : κ} (hf : ∀ a, key a ≠ k → f a = none) :
    l.filterMap f = l'.filterMap f := by
  have hfilter : ∀ m : List α, (m.filter fun a => key a = k).filterMap f = m.filterMap f := by
    intro m
    rw [List.filterMap_filter]
    congr 1
    funext a
    by_cases ha : key a = k
    · simp [ha]
    · simp [ha, hf a ha]
  rw [← hfilter, h k, hfilter]

theorem filter_eq (h : SameBy key l l') {p : α → Prop} [DecidablePred p] {k : κ} (hp : ∀ a, p a → key a = k) :
    (l.filter fun a => p a) = l'.filter fun a => p a := by
  simp only [← List.filterMap_eq_filter]
  refine h.filterMap_eq fun a (ha : key a ≠ k) => ?_
  have hnot : ¬ p a := fun h => ha (hp a h)
  simp [Option.guard, hnot]

theorem mem_iff (h : SameBy key l l') (a : α) : a ∈ l ↔ a ∈ l' := by
  have hclass : ∀ m : List α, a ∈ m ↔ a ∈ m.filter fun b => key b = key a := by
    intro m
    simp
  rw [hclass, h, ← hclass]

/-- Where no two members are of one class there is no order to keep. -/
theorem of_perm (hperm : l.Perm l') (hne : l.Pairwise fun a b => key a ≠ key b) : SameBy key l l' := by
  intro k
  -- two members of the class would be of one class
  have halone : ∀ m : List α, (m.Pairwise fun a b => key a ≠ key b) →
      (m.filter fun a => key a = k).Pairwise fun _ _ => False := by
    intro m hm
    refine (hm.filter _).imp_of_mem ?_
    intro a b ha hb hab
    rw [List.mem_filter, decide_eq_true_iff] at ha hb
    exact hab (ha.2.trans hb.2.symm)
  have hne' := (hperm.pairwise_iff Ne.symm).1 hne
  exact (hperm.filter _).eq_of_pairwise (fun _ _ _ _ hab => hab.elim) (halone l hne) (halone l' hne')

end SameBy

end

end Demarcation
