/-
Bindings seen key by key: what each change of a registry does to the holder bound under a key, and
what a look-up, a binding and an unbinding answer once it is known what is bound.
-/
import Demarcation.Registry

namespace Demarcation

namespace Registry

variable {η : Type} (r : Registry η) (view : HolderView η)

/-! ## Changing bindings -/

theorem binding?_erase (key k : ResourceKey) :
    (r.erase key).binding? k = if k = key then none else r.binding? k := by
  unfold binding? erase
  simp only [List.find?_filter]
  by_cases hk : k = key
  · subst hk
    rw [if_pos rfl, Option.map_eq_none_iff, List.find?_eq_none]
    intro b _
    simp
  · rw [if_neg hk]
    congr 2
    funext b
    by_cases hb : b.1 = k
    · simp [hb, hk]
    · simp [hb]

theorem binding?_insert (key k : ResourceKey) (h : η) :
    (r.insert key h).binding? k = if k = key then some h else r.binding? k := by
  have herase := binding?_erase r key k
  unfold binding? at herase ⊢
  simp only [insert, List.find?_append]
  by_cases hk : k = key
  · subst hk
    rw [if_pos rfl, Option.map_eq_none_iff] at herase
    simp [herase]
  · have hne : (key == k) = false := by simpa using Ne.symm hk
    rw [if_neg hk] at herase
    simp [hne, hk, herase]

theorem insert_erase (key : ResourceKey) (h : η) :
    (r.erase key).insert key h = r.insert key h := by
  unfold insert erase
  simp only [List.filter_filter, Bool.and_self]

/-! ## What operations answer -/

theorem get_unbound {expected : HolderKind} {key : ResourceKey} (h : r.binding? key = none) :
    r.get view expected key = (.ok none, r) := by
  unfold get; rw [h]

theorem get_void {expected : HolderKind} {key : ResourceKey} {h : η} (hb : r.binding? key = some h)
    (hv : view.isVoid h = true) : r.get view expected key = (.ok none, r.erase key) := by
  unfold get; rw [hb]; simp [hv]

theorem get_live {expected : HolderKind} {key : ResourceKey} {h : η} (hb : r.binding? key = some h)
    (hv : view.isVoid h = false) :
    r.get view expected key =
      (if view.kind h = expected then .ok (some h) else .error (r.mismatch key expected), r) := by
  unfold get; rw [hb]; simp only [hv, Bool.false_eq_true, if_false]
  split <;> rfl

theorem bind_of_not_has {key : ResourceKey} {h : η} (hf : r.has view key = false) :
    r.bind view key h = .ok (r.insert key h) := by
  unfold bind; rw [hf]; rfl

theorem bind_of_has {key : ResourceKey} {h : η} (hf : r.has view key = true) :
    r.bind view key h = .error (.alreadyBound key r.context) := by
  unfold bind; rw [hf]; rfl

theorem has_of_unbound {key : ResourceKey} (h : r.binding? key = none) : r.has view key = false := by
  unfold has; rw [h]

theorem unbind_live {expected : HolderKind} {key : ResourceKey} {h : η} (hb : r.binding? key = some h)
    (hv : view.isVoid h = false) (hk : view.kind h = expected) :
    r.unbind view expected key = (.ok h, r.erase key) := by
  unfold unbind unbindIfPossible
  rw [hb]
  simp [hk, hv]

theorem unbindIfPossible_unbound {expected : HolderKind} {key : ResourceKey}
    (h : r.binding? key = none) : r.unbindIfPossible view expected key = (.ok none, r) := by
  unfold unbindIfPossible; rw [h]

theorem unbindIfPossible_own {expected : HolderKind} {key : ResourceKey} {h : η}
    (hb : r.binding? key = some h) (hk : view.kind h = expected) :
    r.unbindIfPossible view expected key =
      (.ok (if view.isVoid h then none else some h), r.erase key) := by
  unfold unbindIfPossible; rw [hb]; simp only [hk, if_true]

theorem unbindIfPossible_foreign {expected : HolderKind} {key : ResourceKey} {h : η}
    (hb : r.binding? key = some h) (hk : view.kind h ≠ expected) :
    r.unbindIfPossible view expected key = (.error (r.mismatch key expected), r) := by
  unfold unbindIfPossible; rw [hb]; simp only [hk, if_false]

theorem unbind_unbound {expected : HolderKind} {key : ResourceKey} (h : r.binding? key = none) :
    r.unbind view expected key = (.error (.notBound key r.context), r) := by
  unfold unbind; rw [unbindIfPossible_unbound r view h]

theorem unbind_void {expected : HolderKind} {key : ResourceKey} {h : η} (hb : r.binding? key = some h)
    (hv : view.isVoid h = true) (hk : view.kind h = expected) :
    r.unbind view expected key = (.error (.notBound key r.context), r.erase key) := by
  unfold unbind; rw [unbindIfPossible_own r view hb hk, hv]; rfl

theorem unbind_foreign {expected : HolderKind} {key : ResourceKey} {h : η}
    (hb : r.binding? key = some h) (hk : view.kind h ≠ expected) :
    r.unbind view expected key = (.error (r.mismatch key expected), r) := by
  unfold unbind; rw [unbindIfPossible_foreign r view hb hk]

end Registry

end Demarcation
