/-
Sessions with the same statuses, in which the holders are the same in some aspect. What a manager does to
a session is mostly of this kind, for the one aspect or the other.
-/
import Demarcation.Proofs.Manager.Completing

namespace Demarcation

section Arrays

variable {α β : Type} {f : α → β} {a b : Array α}

theorem map_eq_of_getElem? (h : ∀ i : Nat, (b[i]?).map f = (a[i]?).map f) : b.map f = a.map f := by
  refine Array.ext_getElem? fun i => ?_
  rw [Array.getElem?_map, Array.getElem?_map]
  exact h i

/-- Arrays that are the same in some aspect, place by place, are of one size. -/
theorem size_eq_of_getElem? (h : ∀ i : Nat, (b[i]?).map f = (a[i]?).map f) : b.size = a.size := by
  have hsize := congrArg Array.size (map_eq_of_getElem? h)
  rwa [Array.size_map, Array.size_map] at hsize

end Arrays

namespace Session

variable {σ ρ ς γ δ : Type} {φ : Holder ρ → γ} {s s' s'' : Session σ ρ ς}

/-- The statuses are the same, and so is an aspect of every holder. -/
structure Alike (φ : Holder ρ → γ) (s s' : Session σ ρ ς) : Prop where
  statuses : s'.statuses = s.statuses
  holders : ∀ h, (s'.holder? h).map φ = (s.holder? h).map φ

theorem holders_size_of_alike (h : ∀ k, (s'.holder? k).map φ = (s.holder? k).map φ) :
    s'.holders.size = s.holders.size := size_eq_of_getElem? h

namespace Alike

theorem refl (s : Session σ ρ ς) : Alike φ s s := ⟨rfl, fun _ => rfl⟩

theorem trans (h : Alike φ s s') (h' : Alike φ s' s'') : Alike φ s s'' :=
  ⟨h'.statuses.trans h.statuses, fun k => (h'.holders k).trans (h.holders k)⟩

/-- What depends on an aspect is an aspect too. -/
theorem map (h : Alike φ s s') (g : γ → δ) : Alike (g ∘ φ) s s' := by
  refine ⟨h.statuses, fun k => ?_⟩
  rw [← Option.map_map, ← Option.map_map, h.holders]

theorem withNative (s : Session σ ρ ς) (n : σ) : Alike φ s (s.withNative n) := ⟨rfl, fun _ => rfl⟩

theorem dropBinding (s : Session σ ρ ς) (c : ContextIndex) (key : ResourceKey) :
    Alike φ s (s.dropBinding c key) := ⟨rfl, fun _ => rfl⟩

theorem putBinding (s : Session σ ρ ς) (c : ContextIndex) (key : ResourceKey) (h : HolderId) :
    Alike φ s (s.putBinding c key h) := ⟨rfl, fun _ => rfl⟩

theorem purge (s : Session σ ρ ς) (c : ContextIndex) (key : ResourceKey) : Alike φ s (s.purge c key) := by
  unfold Session.purge
  split
  · exact refl s
  · split
    · exact dropBinding s c key
    · exact refl s

theorem modifyHolder_at {s : Session σ ρ ς} {h : HolderId} {f : Holder ρ → Holder ρ}
    (hf : ∀ x, s.holder? h = some x → φ (f x) = φ x) : Alike φ s (s.modifyHolder h f) := by
  refine ⟨rfl, fun k => ?_⟩
  rw [holder?_modifyHolder]
  split
  · rename_i hk
    subst hk
    cases hx : s.holder? k with
    | none => rfl
    | some x => exact congrArg some (hf x hx)
  · rfl

theorem modifyHolder (s : Session σ ρ ς) (h : HolderId) {f : Holder ρ → Holder ρ}
    (hf : ∀ x, φ (f x) = φ x) : Alike φ s (s.modifyHolder h f) :=
  modifyHolder_at fun x _ => hf x

theorem modifyHolderOf (s : Session σ ρ ς) (st : Status ς) {f : Holder ρ → Holder ρ}
    (hf : ∀ x, φ (f x) = φ x) : Alike φ s (s.modifyHolderOf st f) := by
  unfold Session.modifyHolderOf
  cases st.holder with
  | none => exact refl s
  | some h => exact modifyHolder s h hf

theorem detach (s : Session σ ρ ς) (c : ContextIndex) (key : ResourceKey) (h : HolderId)
    (hφ : ∀ x : Holder ρ, φ (x.setSuspended true) = φ x) : Alike φ s (s.detach c key h) :=
  (dropBinding s c key).trans (.modifyHolder _ h hφ)

theorem attach (s : Session σ ρ ς) (c : ContextIndex) (key : ResourceKey) (h : HolderId)
    (hφ : ∀ x : Holder ρ, φ (x.setSuspended false) = φ x) : Alike φ s (s.attach c key h) :=
  (putBinding s c key h).trans (.modifyHolder _ h hφ)

theorem status? (hs : Alike φ s s') (t : StatusId) : s'.status? t = s.status? t := by
  unfold Session.status?
  rw [hs.statuses]

theorem holder (hs : Alike φ s s') {h : HolderId} {x : Holder ρ} (hx : s.holder? h = some x) :
    ∃ x', s'.holder? h = some x' ∧ φ x' = φ x := by
  have heq := hs.holders h
  rw [hx] at heq
  exact Option.map_eq_some_iff.1 heq

theorem holders_size (hs : Alike φ s s') : s'.holders.size = s.holders.size :=
  holders_size_of_alike hs.holders

end Alike

end Session

end Demarcation
