/-
Quiet changes of a session: only the native state, the clock, and the marks for a rollback may
differ. What binds, suspends, clears or completes is never quiet, and the work of a scope always is.
-/
import Demarcation.Proofs.Session.Alike

namespace Demarcation

/-- The status without a request for a rollback. -/
def Status.unmarked {ς : Type} (st : Status ς) : Status ς := { st with rollbackOnly := false }

theorem Status.eq_of_unmarked {ς : Type} {st st' : Status ς} (h : st'.unmarked = st.unmarked) :
    ∃ on, st' = { st with rollbackOnly := on } := by
  refine ⟨st'.rollbackOnly, ?_⟩
  unfold unmarked at h
  injection h with hdefinition hholder hnew hsavepoint hsuspended _ hcompletion hheld
  cases st'
  simp_all

namespace Session

variable {σ ρ ς : Type} {s s' s'' : Session σ ρ ς}

/-- Nothing changed but the native state, the clock, and marks for a rollback. -/
structure Quiet (s s' : Session σ ρ ς) : Prop where
  registries : s'.registries = s.registries
  holders : ∀ h, (s'.holder? h).map Holder.resetRollbackOnly = (s.holder? h).map Holder.resetRollbackOnly
  statuses : ∀ t, (s'.status? t).map Status.unmarked = (s.status? t).map Status.unmarked

namespace Quiet

theorem refl (s : Session σ ρ ς) : Quiet s s := ⟨rfl, fun _ => rfl, fun _ => rfl⟩

theorem trans (h : Quiet s s') (h' : Quiet s' s'') : Quiet s s'' :=
  ⟨h'.registries.trans h.registries, fun k => (h'.holders k).trans (h.holders k),
    fun t => (h'.statuses t).trans (h.statuses t)⟩

theorem withNative (s : Session σ ρ ς) (n : σ) : Quiet s (s.withNative n) :=
  ⟨rfl, fun _ => rfl, fun _ => rfl⟩

/-- A session in which at most marks for a rollback changed, and nothing that is bound, is quiet. -/
theorem of_alike (hs : Alike Holder.resetRollbackOnly s s') (hr : s'.registries = s.registries) : Quiet s s' :=
  ⟨hr, hs.holders, fun t => by rw [hs.status?]⟩

theorem modifyHolderOf (s : Session σ ρ ς) (st : Status ς) {f : Holder ρ → Holder ρ}
    (hf : ∀ x, (f x).resetRollbackOnly = x.resetRollbackOnly) : Quiet s (s.modifyHolderOf st f) :=
  of_alike (.modifyHolderOf s st hf) (registries_modifyHolderOf s f st)

theorem setRollbackOnly (s : Session σ ρ ς) (t : StatusId) : Quiet s (s.setRollbackOnly t) := by
  refine ⟨rfl, fun _ => rfl, fun u => ?_⟩
  unfold Session.setRollbackOnly
  rw [status?_modifyStatus]
  split
  · cases s.status? u <;> rfl
  · rfl

theorem bound (h : Quiet s s') (c : ContextIndex) (key : ResourceKey) : s'.bound c key = s.bound c key := by
  unfold Session.bound registry
  rw [h.registries]

theorem holder (hq : Quiet s s') {h : HolderId} {x : Holder ρ} (hx : s.holder? h = some x) :
    ∃ x', s'.holder? h = some x' ∧ x'.resetRollbackOnly = x.resetRollbackOnly := by
  have heq := hq.holders h
  rw [hx] at heq
  exact Option.map_eq_some_iff.1 heq

theorem status (hq : Quiet s s') {t : StatusId} {st : Status ς} (hst : s.status? t = some st) :
    ∃ st', s'.status? t = some st' ∧ st'.unmarked = st.unmarked := by
  have heq := hq.statuses t
  rw [hst] at heq
  exact Option.map_eq_some_iff.1 heq

end Quiet

end Session

open Session

theorem Manager.Beginning.quiet {σ ρ ς : Type} {m : Manager σ ρ ς} {c : ContextIndex} {d : Definition}
    {s s' : Session σ ρ ς} {e : TransactionError} (hb : Beginning m c d s (.error e) s') : Quiet s s' := by
  cases hb with
  | refused => exact .refl s
  | failed => exact .withNative s _

/-- Whether the work of a scope is kept or undone, and whether that fails, the work is quiet. -/
theorem Manager.Working.quiet {σ ρ ς : Type} {m : Manager σ ρ ς} {commit : Bool} {st : Status ς}
    {s s' : Session σ ρ ς} {state : TransactionState} {outcome : Except TransactionError Unit}
    (h : Working m commit st s state outcome s') : Quiet s s' := by
  cases h with
  | kept | unmarked => exact .refl s
  | savepointReleased | committed | commitFailed | commitUndone | returnFailed | undone => exact .withNative s _
  | @returned sp n r n' =>
    have hreset : Quiet (s.withNative n) ((s.withNative n).modifyHolderOf st Holder.resetRollbackOnly) :=
      .modifyHolderOf _ st fun _ => rfl
    exact ((Quiet.withNative s n).trans hreset).trans (.withNative _ n')
  | marked => exact .modifyHolderOf s st fun _ => rfl

end Demarcation
