/-
What every primitive of a backend maintains, its manager maintains. Whatever a call of a manager changes natively,
it changes through the primitives, some of them and in some order, and each of them may fail.
-/
import Demarcation.Proofs.Client

namespace Demarcation

open Session Manager

variable {σ ρ ς α : Type}

/-- A property of the native state that no primitive between the beginning of a transaction and its cleanup ends,
whether it succeeds or not. -/
structure Backend.Sustains (b : Backend σ ρ ς) (P : σ → Prop) : Prop where
  suspend : ∀ r n, P n → P (b.suspend r n).2
  resume : ∀ r n, P n → P (b.resume r n).2
  commit : ∀ r n, P n → P (b.commit r n).2
  rollback : ∀ r n, P n → P (b.rollback r n).2
  createSavepoint : ∀ r n, P n → P (b.createSavepoint r n).2
  rollbackToSavepoint : ∀ r sp n, P n → P (b.rollbackToSavepoint r sp n).2
  releaseSavepoint : ∀ r sp n, P n → P (b.releaseSavepoint r sp n).2

/-- A property of the native state that no primitive ends. -/
structure Backend.Maintains (b : Backend σ ρ ς) (P : σ → Prop) : Prop extends b.Sustains P where
  start : ∀ d n, P n → P (b.start d n).2
  cleanup : ∀ r n, P n → P (b.cleanup r n).2

section Calls

variable {P : σ → Prop} {m : Manager σ ρ ς} {c : ContextIndex} {d : Definition} {s s' : Session σ ρ ς}
  {st : Status ς}

theorem Session.maintained_of_applied {h : Option HolderId} {op : ρ → Native σ Unit} {r : Except Failure Unit} {n : σ}
    (happ : s.applied h op = (r, n)) (hop : ∀ r n, P n → P (op r n).2) (hs : P s.native) : P n := by
  obtain rfl : (s.applied h op).2 = n := by rw [happ]
  unfold applied
  split
  · exact hs
  · exact hop _ _ hs

/-- A primitive that was run on a state leaves what it maintains. -/
theorem maintained_of_run {β : Type} {op : Native σ β} {n n' : σ} {a : Except Failure β} (hrun : op n = (a, n'))
    (hop : P n → P (op n).2) (hn : P n) : P n' := by
  have hleft := hop hn
  rwa [hrun] at hleft

namespace Manager

section Sustained

variable (hP : m.backend.Sustains P)
include hP

theorem resume_maintained (h : HolderId) (hs : P s.native) : P (m.resume c h s).2.native := by
  rcases resume_spec m c h s with ⟨_, _, hrun⟩ | ⟨_, hrun⟩
  · rw [hrun]; exact hs
  · rw [hrun]
    exact maintained_of_applied rfl hP.resume hs

theorem Working.maintained {commit : Bool} {state : TransactionState} {r : Except TransactionError Unit}
    (hw : Working m commit st s state r s') (hs : P s.native) : P s'.native := by
  cases hw with
  | kept | unmarked => exact hs
  | marked => rw [native_modifyHolderOf]; exact hs
  | savepointReleased _ _ hn => exact maintained_of_applied hn (fun r => hP.releaseSavepoint r _) hs
  | committed _ _ _ hn | commitFailed _ _ _ hn => exact maintained_of_applied hn hP.commit hs
  | @commitUndone _ n _ _ _ _ _ hn _ hn' =>
    have hfirst : P (s.withNative n).native := maintained_of_applied hn hP.commit hs
    exact maintained_of_applied hn' hP.rollback hfirst
  | returnFailed _ _ hn => exact maintained_of_applied hn (fun r => hP.rollbackToSavepoint r _) hs
  | @returned _ n _ _ _ _ hn hn' =>
    have hfirst : P ((s.withNative n).modifyHolderOf st Holder.resetRollbackOnly).native := by
      rw [native_modifyHolderOf]
      exact maintained_of_applied hn (fun r => hP.rollbackToSavepoint r _) hs
    exact maintained_of_applied hn' (fun r => hP.releaseSavepoint r _) hfirst
  | undone _ _ _ hn => exact maintained_of_applied hn hP.rollback hs

theorem Resuming.maintained {t : StatusId} {r : Except TransactionError Unit} (hr : Resuming m c t st s r s')
    (hs : P s.native) : P s'.native := by
  cases hr with
  | nothing | refused => exact hs
  | resumed _ hn => exact maintained_of_applied (s := (s.takeSuspended t).attach c _ _) hn hP.resume hs

end Sustained

variable (hP : m.backend.Maintains P)
include hP

theorem Beginning.maintained {r : Except TransactionError HolderId} (hb : Beginning m c d s r s')
    (hs : P s.native) : P s'.native := by
  cases hb with
  | refused => exact hs
  | failed hn => exact maintained_of_run hn (hP.start d _) hs
  | begun _ _ hn => exact (maintained_of_run hn (hP.start d _) hs :)

theorem Opening.maintained {r : Except TransactionError StatusId} (ho : Opening m c d s r s')
    (hs : P s.native) : P s'.native := by
  cases ho with
  | refused | untransacted | joined => exact hs
  | beginFailed _ hbegin => exact hbegin.maintained hP hs
  | begun _ _ hbegin => exact (hbegin.maintained hP hs :)
  | suspendFailed _ _ _ _ _ hn => exact maintained_of_run hn (hP.suspend _ _) hs
  | detached _ _ _ _ _ hn => exact (maintained_of_run hn (hP.suspend _ _) hs :)
  | renewed _ _ _ _ _ hn hbegin => exact (hbegin.maintained hP (maintained_of_run hn (hP.suspend _ _) hs) :)
  | @renewFailed h _ _ _ s₁ _ _ _ _ _ _ _ hn hbegin hres =>
    have hback : P s₁.native := hbegin.maintained hP (maintained_of_run hn (hP.suspend _ _) hs)
    have hresumed := resume_maintained (c := c) hP.toSustains h hback
    rwa [hres] at hresumed
  | savepointFailed _ _ _ _ _ _ _ hn => exact maintained_of_run hn (hP.createSavepoint _ _) hs
  | nested _ _ _ _ _ _ _ hn => exact (maintained_of_run hn (hP.createSavepoint _ _) hs :)

theorem Releasing.maintained {r : Except TransactionError Unit} (hr : Releasing m c st s r s') (hs : P s.native) :
    P s'.native := by
  cases hr with
  | nothing | reference => exact hs
  | @transaction h _ s₁ _ _ _ _ hun hn =>
    have hfirst : P (s₁.modifyHolder h giveUp).native := by
      have hsame : (s₁.modifyHolder h giveUp).native = s.native := hun.native.trans (native_purge s c _)
      rw [hsame]
      exact hs
    exact maintained_of_applied hn hP.cleanup hfirst

theorem Concluding.maintained {commit : Bool} {t : StatusId} {r : Except TransactionError Unit}
    (hc : Concluding m commit c t st s r s') (hs : P s.native) : P s'.native := by
  cases hc with
  | @mk state _ _ _ s₁ _ _ hwork hrel hres =>
    have hworked : P s₁.native := hwork.maintained hP.toSustains hs
    have hreleased := hrel.maintained (s := s₁.endStatus t state) hP hworked
    exact hres.maintained hP.toSustains hreleased

theorem called_maintained {act : α → Session σ ρ ς → Session σ ρ ς} (call : ManagerCall α)
    (hact : ∀ a, call = .act a → P (act a s).native) (hs : P s.native) : P (m.called act s call).native := by
  cases call with
  | enter c d =>
    obtain ⟨r, s', hrun, hopen⟩ := getTransaction_spec m c d s
    show P (m.getTransaction c d s).2.native
    rw [hrun]
    exact hopen.maintained hP (by rw [native_purge]; exact hs)
  | conclude commit c t =>
    show P (m.conclude commit c t s).2.native
    rcases conclude_cases m commit c t s with ⟨hrefused, -⟩ | ⟨st, r, s', -, -, hrun, hc⟩
    · rw [hrefused]; exact hs
    · rw [hrun]; exact hc.maintained hP hs
  | mark t => exact hs
  | act a => exact hact a rfl

end Manager

end Calls

end Demarcation
