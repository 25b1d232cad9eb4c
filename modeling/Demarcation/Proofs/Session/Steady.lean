/-
Steady changes of a session: the statuses stay, and so do the resources of the holders. What a manager
does to open a scope is steady up to the scope's own status, and it keeps also what a transaction has
come to (given up, marked rollback-only).
-/
import Demarcation.Proofs.Session.Quiet

namespace Demarcation

/-- What has become of a holder's transaction: its resource, whether it is given up, and whether it is
marked rollback-only. -/
def Holder.fate {ρ : Type} (x : Holder ρ) : ρ × Bool × Bool := (x.resource, x.cleared, x.rollbackOnly)

namespace Session

variable {σ ρ ς γ : Type} {φ : Holder ρ → γ} {s s' : Session σ ρ ς}

/-- The statuses are the same, and the holders have the same resources. -/
abbrev Steady (s s' : Session σ ρ ς) : Prop := Alike Holder.resource s s'

/-- A session in which nothing became of the transactions is steady. -/
theorem Alike.steady (hs : Alike Holder.fate s s') : Steady s s' := hs.map Prod.fst

/-! ## Transactions that go on -/

/-- A holder's transaction goes on, on a resource. -/
def Ongoing (s : Session σ ρ ς) (h : HolderId) (r : ρ) : Prop :=
  ∃ x, s.holder? h = some x ∧ x.cleared = false ∧ x.resource = r

/-- A holder's transaction is marked rollback-only. -/
def marked (s : Session σ ρ ς) (h : HolderId) : Bool := (s.holder? h).any Holder.rollbackOnly

theorem marked_of_holder {h : HolderId} {x : Holder ρ} (hx : s.holder? h = some x) :
    s.marked h = x.rollbackOnly := by
  unfold marked
  rw [hx]; rfl

theorem marked_lt {h : HolderId} (hm : s.marked h = true) : h < s.holders.size := by
  unfold marked at hm
  cases hx : s.holder? h with
  | none => rw [hx] at hm; cases hm
  | some x => exact holder?_lt hx

/-- A mark that is off was off before if no mark was taken back. -/
theorem unmarked_before {h : HolderId} (hkept : s.marked h = true → s'.marked h = true)
    (hm : s'.marked h = false) : s.marked h = false := by
  cases hb : s.marked h with
  | false => rfl
  | true => exact (hkept hb).symm.trans hm

theorem marked_modifyHolder {h : HolderId} {x : Holder ρ} (hx : s.holder? h = some x)
    (f : Holder ρ → Holder ρ) (k : HolderId) :
    (s.modifyHolder h f).marked k = if k = h then (f x).rollbackOnly else s.marked k := by
  unfold marked
  rw [holder?_modifyHolder]
  split
  · rename_i hk
    rw [hk, hx]; rfl
  · rfl

theorem Ongoing.congr {h : HolderId} {r : ρ} (ho : s.Ongoing h r)
    (heq : (s'.holder? h).map φ = (s.holder? h).map φ)
    (hφ : ∀ x y : Holder ρ, φ x = φ y → x.cleared = y.cleared ∧ x.resource = y.resource) : s'.Ongoing h r := by
  obtain ⟨x, hx, hlive, hr⟩ := ho
  rw [hx] at heq
  obtain ⟨y, hy, hsame⟩ := Option.map_eq_some_iff.1 heq
  obtain ⟨hcleared, hresource⟩ := hφ y x hsame
  exact ⟨y, hy, hcleared.trans hlive, hresource.trans hr⟩

theorem ongoing_of_quiet (hq : Quiet s s') {h : HolderId} {r : ρ} : s'.Ongoing h r ↔ s.Ongoing h r := by
  have hφ : ∀ x y : Holder ρ, x.resetRollbackOnly = y.resetRollbackOnly →
      x.cleared = y.cleared ∧ x.resource = y.resource := by
    intro x y hxy
    injection hxy with _ hresource _ _ _ _ _ hcleared
    exact ⟨hcleared, hresource⟩
  exact ⟨fun ho => ho.congr (hq.holders h).symm hφ, fun ho => ho.congr (hq.holders h) hφ⟩

section Fates

variable {h : HolderId} (heq : (s'.holder? h).map Holder.fate = (s.holder? h).map Holder.fate)
include heq

theorem ongoing_of_fate {r : ρ} : s'.Ongoing h r ↔ s.Ongoing h r := by
  have hφ : ∀ x y : Holder ρ, x.fate = y.fate → x.cleared = y.cleared ∧ x.resource = y.resource := by
    intro x y hxy
    exact ⟨congrArg (·.2.1) hxy, congrArg (·.1) hxy⟩
  exact ⟨fun ho => ho.congr heq.symm hφ, fun ho => ho.congr heq hφ⟩

theorem marked_of_fate : s'.marked h = s.marked h := by
  have hfate : ∀ o : Option (Holder ρ), o.any Holder.rollbackOnly = (o.map Holder.fate).any (·.2.2) := by
    intro o
    cases o <;> rfl
  unfold marked
  rw [hfate, hfate, heq]

end Fates

end Session

namespace Manager

open Session

variable {σ ρ ς : Type} {m : Manager σ ρ ς} {c : ContextIndex} {d : Definition} {st : Status ς}
  {s s' : Session σ ρ ς} {h : HolderId} {r : Except TransactionError Unit}

/-- The work of a scope is kept if that is asked for and nothing marks its transaction. -/
theorem keepsWork_of_holder {y : Holder ρ} (hh : st.holder = some h) (hy : s.holder? h = some y) (commit : Bool) :
    keepsWork commit st s = true ↔ commit = true ∧ st.rollbackOnly = false ∧ s.marked h = false := by
  have hglobal : s.isGlobalRollbackOnly st = s.marked h := by
    unfold isGlobalRollbackOnly statusHolder?
    rw [hh, marked_of_holder hy, Option.bind_some, hy]; rfl
  unfold keepsWork
  rw [hglobal]
  cases commit <;> cases st.rollbackOnly <;> cases s.marked h <;> simp

theorem Beginning.alike {γ : Type} {φ : Holder ρ → γ} {e : TransactionError}
    (hb : Beginning m c d s (.error e) s') : Alike φ s s' := by
  cases hb with
  | refused => exact .refl s
  | failed => exact .withNative s _

theorem Working.steady {commit : Bool} {state : TransactionState}
    (hw : Working m commit st s state r s') : Steady s s' := by
  cases hw with
  | kept | unmarked => exact .refl s
  | savepointReleased | committed | commitFailed | commitUndone | returnFailed | undone => exact .withNative s _
  | @returned sp n r n' =>
    have hreset : Steady (s.withNative n) ((s.withNative n).modifyHolderOf st Holder.resetRollbackOnly) :=
      .modifyHolderOf _ st fun _ => rfl
    exact ((Alike.withNative s n).trans hreset).trans (.withNative _ n')
  | marked => exact .modifyHolderOf s st fun _ => rfl

theorem Unbinding.alike {γ : Type} {φ : Holder ρ → γ} (hu : Unbinding m c h s r s') : Alike φ s s' := by
  cases hu with
  | unbound | other | foreign => exact .refl s
  | removed => exact .dropBinding s c _

theorem Releasing.steady (hr : Releasing m c st s r s') : Steady s s' := by
  cases hr with
  | nothing => exact .refl s
  | reference => exact .modifyHolder s _ fun _ => rfl
  | @transaction h _ s₁ _ n _ _ hun =>
    have hgive : Steady s₁ (s₁.modifyHolder h giveUp) := .modifyHolder _ h fun _ => rfl
    exact (((Alike.purge s c _).trans hun.alike).trans hgive).trans (.withNative _ n)

end Manager

end Demarcation
