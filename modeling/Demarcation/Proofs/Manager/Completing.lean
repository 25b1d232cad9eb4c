/-
How a scope is completed, whether with a commit or a rollback: the work of the scope is kept or
undone, its end is written down, what it acquired is released, and what it suspended is resumed.
Each part is described by the ways in which it can end, with the session that it leaves.
-/
import Demarcation.Proofs.Manager.Opening

namespace Demarcation

namespace Session

variable {σ ρ ς : Type}

/-- The session with a scope's end written down. -/
def endStatus (s : Session σ ρ ς) (t : StatusId) (state : TransactionState) : Session σ ρ ς :=
  s.modifyStatus t fun st => { st with completion := some state, savepoint := none }

/-- The session with the suspended transaction taken out of a status. -/
def takeSuspended (s : Session σ ρ ς) (t : StatusId) : Session σ ρ ς :=
  s.modifyStatus t fun st => { st with suspended := none }

/-- The session with the holder of a scope changed, if the scope has one. -/
def modifyHolderOf (s : Session σ ρ ς) (st : Status ς) (f : Holder ρ → Holder ρ) : Session σ ρ ς :=
  match st.holder with
  | none => s
  | some h => s.modifyHolder h f

section HolderOf

variable {st : Status ς} {h : HolderId} (s : Session σ ρ ς) (f : Holder ρ → Holder ρ)

theorem modifyHolderOf_of_holder (hh : st.holder = some h) : s.modifyHolderOf st f = s.modifyHolder h f := by
  unfold modifyHolderOf; rw [hh]

theorem modifyHolderOf_of_none (hh : st.holder = none) : s.modifyHolderOf st f = s := by
  unfold modifyHolderOf; rw [hh]

@[simp] theorem native_modifyHolderOf (st : Status ς) : (s.modifyHolderOf st f).native = s.native := by
  unfold modifyHolderOf
  split <;> rfl

theorem registries_modifyHolderOf (st : Status ς) : (s.modifyHolderOf st f).registries = s.registries := by
  unfold modifyHolderOf
  split <;> rfl

end HolderOf

end Session

namespace Manager

open Session

variable {σ ρ ς : Type} (m : Manager σ ρ ς) (c : ContextIndex) (t : StatusId) (st : Status ς)
  (s : Session σ ρ ς)

/-- Completes a scope as asked, with a commit or with a rollback. -/
def conclude (commit : Bool) (c : ContextIndex) (t : StatusId) : Attempt σ ρ ς TransactionError Unit :=
  if commit then m.commit c t else m.rollback c t

/-! ## The work of a scope -/

/-- Whether a commit of a scope really keeps its work. -/
def keepsWork (commit : Bool) (st : Status ς) (s : Session σ ρ ς) : Bool :=
  commit && !st.rollbackOnly && !s.isGlobalRollbackOnly st

/-- Keeps or undoes the work of a scope: the state in which the scope ends, and the error if that
failed. -/
def work (commit : Bool) (st : Status ς) (s : Session σ ρ ς) :
    (TransactionState × Except TransactionError Unit) × Session σ ρ ς :=
  if keepsWork commit st s then m.commitWork st s
  else
    ((if (m.rollbackWork st s).1.isOk then .rolledBack else .unknown, (m.rollbackWork st s).1),
      (m.rollbackWork st s).2)

/-- Whether a commit that was turned into a rollback has to be reported. -/
def reportsRollback (commit : Bool) (st : Status ς) (s : Session σ ρ ς) : Bool :=
  commit && !st.rollbackOnly && s.isGlobalRollbackOnly st &&
    (st.savepoint.isSome || st.newTransaction || m.config.failEarlyOnGlobalRollbackOnly) &&
    m.config.failOnUnexpectedRollback

variable {m c t st s} {commit : Bool}

theorem conclude_completed (hst : s.status? t = some st) (hc : st.isCompleted = true) :
    m.conclude commit c t s = (.error .alreadyCompleted, s) := by
  have hopen : (openStatus t : Attempt σ ρ ς TransactionError (Status ς)) s = (.error .alreadyCompleted, s) := by
    unfold openStatus
    rw [attempt_bind, attempt_get]
    simp only [hst, hc]; rfl
  cases commit
  · exact attempt_bind_error hopen
  · exact attempt_bind_error hopen

theorem processRollback_eq (unexpected : Bool) :
    m.processRollback c t st unexpected s =
      let w := m.rollbackWork st s
      let e := m.finish c t st (if w.1.isOk then .rolledBack else .unknown) w.1 w.2
      (match e.1 with
        | .error e => .error e
        | .ok () =>
          if unexpected &&
              (st.savepoint.isSome || st.newTransaction || m.config.failEarlyOnGlobalRollbackOnly) &&
              m.config.failOnUnexpectedRollback then .error .markedRollbackOnly
          else .ok (), e.2) := by
  have hpart : (!(st.savepoint.isNone && !st.newTransaction)) = (st.savepoint.isSome || st.newTransaction) := by
    cases st.savepoint <;> cases st.newTransaction <;> rfl
  unfold processRollback
  rw [← hpart]
  rcases hw : m.rollbackWork st s with ⟨outcome, s₁⟩
  show (m.rollbackWork st >>= fun _ => _ : Session.Step σ ρ ς _) s = _
  rw [step_bind, hw]
  dsimp only
  rw [step_bind]
  rcases m.finish c t st (if outcome.isOk then .rolledBack else .unknown) outcome s₁ with ⟨_ | ⟨⟩, s₂⟩
  · rfl
  · dsimp only
    split <;> rfl

theorem processCommit_eq :
    m.processCommit c t st s =
      m.finish c t st (m.commitWork st s).1.1 (m.commitWork st s).1.2 (m.commitWork st s).2 := rfl

/-- Completing an open scope: its work, then its end. -/
theorem conclude_open (hst : s.status? t = some st) (ho : st.isCompleted = false) :
    m.conclude commit c t s =
      let w := m.work commit st s
      let e := m.finish c t st w.1.1 w.1.2 w.2
      (match e.1 with
        | .error e => .error e
        | .ok () => if m.reportsRollback commit st s then .error .markedRollbackOnly else .ok (), e.2) := by
  have hopen : (openStatus t : Attempt σ ρ ς TransactionError (Status ς)) s = (.ok st, s) := by
    unfold openStatus
    rw [attempt_bind, attempt_get]
    simp only [hst, ho]; rfl
  cases commit with
  | false =>
    refine (attempt_bind_ok hopen).trans ((processRollback_eq false).trans ?_)
    simp [work, keepsWork, reportsRollback]
  | true =>
    refine (attempt_bind_ok hopen).trans ?_
    cases hl : st.rollbackOnly with
    | true =>
      refine (processRollback_eq false).trans ?_
      simp [work, keepsWork, reportsRollback, hl]
    | false =>
      dsimp only
      rw [if_neg (by simp), attempt_bind, attempt_get]
      dsimp only
      cases hg : s.isGlobalRollbackOnly st with
      | true =>
        rw [if_pos rfl]
        refine (processRollback_eq true).trans ?_
        simp [work, keepsWork, reportsRollback, hl, hg]
      | false =>
        rw [if_neg (by simp)]
        have hkeep : keepsWork true st s = true := by simp [keepsWork, hl, hg]
        have hreport : m.reportsRollback true st s = false := by simp [reportsRollback, hg]
        refine processCommit_eq.trans ?_
        rw [work, if_pos hkeep, hreport]
        rcases (m.finish c t st (m.commitWork st s).1.1 (m.commitWork st s).1.2 (m.commitWork st s).2)
          with ⟨_ | ⟨⟩, s₂⟩ <;> rfl

/-! ## How the work of a scope ends -/

/-- How the work of a scope ends: the state written down, the error, and the session. -/
inductive Working (m : Manager σ ρ ς) (commit : Bool) (st : Status ς) (s : Session σ ρ ς) :
    TransactionState → Except TransactionError Unit → Session σ ρ ς → Prop
  /-- A participant leaves its work to the owner. -/
  | kept : keepsWork commit st s = true → st.savepoint = none → st.newTransaction = false →
    Working m commit st s .committed (.ok ()) s
  | savepointReleased {sp : ς} {r : Except Failure Unit} {n : σ} : keepsWork commit st s = true →
    st.savepoint = some sp → s.applied st.holder (m.backend.releaseSavepoint · sp) = (r, n) →
    Working m commit st s (if r.isOk then .committed else .unknown)
      (r.mapError (.systemFailed "could not release savepoint")) (s.withNative n)
  | committed {n : σ} : keepsWork commit st s = true → st.savepoint = none → st.newTransaction = true →
    s.applied st.holder m.backend.commit = (.ok (), n) →
    Working m commit st s .committed (.ok ()) (s.withNative n)
  | commitFailed {f : Failure} {n : σ} : keepsWork commit st s = true → st.savepoint = none →
    st.newTransaction = true → s.applied st.holder m.backend.commit = (.error f, n) →
    m.config.rollbackOnCommitFailure = false →
    Working m commit st s .unknown (.error (.systemFailed "could not commit native transaction" f))
      (s.withNative n)
  /-- The commit failed, and the transaction was rolled back instead. -/
  | commitUndone {f : Failure} {n : σ} {r : Except Failure Unit} {n' : σ} : keepsWork commit st s = true →
    st.savepoint = none → st.newTransaction = true →
    s.applied st.holder m.backend.commit = (.error f, n) → m.config.rollbackOnCommitFailure = true →
    (s.withNative n).applied st.holder m.backend.rollback = (r, n') →
    Working m commit st s (if r.isOk then .rolledBack else .unknown)
      (.error (.systemFailed "could not commit native transaction" f)) (s.withNative n')
  | returnFailed {sp : ς} {f : Failure} {n : σ} : keepsWork commit st s = false → st.savepoint = some sp →
    s.applied st.holder (m.backend.rollbackToSavepoint · sp) = (.error f, n) →
    Working m commit st s .unknown (.error (.systemFailed "could not roll back to savepoint" f))
      (s.withNative n)
  /-- The work since the savepoint is undone, and the marks for it are taken back. -/
  | returned {sp : ς} {n : σ} {r : Except Failure Unit} {n' : σ} : keepsWork commit st s = false →
    st.savepoint = some sp → s.applied st.holder (m.backend.rollbackToSavepoint · sp) = (.ok (), n) →
    ((s.withNative n).modifyHolderOf st Holder.resetRollbackOnly).applied st.holder
      (m.backend.releaseSavepoint · sp) = (r, n') →
    Working m commit st s (if r.isOk then .rolledBack else .unknown)
      (r.mapError (.systemFailed "could not release savepoint"))
      (((s.withNative n).modifyHolderOf st Holder.resetRollbackOnly).withNative n')
  | undone {r : Except Failure Unit} {n : σ} : keepsWork commit st s = false → st.savepoint = none →
    st.newTransaction = true → s.applied st.holder m.backend.rollback = (r, n) →
    Working m commit st s (if r.isOk then .rolledBack else .unknown)
      (r.mapError (.systemFailed "could not roll back native transaction")) (s.withNative n)
  /-- A participant leaves the rollback to the owner. -/
  | marked : keepsWork commit st s = false → st.savepoint = none → st.newTransaction = false →
    (st.rollbackOnly || m.config.globalRollbackOnParticipationFailure) = true →
    Working m commit st s .rolledBack (.ok ()) (s.modifyHolderOf st Holder.setRollbackOnly)
  | unmarked : keepsWork commit st s = false → st.savepoint = none → st.newTransaction = false →
    (st.rollbackOnly || m.config.globalRollbackOnParticipationFailure) = false →
    Working m commit st s .rolledBack (.ok ()) s

theorem complete_eq (st : Status ς) (op : ρ → Native σ Unit) (text : String) (s : Session σ ρ ς) :
    complete st op text s =
      ((s.applied st.holder op).1.mapError (.systemFailed text), s.withNative (s.applied st.holder op).2) := by
  unfold complete
  cases st.holder with
  | none => rfl
  | some h =>
    obtain ⟨r, hr, hu⟩ := callOn_unit s h op (.systemFailed text)
    dsimp only
    rw [← hu]
    show (callOn h op (.systemFailed text) >>= fun _ => _ : Session.Step σ ρ ς _) s = _
    rw [step_bind, hr]
    rfl

theorem isOk_mapError {ε δ α : Type} (r : Except ε α) (f : ε → δ) : (r.mapError f).isOk = r.isOk := by
  cases r <;> rfl

theorem commitNative_spec (hk : keepsWork commit st s = true) (hsp : st.savepoint = none)
    (hnew : st.newTransaction = true) :
    Working m commit st s (m.commitNative st s).1.1 (m.commitNative st s).1.2 (m.commitNative st s).2 := by
  unfold commitNative
  rw [step_bind, complete_eq]
  rcases hc : s.applied st.holder m.backend.commit with ⟨f | ⟨⟩, n⟩
  · simp only [mapError_error]
    cases hr : m.config.rollbackOnCommitFailure with
    | false => exact .commitFailed hk hsp hnew hc hr
    | true =>
      rw [if_pos rfl, step_bind, complete_eq]
      rcases hu : (s.withNative n).applied st.holder m.backend.rollback with ⟨f' | ⟨⟩, n'⟩
      · exact .commitUndone hk hsp hnew hc hr hu
      · exact .commitUndone hk hsp hnew hc hr hu
  · exact .committed hk hsp hnew hc

theorem commitWork_spec (hk : keepsWork commit st s = true) :
    Working m commit st s (m.commitWork st s).1.1 (m.commitWork st s).1.2 (m.commitWork st s).2 := by
  unfold commitWork
  cases hsp : st.savepoint with
  | some sp =>
    dsimp only
    rw [step_bind, complete_eq]
    have hw := Working.savepointReleased (m := m) hk hsp rfl
    dsimp only
    rwa [← isOk_mapError _ (TransactionErrorFrom.systemFailed "could not release savepoint")] at hw
  | none =>
    cases hnew : st.newTransaction with
    | true => exact commitNative_spec hk hsp hnew
    | false => exact .kept hk hsp hnew

theorem rollbackToSavepoint_spec {sp : ς} (hk : keepsWork commit st s = false) (hsp : st.savepoint = some sp) :
    ∀ r s', m.rollbackToSavepoint st sp s = (r, s') →
      Working m commit st s (if r.isOk then .rolledBack else .unknown) r s' := by
  intro r s' hrun
  unfold rollbackToSavepoint at hrun
  rw [step_bind, complete_eq] at hrun
  rcases hr : s.applied st.holder (m.backend.rollbackToSavepoint · sp) with ⟨f | ⟨⟩, n⟩ <;> rw [hr] at hrun
  · obtain ⟨rfl, rfl⟩ := Prod.mk.inj hrun
    exact .returnFailed hk hsp hr
  · -- the marks are taken back before the savepoint is released
    have hrest : complete st (m.backend.releaseSavepoint · sp) "could not release savepoint"
        ((s.withNative n).modifyHolderOf st Holder.resetRollbackOnly) = (r, s') := by
      rw [← hrun]
      unfold modifyHolderOf
      cases st.holder <;> rfl
    rw [complete_eq] at hrest
    obtain ⟨rfl, rfl⟩ := Prod.mk.inj hrest
    rw [isOk_mapError]
    exact .returned hk hsp hr rfl

theorem rollbackWork_spec (hk : keepsWork commit st s = false) :
    ∀ r s', m.rollbackWork st s = (r, s') →
      Working m commit st s (if r.isOk then .rolledBack else .unknown) r s' := by
  intro r s' hrun
  unfold rollbackWork at hrun
  cases hsp : st.savepoint with
  | some sp =>
    rw [hsp] at hrun
    exact rollbackToSavepoint_spec hk hsp r s' hrun
  | none =>
    rw [hsp] at hrun
    dsimp only at hrun
    cases hnew : st.newTransaction with
    | true =>
      rw [hnew, if_pos rfl, complete_eq] at hrun
      obtain ⟨rfl, rfl⟩ := Prod.mk.inj hrun
      rw [isOk_mapError]
      exact .undone hk hsp hnew rfl
    | false =>
      rw [hnew, if_neg (by simp)] at hrun
      -- a participant leaves the rollback to the owner, which it tells by a mark
      cases hmark : (st.rollbackOnly || m.config.globalRollbackOnParticipationFailure) with
      | true =>
        have hw := Working.marked (m := m) (s := s) hk hsp hnew hmark
        unfold modifyHolderOf at hw
        rw [hmark] at hrun
        cases hh : st.holder with
        | none => rw [hh] at hrun hw; obtain ⟨rfl, rfl⟩ := Prod.mk.inj hrun; exact hw
        | some h => rw [hh] at hrun hw; obtain ⟨rfl, rfl⟩ := Prod.mk.inj hrun; exact hw
      | false =>
        have hw := Working.unmarked (m := m) (s := s) hk hsp hnew hmark
        rw [hmark] at hrun
        cases hh : st.holder with
        | none => rw [hh] at hrun; obtain ⟨rfl, rfl⟩ := Prod.mk.inj hrun; exact hw
        | some h => rw [hh] at hrun; obtain ⟨rfl, rfl⟩ := Prod.mk.inj hrun; exact hw

theorem work_spec (m : Manager σ ρ ς) (commit : Bool) (st : Status ς) (s : Session σ ρ ς) :
    Working m commit st s (m.work commit st s).1.1 (m.work commit st s).1.2 (m.work commit st s).2 := by
  unfold work
  cases hk : keepsWork commit st s with
  | true => rw [if_pos rfl]; exact commitWork_spec hk
  | false => rw [if_neg (by simp)]; exact rollbackWork_spec hk _ _ rfl

/-! ## Releasing what a scope acquired -/

/-- How the holder of a completed transaction is unbound in a context without a void binding. -/
inductive Unbinding (m : Manager σ ρ ς) (c : ContextIndex) (h : HolderId) (s : Session σ ρ ς) :
    Except TransactionError Unit → Session σ ρ ς → Prop
  | unbound : s.bound c m.backend.key = none → Unbinding m c h s (.ok ()) s
  | removed {x : Holder ρ} : s.bound c m.backend.key = some h → s.holder? h = some x → x.cleared = false →
    x.kind = m.backend.kind → Unbinding m c h s (.ok ()) (s.dropBinding c m.backend.key)
  /-- Another transaction is bound by now. -/
  | other {h' : HolderId} {x : Holder ρ} : s.bound c m.backend.key = some h' → h' ≠ h → s.holder? h' = some x →
    x.cleared = false → x.kind = m.backend.kind → Unbinding m c h s (.ok ()) s
  | foreign {h' : HolderId} {x : Holder ρ} (e : RegistryError) : s.bound c m.backend.key = some h' →
    s.holder? h' = some x → x.kind ≠ m.backend.kind → x.cleared = false →
    Unbinding m c h s (.error (.registry e)) s

theorem unbindCompleted_spec (m : Manager σ ρ ς) (c : ContextIndex) (h : HolderId) (s : Session σ ρ ς) :
    ∃ r s', m.unbindCompleted c h s = (r, s') ∧ Unbinding m c h (s.purge c m.backend.key) r s' := by
  obtain ⟨r, hfind, hlook⟩ := find_spec s c m.backend.kind m.backend.key
  have hcur : m.currentHolder c s = (r.mapError .registry, s.purge c m.backend.key) := by
    unfold currentHolder
    rw [attempt_adapt, hfind]
  unfold unbindCompleted
  cases hlook with
  | unbound hb => exact ⟨_, _, attempt_bind_ok hcur, .unbound hb⟩
  | foreign e hb hx hl hk => exact ⟨_, _, attempt_bind_error hcur, .foreign e hb hx hk hl⟩
  | live hb hx hl hk =>
    rename_i h' x
    rw [attempt_bind_ok hcur]
    dsimp only
    by_cases heq : h' = h
    · subst heq
      refine ⟨_, _, ?_, .removed hb hx hl hk⟩
      rw [if_pos rfl, attempt_bind, attempt_adapt, unbind_live hb hx hl hk]
      rfl
    · rw [if_neg heq]
      exact ⟨_, _, rfl, .other hb heq hx hl hk⟩

theorem Unbinding.native {h : HolderId} {r : Except TransactionError Unit} {s' : Session σ ρ ς}
    (hun : Unbinding m c h s r s') : s'.native = s.native := by
  cases hun <;> rfl

theorem Unbinding.of_live {h : HolderId} {x : Holder ρ} {r : Except TransactionError Unit} {s' : Session σ ρ ς}
    (hun : Unbinding m c h (s.purge c m.backend.key) r s') (hb : s.bound c m.backend.key = some h)
    (hx : s.holder? h = some x) (hl : x.cleared = false) (hk : x.kind = m.backend.kind) :
    s' = s.dropBinding c m.backend.key := by
  rw [purge_of_live hb hx hl] at hun
  cases hun with
  | unbound hn => rw [hb] at hn; cases hn
  | removed => rfl
  | other hb' hne => exact absurd (Option.some.inj (hb'.symm.trans hb)) hne
  | foreign _ hb' hx' hne =>
    obtain rfl := Option.some.inj (hb'.symm.trans hb)
    obtain rfl := Option.some.inj (hx'.symm.trans hx)
    exact absurd hk hne

/-- The native transaction and its holder are given up. -/
def giveUp (x : Holder ρ) : Holder ρ := x.released.clear

/-- How a scope releases what it acquired. -/
inductive Releasing (m : Manager σ ρ ς) (c : ContextIndex) (st : Status ς) (s : Session σ ρ ς) :
    Except TransactionError Unit → Session σ ρ ς → Prop
  | nothing : st.holder = none → Releasing m c st s (.ok ()) s
  | reference {h : HolderId} : st.holder = some h → st.newTransaction = false →
    Releasing m c st s (.ok ()) (s.modifyHolder h Holder.released)
  | transaction {h : HolderId} {r₁ : Except TransactionError Unit} {s' : Session σ ρ ς}
    {r₂ : Except Failure Unit} {n : σ} : st.holder = some h → st.newTransaction = true →
    Unbinding m c h (s.purge c m.backend.key) r₁ s' →
    (s'.modifyHolder h giveUp).applied (some h) m.backend.cleanup = (r₂, n) →
    Releasing m c st s
      (firstError r₁
        (r₂.mapError (.systemFailed "could not clean up native resource after transaction")))
      ((s'.modifyHolder h giveUp).withNative n)

theorem releaseScope_spec (m : Manager σ ρ ς) (c : ContextIndex) (st : Status ς) (s : Session σ ρ ς) :
    ∃ r s', m.releaseScope c st s = (r, s') ∧ Releasing m c st s r s' := by
  unfold releaseScope
  cases hh : st.holder with
  | none => exact ⟨_, _, rfl, .nothing hh⟩
  | some h =>
    cases hnew : st.newTransaction with
    | false => exact ⟨_, _, rfl, .reference hh hnew⟩
    | true =>
      obtain ⟨r₁, s', hun, hunb⟩ := unbindCompleted_spec m c h s
      obtain ⟨r₂, hclean, hmap⟩ := callOn_unit (s'.modifyHolder h giveUp) h m.backend.cleanup
        (.systemFailed "could not clean up native resource after transaction")
      rcases happ : (s'.modifyHolder h giveUp).applied (some h) m.backend.cleanup with ⟨r, n⟩
      rw [happ] at hclean hmap
      refine ⟨_, _, ?_, .transaction hh hnew hunb happ⟩
      dsimp only at hmap ⊢
      rw [if_pos rfl, ← hmap]
      unfold releaseTransaction
      exact (step_bind_of hun).trans ((step_bind_of rfl).trans ((step_bind_of hclean).trans rfl))

/-! ## Resuming what a scope suspended -/

/-- How a scope resumes what it suspended. -/
inductive Resuming (m : Manager σ ρ ς) (c : ContextIndex) (t : StatusId) (st : Status ς)
    (s : Session σ ρ ς) : Except TransactionError Unit → Session σ ρ ς → Prop
  | nothing : st.suspended = none → Resuming m c t st s (.ok ()) s
  | refused {h : HolderId} {e : RegistryError} : st.suspended = some h →
    bind c m.backend.key h (s.takeSuspended t) = (.error e, s.takeSuspended t) →
    Resuming m c t st s (.error (.registry e)) (s.takeSuspended t)
  | resumed {h : HolderId} {r : Except Failure Unit} {n : σ} : st.suspended = some h →
    ((s.takeSuspended t).attach c m.backend.key h).applied (some h) m.backend.resume = (r, n) →
    bind c m.backend.key h (s.takeSuspended t) = (.ok (), (s.takeSuspended t).putBinding c m.backend.key h) →
    Resuming m c t st s (r.mapError (.systemFailed "could not resume native transaction"))
      (((s.takeSuspended t).attach c m.backend.key h).withNative n)

theorem resumeSuspended_spec (m : Manager σ ρ ς) (c : ContextIndex) (t : StatusId) (st : Status ς)
    (s : Session σ ρ ς) :
    ∃ r s', m.resumeSuspended c t st s = (r, s') ∧ Resuming m c t st s r s' := by
  unfold resumeSuspended
  cases hs : st.suspended with
  | none => exact ⟨_, _, rfl, .nothing hs⟩
  | some h =>
    rcases resume_spec m c h (s.takeSuspended t) with ⟨e, hb, hr⟩ | ⟨hb, hr⟩
    · exact ⟨_, _, hr, .refused hs hb⟩
    · exact ⟨_, _, hr, .resumed hs rfl hb⟩

/-! ## Completing as a whole -/

/-- How completing an open scope ends. -/
inductive Concluding (m : Manager σ ρ ς) (commit : Bool) (c : ContextIndex) (t : StatusId) (st : Status ς)
    (s : Session σ ρ ς) : Except TransactionError Unit → Session σ ρ ς → Prop
  | mk {state : TransactionState} {outcome r₁ r₂ : Except TransactionError Unit} {s₁ s₂ s₃ : Session σ ρ ς} :
    Working m commit st s state outcome s₁ → Releasing m c st (s₁.endStatus t state) r₁ s₂ →
    Resuming m c t st s₂ r₂ s₃ →
    Concluding m commit c t st s
      (match firstError outcome (firstError r₁ r₂) with
        | .error e => .error e
        | .ok () => if m.reportsRollback commit st s then .error .markedRollbackOnly else .ok ()) s₃

theorem conclude_spec (m : Manager σ ρ ς) (commit : Bool) (c : ContextIndex) (hst : s.status? t = some st)
    (ho : st.isCompleted = false) :
    ∃ r s', m.conclude commit c t s = (r, s') ∧ Concluding m commit c t st s r s' := by
  have hwork := work_spec m commit st s
  obtain ⟨r₁, s₂, hrel, hrelease⟩ := releaseScope_spec m c st
    ((m.work commit st s).2.endStatus t (m.work commit st s).1.1)
  obtain ⟨r₂, s₃, hres, hresume⟩ := resumeSuspended_spec m c t st s₂
  refine ⟨_, _, ?_, .mk hwork hrelease hresume⟩
  rw [conclude_open hst ho]
  have hfinish : m.finish c t st (m.work commit st s).1.1 (m.work commit st s).1.2 (m.work commit st s).2 =
      (firstError (m.work commit st s).1.2 (firstError r₁ r₂), s₃) := by
    have hcleanup : m.cleanupAfterCompletion c t st
        ((m.work commit st s).2.endStatus t (m.work commit st s).1.1) = (firstError r₁ r₂, s₃) :=
      (step_bind_of hrel).trans ((step_bind_of hres).trans rfl)
    exact (step_bind_of rfl).trans ((step_bind_of hcleanup).trans rfl)
  simp only [hfinish]

/-- A status that was never handed out counts as completed. -/
theorem conclude_missing (m : Manager σ ρ ς) (commit : Bool) (c : ContextIndex) (hst : s.status? t = none) :
    m.conclude commit c t s = (.error .alreadyCompleted, s) := by
  have hopen : (openStatus t : Attempt σ ρ ς TransactionError (Status ς)) s = (.error .alreadyCompleted, s) := by
    unfold openStatus
    rw [attempt_bind, attempt_get]
    simp only [hst]; rfl
  cases commit
  · exact attempt_bind_error hopen
  · exact attempt_bind_error hopen

/-- Completing a scope is refused if the scope is not open, and otherwise completes it in one of the ways
of `Concluding`. -/
theorem conclude_cases (m : Manager σ ρ ς) (commit : Bool) (c : ContextIndex) (t : StatusId) (s : Session σ ρ ς) :
    (m.conclude commit c t s = (.error .alreadyCompleted, s) ∧
      ∀ st, s.status? t = some st → st.isCompleted = true) ∨
    ∃ st r s', s.status? t = some st ∧ st.isCompleted = false ∧ m.conclude commit c t s = (r, s') ∧
      Concluding m commit c t st s r s' := by
  cases hst : s.status? t with
  | none =>
    refine .inl ⟨conclude_missing m commit c hst, fun st hsome => ?_⟩
    cases hsome
  | some st =>
    cases hopen : st.isCompleted with
    | true =>
      refine .inl ⟨conclude_completed hst hopen, fun st' hsome => ?_⟩
      obtain rfl := Option.some.inj hsome
      exact hopen
    | false =>
      obtain ⟨r, s', hrun, hc⟩ := conclude_spec m commit c hst hopen
      exact .inr ⟨st, r, s', rfl, hopen, hrun, hc⟩

end Manager

end Demarcation
