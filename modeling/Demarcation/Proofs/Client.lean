/-
Clients that call a manager in any order: scopes need not be nested, calls may be repeated, and any
context may be used at any time. What every call does to the statuses, to the resources of the
holders and to the native state is told in outline, and from it follows that every transaction has
one owner.
-/
import Demarcation.Proofs.Session.Steady

namespace Demarcation

open Session Manager

variable {σ ρ ς α β : Type}

/-- A call of a client. -/
inductive ManagerCall (α : Type)
  | enter (c : ContextIndex) (d : Definition)
  /-- A commit or a rollback of a scope. -/
  | conclude (commit : Bool) (c : ContextIndex) (t : StatusId)
  /-- A rollback is requested on a status. -/
  | mark (t : StatusId)
  /-- Something that is not a call of the manager. -/
  | act (a : α)

namespace Manager

/-- The session after a call, whatever the call answers. -/
def called (m : Manager σ ρ ς) (act : α → Session σ ρ ς → Session σ ρ ς) (s : Session σ ρ ς) :
    ManagerCall α → Session σ ρ ς
  | .enter c d => (m.getTransaction c d s).2
  | .conclude commit c t => (m.conclude commit c t s).2
  | .mark t => s.setRollbackOnly t
  | .act a => act a s

/-- The session after calls one after another. -/
def calledAll (m : Manager σ ρ ς) (act : α → Session σ ρ ς → Session σ ρ ς)
    (calls : List (ManagerCall α)) (s : Session σ ρ ς) : Session σ ρ ς :=
  calls.foldl (called m act) s

end Manager

/-! ## Calls in outline -/

/-- An observation of the native state that opening a scope changes only by beginning a transaction. -/
structure Backend.Untouched (b : Backend σ ρ ς) (φ : σ → β) : Prop where
  failed : ∀ {d n f n'}, b.start d n = (.error f, n') → φ n' = φ n
  suspend : ∀ r n, φ (b.suspend r n).2 = φ n
  resume : ∀ r n, φ (b.resume r n).2 = φ n
  createSavepoint : ∀ r n, φ (b.createSavepoint r n).2 = φ n

/-- An observation of the native state that no primitive changes but the beginning and the completion
of transactions. -/
structure Backend.Unmoved (b : Backend σ ρ ς) (φ : σ → β) : Prop extends b.Untouched φ where
  rollbackToSavepoint : ∀ r sp n, φ (b.rollbackToSavepoint r sp n).2 = φ n
  releaseSavepoint : ∀ r sp n, φ (b.releaseSavepoint r sp n).2 = φ n

theorem Backend.Untouched.const (b : Backend σ ρ ς) : b.Untouched fun _ => () :=
  ⟨fun _ => rfl, fun _ _ => rfl, fun _ _ => rfl, fun _ _ => rfl⟩

theorem Session.applied_observed {s : Session σ ρ ς} {h : Option HolderId} {op : ρ → Native σ Unit} {φ : σ → β}
    (hop : ∀ r n, φ (op r n).2 = φ n) : φ (s.applied h op).2 = φ s.native := by
  unfold applied
  split
  · rfl
  · exact hop _ _

theorem Session.observed_of_applied {s : Session σ ρ ς} {h : Option HolderId} {op : ρ → Native σ Unit}
    {φ : σ → β} {r : Except Failure Unit} {n : σ} (happ : s.applied h op = (r, n))
    (hop : ∀ r n, φ (op r n).2 = φ n) : φ n = φ s.native := by
  rw [← applied_observed hop, happ]

/-- The session with a new transaction, whose holder is bound. -/
def Session.started (s : Session σ ρ ς) (c : ContextIndex) (key : ResourceKey) (x : Holder ρ) (n : σ) :
    Session σ ρ ς :=
  ((s.withNative n).addHolder x).2.putBinding c key s.holders.size

section Started

variable (s : Session σ ρ ς) (c : ContextIndex) (key : ResourceKey) (x : Holder ρ) (n : σ)

@[simp] theorem Session.status?_started (t : StatusId) : (s.started c key x n).status? t = s.status? t := rfl

@[simp] theorem Session.holder?_started (h : HolderId) :
    (s.started c key x n).holder? h = if h = s.holders.size then some x else s.holder? h :=
  holder?_addHolder (s.withNative n) h x

theorem Session.started_size : (s.started c key x n).holders.size = s.holders.size + 1 :=
  addHolder_size (s.withNative n) x

end Started

/-- The ways of opening a scope, in outline, as seen by an observation of the native state. -/
inductive Outline (m : Manager σ ρ ς) (c : ContextIndex) (d : Definition) (φ : σ → β) (s : Session σ ρ ς) :
    Except TransactionError StatusId → Session σ ρ ς → Prop
  | failed {e : TransactionError} {s' : Session σ ρ ς} : Alike Holder.fate s s' → φ s'.native = φ s.native →
    Outline m c d φ s (.error e) s'
  /-- The scope has no transaction or joined one. -/
  | entered {s₁ : Session σ ρ ς} {st : Status ς} : Alike Holder.fate s s₁ → φ s₁.native = φ s.native →
    st.completion = none → st.newTransaction = false → (∀ h, st.holder = some h → h < s.holders.size) →
    (∀ sp, st.savepoint = some sp → st.definition.propagation = .nested ∧
      ∃ h x, st.holder = some h ∧ s.holder? h = some x ∧
        m.backend.createSavepoint x.resource s.native = (.ok sp, s₁.native)) →
    Outline m c d φ s (.ok s₁.statuses.size) (s₁.addStatus st).2
  | begun {s₁ : Session σ ρ ς} {st : Status ς} {x : Holder ρ} {n : σ} : Alike Holder.fate s s₁ →
    φ s₁.native = φ s.native → m.backend.start d s₁.native = (.ok x.resource, n) →
    x.rollbackOnly = false → st.completion = none → st.newTransaction = true → st.savepoint = none →
    st.rollbackOnly = false → st.holder = some s₁.holders.size →
    Outline m c d φ s (.ok s₁.statuses.size) ((s₁.started c m.backend.key x n).addStatus st).2

section Outlines

variable {m : Manager σ ρ ς} {c : ContextIndex} {d : Definition} {φ : σ → β} {s s' s₁ : Session σ ρ ς}
  {h : HolderId} {st : Status ς}

theorem Manager.Beginning.failed_observed {e : TransactionError} (hb : Beginning m c d s (.error e) s')
    (hφ : m.backend.Untouched φ) : φ s'.native = φ s.native := by
  cases hb with
  | refused => rfl
  | failed hstart => exact hφ.failed hstart

theorem Manager.Beginning.outline (hb : Beginning m c d s₁ (.ok h) s') (halike : Alike Holder.fate s s₁)
    (hn : φ s₁.native = φ s.native) {st : Status ς} (hst : st.completion = none ∧ st.newTransaction = true ∧
      st.savepoint = none ∧ st.rollbackOnly = false ∧ st.holder = some h) :
    Outline m c d φ s (.ok s'.statuses.size) (s'.addStatus st).2 := by
  obtain ⟨hopen, hnew, hsp, hmark, hh⟩ := hst
  cases hb with
  | @begun timeout r n _ _ hstart =>
    obtain ⟨_, hr, _, _, hoff⟩ := newHolder_fresh m d r timeout s₁.now
    exact .begun halike hn (x := m.newHolder d r timeout s₁.now) (by rw [hr]; exact hstart) hoff hopen hnew hsp
      hmark hh

theorem Manager.Opening.outline {r : Except TransactionError StatusId} (ho : Opening m c d s r s')
    (hφ : m.backend.Untouched φ) : Outline m c d φ s r s' := by
  cases ho with
  | refused => exact .failed (.refl s) rfl
  | untransacted => exact .entered (.refl s) rfl rfl rfl nofun nofun
  | beginFailed _ hbegin => exact .failed hbegin.alike (hbegin.failed_observed hφ)
  | begun _ _ hbegin => exact hbegin.outline (.refl s) rfl ⟨rfl, rfl, rfl, rfl, rfl⟩
  | @suspendFailed h x f n _ _ _ _ _ hn =>
    exact .failed (.withNative s n) (by rw [← hφ.suspend x.resource s.native, hn]; rfl)
  | @detached h x n _ _ _ _ _ hn =>
    exact .entered ((Alike.withNative s n).trans (.detach _ c _ h fun _ => rfl))
      (by rw [← hφ.suspend x.resource s.native, hn]; rfl) rfl rfl nofun nofun
  | @renewed h h' x n s₂ _ _ _ _ _ hn hbegin =>
    exact hbegin.outline ((Alike.withNative s n).trans (.detach _ c _ h fun _ => rfl))
      (by rw [← hφ.suspend x.resource s.native, hn]; rfl) ⟨rfl, rfl, rfl, rfl, rfl⟩
  | @renewFailed h x n e s₂ s₃ r _ _ _ _ _ hn hbegin hres =>
    have hback : φ s₂.native = φ s.native := by
      rw [hbegin.failed_observed hφ, ← hφ.suspend x.resource s.native, hn]; rfl
    have halike : Alike Holder.fate s s₂ :=
      ((Alike.withNative s n).trans (.detach _ c _ h fun _ => rfl)).trans hbegin.alike
    -- the older transaction is attached again, unless another one is bound by now
    rcases resume_spec m c h s₂ with ⟨_, _, hrun⟩ | ⟨_, hrun⟩
    · obtain ⟨-, rfl⟩ := Prod.mk.inj (hres.symm.trans hrun)
      exact .failed halike hback
    · obtain ⟨-, rfl⟩ := Prod.mk.inj (hres.symm.trans hrun)
      exact .failed (halike.trans ((Alike.attach s₂ c _ h fun _ => rfl).trans (.withNative _ _)))
        ((applied_observed hφ.resume).trans hback)
  | @savepointFailed h x f n _ _ _ _ _ _ _ hn =>
    exact .failed (.withNative s n) (by rw [← hφ.createSavepoint x.resource s.native, hn]; rfl)
  | @nested h x sp n _ hx _ _ hp _ _ hn =>
    have hjoin : Alike Holder.fate (s.withNative n) ((s.withNative n).modifyHolder h Holder.requested) :=
      .modifyHolder _ h fun _ => rfl
    refine .entered ((Alike.withNative s n).trans hjoin)
      (by rw [← hφ.createSavepoint x.resource s.native, hn]; rfl) rfl rfl ?_ ?_
    · rintro _ ⟨⟩
      exact holder?_lt hx
    · rintro _ ⟨⟩
      exact ⟨hp, h, x, rfl, hx, hn⟩
  | @joined h x _ hx =>
    have hjoin : Alike Holder.fate s (s.modifyHolder h Holder.requested) := .modifyHolder s h fun _ => rfl
    refine .entered hjoin rfl rfl rfl ?_ nofun
    rintro _ ⟨⟩
    exact holder?_lt hx

theorem getTransaction_outline (m : Manager σ ρ ς) (c : ContextIndex) (d : Definition) (s : Session σ ρ ς)
    (hφ : m.backend.Untouched φ) : ∃ r s', m.getTransaction c d s = (r, s') ∧ Outline m c d φ s r s' := by
  obtain ⟨r, s', hrun, hopen⟩ := getTransaction_spec m c d s
  have hpurge : Alike Holder.fate s (s.purge c m.backend.key) := .purge s c m.backend.key
  refine ⟨r, s', hrun, ?_⟩
  cases hopen.outline hφ with
  | failed hs hn => exact .failed (hpurge.trans hs) (hn.trans (by rw [native_purge]))
  | entered hs hn ho hnew hlt hsp =>
    rw [native_purge] at hn
    rw [hpurge.holders_size] at hlt
    simp only [native_purge, holder?_purge] at hsp
    exact .entered (hpurge.trans hs) hn ho hnew hlt hsp
  | begun hs hn hstart hoff ho hnew hsp hmark hh =>
    exact .begun (hpurge.trans hs) (hn.trans (by rw [native_purge])) hstart hoff ho hnew hsp hmark hh

/-- A scope that is opened has the next status. -/
theorem getTransaction_status {t : StatusId} (hrun : m.getTransaction c d s = (.ok t, s')) :
    t = s.statuses.size ∧ s'.statuses.size = t + 1 := by
  obtain ⟨r, s₁, hrun', houtline⟩ := getTransaction_outline m c d s (.const m.backend)
  obtain ⟨hr, rfl⟩ := Prod.mk.inj (hrun'.symm.trans hrun)
  cases houtline with
  | failed => cases hr
  | entered halike =>
    cases hr
    exact ⟨congrArg Array.size halike.statuses, addStatus_size _ _⟩
  | begun halike =>
    cases hr
    exact ⟨congrArg Array.size halike.statuses, addStatus_size _ _⟩

/-! ## Completing in outline -/

/-- The status of a scope that ended. -/
def Status.ended (st : Status ς) (state : TransactionState) : Status ς :=
  { st with completion := some state, savepoint := none, suspended := none }

theorem Status.ended_of_attached {state : TransactionState} (hs : st.suspended = none) :
    { st with completion := some state, savepoint := none } = st.ended state := by
  unfold Status.ended
  rw [← hs]

theorem Session.status?_endStatus {t : StatusId} (hst : s.status? t = some st) (state : TransactionState)
    (u : StatusId) : (s.endStatus t state).status? u =
      if u = t then some { st with completion := some state, savepoint := none } else s.status? u := by
  unfold endStatus
  rw [status?_modifyStatus]
  split
  · rename_i hu
    rw [hu, hst]; rfl
  · rfl

theorem Manager.Resuming.observed {t : StatusId} {r : Except TransactionError Unit}
    (hr : Resuming m c t st s r s') (hresume : ∀ r n, φ (m.backend.resume r n).2 = φ n) :
    φ s'.native = φ s.native := by
  cases hr with
  | nothing | refused => rfl
  | @resumed h _ n _ hn =>
    have hseen : φ n = φ ((s.takeSuspended t).attach c m.backend.key h).native := observed_of_applied hn hresume
    exact hseen

/-- Resuming takes what was suspended out of the status, and nothing becomes of any transaction. -/
theorem Manager.Resuming.outline {t : StatusId} {r : Except TransactionError Unit}
    (hr : Resuming m c t st s r s') :
    (st.suspended = none ∧ s' = s) ∨ Alike Holder.fate (s.takeSuspended t) s' := by
  cases hr with
  | nothing hs => exact .inl ⟨hs, rfl⟩
  | refused => exact .inr (.refl _)
  | resumed => exact .inr ((Alike.attach _ c _ _ fun _ => rfl).trans (.withNative _ _))

/-- Nothing is reported only if the work succeeded and no rollback has to be reported. -/
theorem Manager.ok_of_reported {outcome r₁ r₂ : Except TransactionError Unit} {reports : Bool}
    (h : (match firstError outcome (firstError r₁ r₂) with
      | .error e => .error e
      | .ok () => if reports then .error .markedRollbackOnly else .ok () : Except TransactionError Unit) = .ok ()) :
    outcome = .ok () ∧ reports = false := by
  cases outcome with
  | error e => cases h
  | ok u =>
    refine ⟨rfl, ?_⟩
    cases reports with
    | false => rfl
    | true =>
      rw [show firstError (.ok u) (firstError r₁ r₂) = firstError r₁ r₂ from rfl] at h
      cases hfirst : firstError r₁ r₂ with
      | error e => rw [hfirst] at h; cases h
      | ok u' => rw [hfirst] at h; cases h

/-- Completing an open scope, in outline: the work and the release decide what happens natively and what
becomes of the transactions, the status says how the scope ended, and other statuses stay. -/
theorem Manager.Concluding.outline {commit : Bool} {t : StatusId} {r : Except TransactionError Unit}
    (hst : s.status? t = some st) (hc : Concluding m commit c t st s r s') (hφ : m.backend.Untouched φ) :
    ∃ state outcome s₁ r₁ s₂, Working m commit st s state outcome s₁ ∧
      Releasing m c st (s₁.endStatus t state) r₁ s₂ ∧ φ s'.native = φ s₂.native ∧
      (∀ u, s'.status? u = if u = t then some (st.ended state) else s.status? u) ∧
      (∀ h, (s'.holder? h).map Holder.fate = (s₂.holder? h).map Holder.fate) ∧
      (r = .ok () → outcome = .ok () ∧ m.reportsRollback commit st s = false) := by
  cases hc with
  | @mk state outcome r₁ r₂ s₁ s₂ s₃ hwork hrel hres =>
    -- until what was suspended is taken out, only the end is written down
    have hended : ∀ u, s₂.status? u =
        if u = t then some { st with completion := some state, savepoint := none } else s.status? u := by
      intro u
      rw [hrel.steady.status?, status?_endStatus (by rw [hwork.steady.status?]; exact hst),
        hwork.steady.status?]
    refine ⟨state, outcome, s₁, r₁, s₂, hwork, hrel, hres.observed hφ.resume, fun u => ?_, fun h => ?_,
      ok_of_reported⟩
    · rcases hres.outline with ⟨hs, rfl⟩ | halike
      · rw [hended, Status.ended_of_attached hs]
      · rw [halike.status?, takeSuspended, status?_modifyStatus, hended]
        split <;> rfl
    · rcases hres.outline with ⟨_, rfl⟩ | halike
      · rfl
      · exact halike.holders h

theorem Manager.Concluding.resources {commit : Bool} {t : StatusId} {r : Except TransactionError Unit}
    (hst : s.status? t = some st) (hc : Concluding m commit c t st s r s') (h : HolderId) :
    (s'.holder? h).map Holder.resource = (s.holder? h).map Holder.resource := by
  obtain ⟨_, _, s₁, _, s₂, hwork, hrel, -, -, hfates, -⟩ := hc.outline hst (.const m.backend)
  have hlast : (s'.holder? h).map Holder.resource = (s₂.holder? h).map Holder.resource := by
    have hfirst := congrArg (Option.map Prod.fst) (hfates h)
    rw [Option.map_map, Option.map_map] at hfirst
    exact hfirst
  exact (hlast.trans (hrel.steady.holders h)).trans (hwork.steady.holders h)

/-- A participant does not complete a transaction. -/
theorem Manager.Working.participant {commit : Bool} {state : TransactionState}
    {outcome : Except TransactionError Unit} (hw : Working m commit st s state outcome s')
    (hφ : m.backend.Unmoved φ) (hnew : st.newTransaction = false) : φ s'.native = φ s.native := by
  cases hw with
  | kept | unmarked => rfl
  | savepointReleased _ _ happ => exact observed_of_applied happ fun r n => hφ.releaseSavepoint r _ n
  | returnFailed _ _ happ => exact observed_of_applied happ fun r n => hφ.rollbackToSavepoint r _ n
  | returned _ _ happ hrel =>
    refine (observed_of_applied hrel fun r n => hφ.releaseSavepoint r _ n).trans ?_
    rw [native_modifyHolderOf]
    exact observed_of_applied happ fun r n => hφ.rollbackToSavepoint r _ n
  | marked => rw [native_modifyHolderOf]
  | committed _ _ hnew' | commitFailed _ _ hnew' | commitUndone _ _ hnew' | undone _ _ hnew' =>
    rw [hnew] at hnew'; cases hnew'

/-- An owner's work is seen only where it commits, and the scope ends committed exactly if the commit
succeeds. -/
theorem Manager.Working.observed {commit : Bool} {state : TransactionState}
    {outcome : Except TransactionError Unit} (hw : Working m commit st s state outcome s')
    (hrollback : ∀ r n, φ (m.backend.rollback r n).2 = φ n) (hnew : st.newTransaction = true)
    (hsp : st.savepoint = none) :
    (keepsWork commit st s = false ∧ φ s'.native = φ s.native ∧ state ≠ .committed) ∨
    (keepsWork commit st s = true ∧ φ s'.native = φ (s.applied st.holder m.backend.commit).2 ∧
      (state = .committed ↔ (s.applied st.holder m.backend.commit).1 = .ok ()) ∧
      (outcome = .ok () → state = .committed)) := by
  cases hw with
  | kept _ _ hnew' | marked _ _ hnew' | unmarked _ _ hnew' => rw [hnew] at hnew'; cases hnew'
  | savepointReleased _ hsp' | returnFailed _ hsp' | returned _ hsp' => rw [hsp] at hsp'; cases hsp'
  | committed hk _ _ happ => exact .inr ⟨hk, by rw [happ]; rfl, by rw [happ]; simp, fun _ => rfl⟩
  | commitFailed hk _ _ happ => exact .inr ⟨hk, by rw [happ]; rfl, by rw [happ]; simp, nofun⟩
  | commitUndone hk _ _ happ _ hundo =>
    refine .inr ⟨hk, ?_, ?_, nofun⟩
    · rw [happ]; exact observed_of_applied hundo hrollback
    · rw [happ]; split <;> simp
  | undone hk _ _ happ =>
    refine .inl ⟨hk, observed_of_applied happ hrollback, ?_⟩
    split <;> simp

theorem Manager.Releasing.observed {r : Except TransactionError Unit} (hr : Releasing m c st s r s')
    (hcleanup : ∀ r n, φ (m.backend.cleanup r n).2 = φ n) : φ s'.native = φ s.native := by
  cases hr with
  | nothing | reference => rfl
  | @transaction h r₁ s₁ r₂ n _ _ hun happ =>
    have hnative : s₁.native = s.native := hun.native.trans (native_purge s c _)
    exact (observed_of_applied happ hcleanup).trans (congrArg φ hnative)

theorem Manager.Releasing.participant {r : Except TransactionError Unit} (hr : Releasing m c st s r s')
    (hnew : st.newTransaction = false) : s'.native = s.native := by
  cases hr with
  | nothing | reference => rfl
  | transaction _ hnew' => rw [hnew] at hnew'; cases hnew'

/-- Completing a scope that did not begin its transaction leaves every transaction as it is. -/
theorem Manager.Concluding.participant {commit : Bool} {t : StatusId} {r : Except TransactionError Unit}
    (hst : s.status? t = some st) (hc : Concluding m commit c t st s r s') (hφ : m.backend.Unmoved φ)
    (hnew : st.newTransaction = false) : φ s'.native = φ s.native := by
  obtain ⟨_, _, _, _, _, hwork, hrel, hn, -⟩ := hc.outline hst hφ.toUntouched
  rw [hn, hrel.participant hnew]
  exact hwork.participant hφ hnew

end Outlines

/-! ## Owners -/

/-- The holder of the transaction that a scope began. -/
def Session.owned? (s : Session σ ρ ς) (t : StatusId) : Option HolderId :=
  (s.status? t).bind fun st => if st.newTransaction then st.holder else none

/-- Every transaction has exactly one owner, and owners have no savepoints. -/
structure Owned (s : Session σ ρ ς) : Prop where
  own : ∀ t st, s.status? t = some st → st.newTransaction = true →
    st.savepoint = none ∧ ∃ h, st.holder = some h ∧ h < s.holders.size
  unique : ∀ t t' h, s.owned? t = some h → s.owned? t' = some h → t = t'
  each : ∀ h, h < s.holders.size → ∃ t, s.owned? t = some h

namespace Owned

variable {m : Manager σ ρ ς} {s s' : Session σ ρ ς} {t : StatusId} {st : Status ς}

theorem owned?_eq (hst : s.status? t = some st) :
    s.owned? t = if st.newTransaction then st.holder else none := by
  unfold owned?
  rw [hst]; rfl

theorem holder_of_owned {t : StatusId} {st : Status ς} {h : HolderId} (hst : s.status? t = some st)
    (hown : s.owned? t = some h) : st.newTransaction = true ∧ st.holder = some h := by
  rw [Owned.owned?_eq hst] at hown
  cases hnew : st.newTransaction with
  | false => rw [hnew] at hown; cases hown
  | true => rw [hnew] at hown; exact ⟨rfl, hown⟩

theorem range (ho : Owned s) {h : HolderId} (hown : s.owned? t = some h) : h < s.holders.size := by
  obtain ⟨st, hst, hh⟩ := Option.bind_eq_some_iff.1 hown
  cases hnew : st.newTransaction with
  | false => rw [hnew] at hh; cases hh
  | true =>
    rw [hnew] at hh
    obtain ⟨_, h', hh', hlt⟩ := ho.own t st hst hnew
    rw [if_pos rfl, hh'] at hh
    exact Option.some.inj hh ▸ hlt

/-- Owners stay while the statuses change in other respects. -/
theorem congr (ho : Owned s) (hsize : s'.holders.size = s.holders.size)
    (hstatus : ∀ u, ∃ f : Status ς → Status ς, s'.status? u = (s.status? u).map f ∧
      ∀ st, (f st).newTransaction = st.newTransaction ∧ (f st).holder = st.holder ∧
        (st.savepoint = none → (f st).savepoint = none)) : Owned s' := by
  have hown : ∀ u, s'.owned? u = s.owned? u := by
    intro u
    obtain ⟨f, hf, hkeep⟩ := hstatus u
    unfold owned?
    rw [hf]
    cases s.status? u with
    | none => rfl
    | some st =>
      obtain ⟨hnew, hh, _⟩ := hkeep st
      simp only [Option.map_some, Option.bind_some, hnew, hh]
  refine ⟨?_, ?_, ?_⟩
  · intro u st' hst' hnew'
    obtain ⟨f, hf, hkeep⟩ := hstatus u
    obtain ⟨st, hst, rfl⟩ := Option.map_eq_some_iff.1 (hf.symm.trans hst')
    obtain ⟨hnew, hh, hsp⟩ := hkeep st
    obtain ⟨hnone, h, hsome, hlt⟩ := ho.own u st hst (hnew.symm.trans hnew')
    exact ⟨hsp hnone, h, hh.trans hsome, hsize ▸ hlt⟩
  · intro u u' h hu hu'
    exact ho.unique u u' h ((hown u).symm.trans hu) ((hown u').symm.trans hu')
  · intro h hlt
    obtain ⟨u, hu⟩ := ho.each h (hsize ▸ hlt)
    exact ⟨u, (hown u).trans hu⟩

theorem steady (ho : Owned s) (hs : Steady s s') : Owned s' := by
  refine ho.congr hs.holders_size fun u => ⟨id, ?_, fun st => ⟨rfl, rfl, id⟩⟩
  rw [hs.status?, Option.map_id]; rfl

theorem owned?_addStatus (s : Session σ ρ ς) (st : Status ς) (u : StatusId) :
    (s.addStatus st).2.owned? u =
      if u = s.statuses.size then (if st.newTransaction then st.holder else none) else s.owned? u := by
  unfold owned?
  rw [status?_addStatus]
  split <;> rfl

theorem owned?_lt {h : HolderId} (hown : s.owned? t = some h) : t < s.statuses.size := by
  obtain ⟨st, hst, _⟩ := Option.bind_eq_some_iff.1 hown
  exact status?_lt hst

theorem entered (ho : Owned s) (hnew : st.newTransaction = false) : Owned (s.addStatus st).2 := by
  have hown : ∀ u, (s.addStatus st).2.owned? u = if u = s.statuses.size then none else s.owned? u := by
    intro u
    rw [owned?_addStatus, hnew]; rfl
  refine ⟨?_, ?_, ?_⟩
  · intro u st' hst' hnew'
    rw [status?_addStatus] at hst'
    split at hst'
    · obtain rfl := Option.some.inj hst'
      rw [hnew] at hnew'; cases hnew'
    · exact ho.own u st' hst' hnew'
  · intro u u' h hu hu'
    rw [hown] at hu hu'
    split at hu
    · cases hu
    · split at hu'
      · cases hu'
      · exact ho.unique u u' h hu hu'
  · intro h hlt
    obtain ⟨u, hu⟩ := ho.each h hlt
    exact ⟨u, by rw [hown, if_neg (Nat.ne_of_lt (owned?_lt hu))]; exact hu⟩

theorem begun (ho : Owned s) (c : ContextIndex) (key : ResourceKey) (x : Holder ρ) (n : σ)
    (hnew : st.newTransaction = true) (hsp : st.savepoint = none) (hh : st.holder = some s.holders.size) :
    Owned ((s.started c key x n).addStatus st).2 := by
  have hsize := started_size s c key x n
  have hown : ∀ u, ((s.started c key x n).addStatus st).2.owned? u =
      if u = s.statuses.size then some s.holders.size else s.owned? u := by
    intro u
    rw [owned?_addStatus, hnew, hh]; rfl
  refine ⟨?_, ?_, ?_⟩
  · intro u st' hst' hnew'
    rw [status?_addStatus] at hst'
    split at hst'
    · obtain rfl := Option.some.inj hst'
      exact ⟨hsp, _, hh, hsize ▸ Nat.lt_succ_self _⟩
    · obtain ⟨hsp', h, hh', hlt⟩ := ho.own u st' hst' hnew'
      exact ⟨hsp', h, hh', hsize ▸ Nat.lt_succ_of_lt hlt⟩
  · intro u u' h hu hu'
    rw [hown] at hu hu'
    split at hu
    · split at hu'
      · rename_i hn hn'; exact hn.trans hn'.symm
      · exact absurd (Option.some.inj hu) (Nat.ne_of_gt (ho.range hu'))
    · split at hu'
      · exact absurd (Option.some.inj hu') (Nat.ne_of_gt (ho.range hu))
      · exact ho.unique u u' h hu hu'
  · intro h hlt
    rcases Nat.lt_succ_iff_lt_or_eq.1 (show h < s.holders.size + 1 from hsize ▸ hlt) with hlt | rfl
    · obtain ⟨u, hu⟩ := ho.each h hlt
      exact ⟨u, by rw [hown, if_neg (Nat.ne_of_lt (owned?_lt hu))]; exact hu⟩
    · exact ⟨s.statuses.size, by rw [hown, if_pos rfl]⟩

end Owned

/-! ## What a call preserves -/

section Calls

variable {m : Manager σ ρ ς} {act : α → Session σ ρ ς → Session σ ρ ς} {s : Session σ ρ ς}

/-- Completing leaves the session alone or ends exactly the scope that was open. -/
theorem conclude_statuses (m : Manager σ ρ ς) (s : Session σ ρ ς) (commit : Bool) (c : ContextIndex)
    (t : StatusId) :
    m.conclude commit c t s = (.error .alreadyCompleted, s) ∨
    ∃ st state, s.status? t = some st ∧ st.isCompleted = false ∧
      (∀ u, (m.conclude commit c t s).2.status? u = if u = t then some (st.ended state) else s.status? u) ∧
      ∀ h, ((m.conclude commit c t s).2.holder? h).map Holder.resource = (s.holder? h).map Holder.resource := by
  rcases conclude_cases m commit c t s with ⟨hrefused, _⟩ | ⟨st, r, s', hst, hopen, hrun, hc⟩
  · exact .inl hrefused
  · obtain ⟨state, _, _, _, _, _, _, _, hstatuses, -⟩ := hc.outline hst (.const _)
    rw [hrun]
    exact .inr ⟨st, state, hst, hopen, hstatuses, hc.resources hst⟩

/-- The first completion of a scope always completes it. -/
theorem conclude_completes (m : Manager σ ρ ς) (commit : Bool) (c : ContextIndex) {t : StatusId} {st : Status ς}
    (hst : s.status? t = some st) (hopen : st.isCompleted = false) :
    ∃ state, (m.conclude commit c t s).2.status? t = some (st.ended state) := by
  obtain ⟨r, s', hrun, hc⟩ := conclude_spec m commit c hst hopen
  obtain ⟨state, _, _, _, _, _, _, _, hstatuses, _⟩ := hc.outline hst (.const _)
  rw [hrun]
  exact ⟨state, (hstatuses t).trans (if_pos rfl)⟩

theorem Owned.called (ho : Owned s) (call : ManagerCall α)
    (hact : ∀ a, call = .act a → Steady s (act a s)) : Owned (m.called act s call) := by
  cases call with
  | enter c d =>
    obtain ⟨r, s', hrun, houtline⟩ := getTransaction_outline m c d s (.const m.backend)
    show Owned (m.getTransaction c d s).2
    rw [hrun]
    cases houtline with
    | failed hs => exact ho.steady hs.steady
    | entered hs _ _ hnew => exact (ho.steady hs.steady).entered hnew
    | begun hs _ _ _ _ hnew hsp _ hh => exact (ho.steady hs.steady).begun c _ _ _ hnew hsp hh
  | conclude commit c t =>
    rcases conclude_statuses m s commit c t with hsame | ⟨st, state, hst, _, hstatuses, hholders⟩
    · show Owned (m.conclude commit c t s).2
      rw [hsame]; exact ho
    · refine ho.congr (holders_size_of_alike hholders) fun u => ?_
      by_cases hu : u = t
      · refine ⟨(·.ended state), ?_, fun st => ⟨rfl, rfl, fun _ => rfl⟩⟩
        exact (hstatuses u).trans (by rw [if_pos hu, hu, hst]; rfl)
      · refine ⟨id, ?_, fun st => ⟨rfl, rfl, id⟩⟩
        exact (hstatuses u).trans (by rw [if_neg hu, Option.map_id]; rfl)
  | mark t =>
    refine ho.congr rfl fun u => ?_
    by_cases hu : u = t
    · refine ⟨fun st => { st with rollbackOnly := true }, ?_, fun st => ⟨rfl, rfl, id⟩⟩
      exact (status?_modifyStatus s t u _).trans (if_pos hu)
    · refine ⟨id, ?_, fun st => ⟨rfl, rfl, id⟩⟩
      exact ((status?_modifyStatus s t u _).trans (if_neg hu)).trans (by rw [Option.map_id]; rfl)
  | act a => exact ho.steady (hact a rfl)

theorem Owned.calledAll (ho : Owned s) (calls : List (ManagerCall α))
    (hact : ∀ a s, Steady s (act a s)) : Owned (m.calledAll act calls s) := by
  induction calls generalizing s with
  | nil => exact ho
  | cons call calls ih => exact ih (ho.called call fun a _ => hact a s)

theorem Owned.ofContexts (count : Nat) (native : σ) : Owned (Session.ofContexts count native : Session σ ρ ς) := by
  refine ⟨?_, ?_, ?_⟩
  · intro t st hst
    cases hst
  · intro t t' h hown
    cases hown
  · intro h hlt
    cases hlt

/-- A status stays, up to a request for a rollback, unless its scope is completed. -/
theorem called_status_cases (m : Manager σ ρ ς) (call : ManagerCall α)
    (hact : ∀ a, call = .act a → Steady s (act a s)) {t : StatusId} {st : Status ς}
    (hst : s.status? t = some st) :
    (∃ st', (m.called act s call).status? t = some st' ∧ st'.unmarked = st.unmarked) ∨
    ∃ commit c state, call = .conclude commit c t ∧ st.isCompleted = false ∧
      (m.called act s call).status? t = some (st.ended state) := by
  cases call with
  | enter c d =>
    refine .inl ⟨st, ?_, rfl⟩
    obtain ⟨r, s', hrun, houtline⟩ := getTransaction_outline m c d s (.const m.backend)
    show (m.getTransaction c d s).2.status? t = some st
    rw [hrun]
    have halike : ∀ {s₁}, Alike Holder.fate s s₁ → s₁.status? t = some st := fun hs => (hs.status? t).trans hst
    cases houtline with
    | failed hs => exact halike hs
    | entered hs => exact status?_addStatus_old (halike hs) _
    | begun hs => exact status?_addStatus_old (halike hs) _
  | conclude commit c u =>
    rcases conclude_statuses m s commit c u with hsame | ⟨st', state, hst', hopen, hstatuses, _⟩
    · refine .inl ⟨st, ?_, rfl⟩
      show (m.conclude commit c u s).2.status? t = some st
      rw [hsame]; exact hst
    · by_cases hu : t = u
      · subst hu
        obtain rfl : st' = st := Option.some.inj (hst'.symm.trans hst)
        exact .inr ⟨commit, c, state, rfl, hopen, (hstatuses t).trans (if_pos rfl)⟩
      · exact .inl ⟨st, (hstatuses t).trans ((if_neg hu).trans hst), rfl⟩
  | mark u => exact .inl ((Quiet.setRollbackOnly s u).status hst)
  | act a => exact .inl ⟨st, ((hact a rfl).status? t).trans hst, rfl⟩

/-- A status keeps its transaction whatever is called, and only an open scope can still end, by being
completed. -/
theorem called_status (m : Manager σ ρ ς) (call : ManagerCall α)
    (hact : ∀ a, call = .act a → Steady s (act a s)) {t : StatusId} {st : Status ς}
    (hst : s.status? t = some st) :
    ∃ st', (m.called act s call).status? t = some st' ∧ st'.newTransaction = st.newTransaction ∧
      st'.holder = st.holder ∧ (st'.completion = st.completion ∨
        ∃ commit c, call = .conclude commit c t ∧ st.isCompleted = false ∧ st'.isCompleted = true) := by
  rcases called_status_cases m call hact hst with ⟨st', hst', hsame⟩ | ⟨commit, c, state, hcall, hopen, hst'⟩
  · obtain ⟨on, rfl⟩ := Status.eq_of_unmarked hsame
    exact ⟨_, hst', rfl, rfl, .inl rfl⟩
  · exact ⟨_, hst', rfl, rfl, .inr ⟨commit, c, hcall, hopen, rfl⟩⟩

/-- An owner stays one. -/
theorem owned?_called (m : Manager σ ρ ς) (call : ManagerCall α)
    (hact : ∀ a, call = .act a → Steady s (act a s)) {t : StatusId} {h : HolderId} (hown : s.owned? t = some h) :
    (m.called act s call).owned? t = some h := by
  obtain ⟨st, hst, hh⟩ := Option.bind_eq_some_iff.1 hown
  obtain ⟨st', hst', hnew, hholder, _⟩ := called_status m call hact hst
  rw [Owned.owned?_eq hst', hnew, hholder]
  exact hh

/-- A holder keeps its resource whatever is called. -/
theorem called_holder (m : Manager σ ρ ς) (call : ManagerCall α)
    (hact : ∀ a, call = .act a → Steady s (act a s)) {h : HolderId} {x : Holder ρ} (hx : s.holder? h = some x) :
    ∃ x', (m.called act s call).holder? h = some x' ∧ x'.resource = x.resource := by
  cases call with
  | enter c d =>
    obtain ⟨r, s', hrun, houtline⟩ := getTransaction_outline m c d s (.const m.backend)
    show ∃ x', (m.getTransaction c d s).2.holder? h = some x' ∧ _
    rw [hrun]
    cases houtline with
    | failed hs => exact hs.steady.holder hx
    | entered hs => exact hs.steady.holder hx
    | begun hs =>
      obtain ⟨x', hx', hsame⟩ := hs.steady.holder hx
      refine ⟨x', ?_, hsame⟩
      rw [holder?_addStatus, holder?_started, if_neg (Nat.ne_of_lt (holder?_lt hx'))]
      exact hx'
  | conclude commit c t =>
    rcases conclude_statuses m s commit c t with hsame | ⟨_, _, _, _, _, hresources⟩
    · show ∃ x', (m.conclude commit c t s).2.holder? h = some x' ∧ _
      rw [hsame]
      exact ⟨x, hx, rfl⟩
    · have heq := hresources h
      rw [hx] at heq
      exact Option.map_eq_some_iff.1 heq
  | mark t => exact ⟨x, hx, rfl⟩
  | act a => exact (hact a rfl).holder hx

/-- A status is new only when a scope was opened, and it is open then. -/
theorem called_status_new (m : Manager σ ρ ς) (call : ManagerCall α)
    (hact : ∀ a, call = .act a → Steady s (act a s)) {t : StatusId} {st : Status ς}
    (hnone : s.status? t = none) (hst : (m.called act s call).status? t = some st) :
    ∃ c d, call = .enter c d ∧ st.completion = none ∧
      (st.newTransaction = true → st.holder = some s.holders.size) := by
  cases call with
  | enter c d =>
    refine ⟨c, d, rfl, ?_⟩
    obtain ⟨r, s', hrun, houtline⟩ := getTransaction_outline m c d s (.const m.backend)
    rw [show m.called act s (.enter c d) = (m.getTransaction c d s).2 from rfl, hrun] at hst
    have halike : ∀ {s₁}, Alike Holder.fate s s₁ → s₁.status? t = none := fun hs => (hs.status? t).trans hnone
    cases houtline with
    | failed hs => rw [halike hs] at hst; cases hst
    | entered hs _ ho hnew =>
      rw [status?_addStatus, halike hs] at hst
      split at hst
      · obtain rfl := Option.some.inj hst
        exact ⟨ho, fun h => by rw [hnew] at h; cases h⟩
      · cases hst
    | @begun s₁ _ x n hs _ _ _ ho _ _ _ hh =>
      rw [status?_addStatus, status?_started, halike hs] at hst
      split at hst
      · obtain rfl := Option.some.inj hst
        exact ⟨ho, fun _ => hh.trans (congrArg some hs.holders_size)⟩
      · cases hst
  | conclude commit c u =>
    rcases conclude_statuses m s commit c u with hsame | ⟨st', state, hst', _, hstatuses, _⟩
    · rw [show m.called act s (.conclude commit c u) = (m.conclude commit c u s).2 from rfl, hsame, hnone] at hst
      cases hst
    · rw [show m.called act s (.conclude commit c u) = (m.conclude commit c u s).2 from rfl, hstatuses] at hst
      split at hst
      · rename_i hu; rw [hu, hst'] at hnone; cases hnone
      · rw [hnone] at hst; cases hst
  | mark u =>
    rw [show (m.called act s (.mark u)).status? t = _ from status?_modifyStatus s u t _, hnone] at hst
    split at hst <;> cases hst
  | act a =>
    rw [show m.called act s (.act a) = act a s from rfl, (hact a rfl).status?, hnone] at hst
    cases hst

/-- A status is new with a savepoint only when a nested scope was opened, which took it. -/
theorem called_savepoint_new (m : Manager σ ρ ς) (call : ManagerCall α)
    (hact : ∀ a, call = .act a → Steady s (act a s)) {t : StatusId} {st : Status ς} {sp : ς}
    (hnone : s.status? t = none) (hst : (m.called act s call).status? t = some st) (hsp : st.savepoint = some sp) :
    st.completion = none ∧ st.newTransaction = false ∧ ∃ h x n, st.holder = some h ∧ s.holder? h = some x ∧
      m.backend.createSavepoint x.resource s.native = (.ok sp, n) := by
  obtain ⟨c, d, rfl, hopen, _⟩ := called_status_new m call hact hnone hst
  obtain ⟨r, s', hrun, houtline⟩ := getTransaction_outline m c d s (.const m.backend)
  rw [show m.called act s (.enter c d) = (m.getTransaction c d s).2 from rfl, hrun] at hst
  have halike : ∀ {s₁}, Alike Holder.fate s s₁ → s₁.status? t = none := fun hs => (hs.status? t).trans hnone
  refine ⟨hopen, ?_⟩
  cases houtline with
  | failed hs => rw [halike hs] at hst; cases hst
  | entered hs _ _ hnew _ htook =>
    rw [status?_addStatus, halike hs] at hst
    split at hst
    · obtain rfl := Option.some.inj hst
      obtain ⟨_, h, x, hh, hx, hn⟩ := htook sp hsp
      exact ⟨hnew, h, x, _, hh, hx, hn⟩
    · cases hst
  | begun hs _ _ _ _ _ hnone' =>
    rw [status?_addStatus, status?_started, halike hs] at hst
    split at hst
    · obtain rfl := Option.some.inj hst
      rw [hnone'] at hsp; cases hsp
    · cases hst

end Calls

end Demarcation
