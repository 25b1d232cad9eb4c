/-
What calls in a context leave alone: the holders that are not bound there. A transaction that was suspended
for a scope is not bound again before the scope is completed.
-/
import Demarcation.Proofs.InsideOut

namespace Demarcation

open Session Manager

variable {σ ρ ς α : Type}

/-- The holder as it is when its transaction is attached. -/
def Holder.resumed (x : Holder ρ) : Holder ρ := x.setSuspended false

theorem Holder.resumed_of_attached {x : Holder ρ} (hoff : x.suspended = false) : x.resumed = x := by
  cases x
  cases hoff
  rfl

section Calls

variable {m : Manager σ ρ ς} {c : ContextIndex} {d : Definition} {s s' : Session σ ρ ς} {h : HolderId}
  {st : Status ς}

theorem Session.holder?_modifyHolder_ne {k : HolderId} (hne : h ≠ k) (s : Session σ ρ ς) (f : Holder ρ → Holder ρ) :
    (s.modifyHolder k f).holder? h = s.holder? h := by
  rw [holder?_modifyHolder, if_neg hne]

/-! ## Opening a scope -/

theorem Manager.Beginning.holder?_old {r : Except TransactionError HolderId} (hb : Beginning m c d s r s')
    (hlt : h < s.holders.size) : s'.holder? h = s.holder? h := by
  cases hb with
  | refused | failed => rfl
  | begun =>
    rw [holder?_putBinding, holder?_addHolder]
    exact if_neg (Nat.ne_of_lt hlt)

/-- Opening a scope touches no holder but the bound one. -/
theorem Manager.Opening.holder?_unbound {r : Except TransactionError StatusId} (ho : Opening m c d s r s')
    (hb : s.bound c m.backend.key ≠ some h) (hlt : h < s.holders.size) : s'.holder? h = s.holder? h := by
  have hne : ∀ {k}, s.bound c m.backend.key = some k → h ≠ k := by
    rintro k hk rfl
    exact hb hk
  have hdetached : ∀ {n k}, s.bound c m.backend.key = some k →
      ((s.withNative n).detach c m.backend.key k).holder? h = s.holder? h := by
    intro n k hk
    exact holder?_modifyHolder_ne (hne hk) _ _
  have hlt' : ∀ {n k}, h < ((s.withNative n).detach c m.backend.key k).holders.size := by
    intro n k
    exact Nat.lt_of_lt_of_eq hlt Array.size_modify.symm
  cases ho with
  | refused | untransacted | suspendFailed | savepointFailed => rfl
  | beginFailed _ hbegin => exact hbegin.holder?_old hlt
  | begun _ _ hbegin => exact hbegin.holder?_old hlt
  | detached hk => exact hdetached hk
  | renewed hk _ _ _ _ _ hbegin => exact (hbegin.holder?_old hlt').trans (hdetached hk)
  | @renewFailed k _ _ _ s₁ _ _ hk _ _ _ _ _ hbegin hres =>
    -- what is attached again is what was bound
    have hbefore : s₁.holder? h = s.holder? h := (hbegin.holder?_old hlt').trans (hdetached hk)
    rcases resume_spec m c k s₁ with ⟨_, _, hrun⟩ | ⟨_, hrun⟩
    · obtain ⟨-, rfl⟩ := Prod.mk.inj (hres.symm.trans hrun)
      exact hbefore
    · obtain ⟨-, rfl⟩ := Prod.mk.inj (hres.symm.trans hrun)
      exact (holder?_modifyHolder_ne (hne hk) _ _).trans hbefore
  | nested hk | joined hk => exact holder?_modifyHolder_ne (hne hk) _ _

theorem Manager.Beginning.bound_new {r : Except TransactionError HolderId} (hb : Beginning m c d s r s')
    (hc : c < s.registries.size) (hnone : s.bound c m.backend.key = none)
    (hbound : s'.bound c m.backend.key = some h) : h = s.holders.size := by
  cases r with
  | error e =>
    rw [hb.quiet.bound, hnone] at hbound
    cases hbound
  | ok k =>
    obtain ⟨rfl, -, hbinds, -⟩ := hb.parts hc
    rw [hbinds, if_pos ⟨rfl, rfl⟩] at hbound
    exact (Option.some.inj hbound).symm

/-- What is bound behind an opening was bound before, or is the holder of a transaction that has begun. -/
theorem Manager.Opening.bound_new {r : Except TransactionError StatusId} (ho : Opening m c d s r s')
    (hc : c < s.registries.size) (hbound : s'.bound c m.backend.key = some h) :
    s.bound c m.backend.key = some h ∨ h = s.holders.size := by
  cases ho with
  | refused | untransacted | suspendFailed | savepointFailed | nested | joined => exact .inl hbound
  | beginFailed hnone hbegin => exact .inr (hbegin.bound_new hc hnone hbound)
  | begun hnone _ hbegin => exact .inr (hbegin.bound_new hc hnone hbound)
  | @detached k _ n =>
    have hdetached : (((s.withNative n).detach c m.backend.key k)).bound c m.backend.key = some h := hbound
    rw [bound_detach_self] at hdetached
    cases hdetached
  | renewed _ _ _ _ _ _ hbegin =>
    refine .inr ((hbegin.bound_new ?_ (bound_detach_self _ _ _ _) hbound).trans Array.size_modify)
    rw [detach_size]
    exact hc
  | @renewFailed k _ n _ s₁ _ _ hk _ _ _ _ _ hbegin hres =>
    have hsize : c < s₁.registries.size := by
      rw [hbegin.quiet.registries, detach_size]
      exact hc
    rcases resume_spec m c k s₁ with ⟨_, _, hrun⟩ | ⟨_, hrun⟩
    · obtain ⟨-, rfl⟩ := Prod.mk.inj (hres.symm.trans hrun)
      rw [hbegin.quiet.bound, bound_detach_self] at hbound
      cases hbound
    · obtain ⟨-, rfl⟩ := Prod.mk.inj (hres.symm.trans hrun)
      rw [bound_withNative, bound_attach _ _ _ _ _ _ hsize, if_pos ⟨rfl, rfl⟩] at hbound
      exact .inl (hk.trans hbound)

/-- A scope that suspends what is bound finds it live and leaves it as it is otherwise, and what it binds has
begun with it. -/
theorem Manager.Opening.suspends {t : StatusId} (ho : Opening m c d s (.ok t) s') (hc : c < s.registries.size)
    (hb : s.bound c m.backend.key = some h) (hd : d.propagation = .requiresNew ∨ d.propagation = .notSupported) :
    s.Live m.backend.kind h ∧ (∀ k, s'.bound c m.backend.key = some k → k = s.holders.size) ∧
      (s'.holder? h).map Holder.resumed = (s.holder? h).map Holder.resumed := by
  have hdetached : ∀ n : σ, (((s.withNative n).detach c m.backend.key h).holder? h).map Holder.resumed =
      (s.holder? h).map Holder.resumed := by
    intro n
    rw [detach, holder?_modifyHolder, if_pos rfl, Option.map_map]
    rfl
  cases ho with
  | untransacted hnone | begun hnone => cases hb.symm.trans hnone
  | nested _ _ _ _ hp => rcases hd with hd | hd <;> cases hd.symm.trans hp
  | joined _ _ _ _ hp => rcases hd with hd | hd <;> rw [hd] at hp <;> rcases hp with hp | hp | hp <;> cases hp
  | @detached k x n hk hx hl hkind =>
    obtain rfl := Option.some.inj (hk.symm.trans hb)
    refine ⟨⟨x, hx, hl, hkind⟩, fun j hj => ?_, hdetached n⟩
    have hnone := bound_detach_self (s.withNative n) c m.backend.key k
    cases hnone.symm.trans hj
  | @renewed k j x n s₁ hk hx hl hkind _ _ hbegin =>
    obtain rfl := Option.some.inj (hk.symm.trans hb)
    have hsize : ((s.withNative n).detach c m.backend.key k).holders.size = s.holders.size := Array.size_modify
    refine ⟨⟨x, hx, hl, hkind⟩, fun i hi => ?_, ?_⟩
    · refine (hbegin.bound_new ?_ (bound_detach_self _ _ _ _) hi).trans hsize
      rw [detach_size]
      exact hc
    · rw [← hdetached n]
      exact congrArg (Option.map Holder.resumed) (hbegin.holder?_old (hsize ▸ holder?_lt hx))

theorem Session.status_of_added {st' : Status ς} (hst : (s.addStatus st').2.status? s.statuses.size = some st) :
    st' = st := by
  rw [status?_addStatus, if_pos rfl] at hst
  exact Option.some.inj hst

/-- A scope that is opened has the transaction that was bound, or a new one, or none, and suspends at most what
was bound. -/
theorem Manager.Opening.refers {t : StatusId} (ho : Opening m c d s (.ok t) s')
    (hst : s'.status? t = some st) :
    (∀ k, st.holder = some k → s.bound c m.backend.key = some k ∨ k = s.holders.size) ∧
      ∀ k, st.suspended = some k → s.bound c m.backend.key = some k := by
  have hbegun : ∀ {s₁ s₂ : Session σ ρ ς} {k : HolderId}, Beginning m c d s₁ (.ok k) s₂ →
      s₁.holders.size = s.holders.size → k = s.holders.size := by
    intro s₁ s₂ k hbegin hsize
    cases hbegin with
    | begun => exact hsize
  cases ho with
  | untransacted => obtain rfl := status_of_added hst; exact ⟨nofun, nofun⟩
  | begun _ _ hbegin =>
    obtain rfl := status_of_added hst
    refine ⟨?_, nofun⟩
    rintro _ ⟨⟩
    exact .inr (hbegun hbegin rfl)
  | detached hb =>
    obtain rfl := status_of_added hst
    refine ⟨nofun, ?_⟩
    rintro _ ⟨⟩
    exact hb
  | renewed hb _ _ _ _ _ hbegin =>
    obtain rfl := status_of_added hst
    refine ⟨?_, ?_⟩
    · rintro _ ⟨⟩
      exact .inr (hbegun hbegin Array.size_modify)
    · rintro _ ⟨⟩
      exact hb
  | nested hb | joined hb =>
    obtain rfl := status_of_added hst
    refine ⟨?_, nofun⟩
    rintro _ ⟨⟩
    exact .inl hb

/-- What a scope suspended when it was opened has its flag on. -/
theorem Manager.Opening.flagged {t : StatusId} (ho : Opening m c d s (.ok t) s') (hst : s'.status? t = some st)
    (hs : st.suspended = some h) : ∃ x, s'.holder? h = some x ∧ x.suspended = true := by
  have hdetached : ∀ {n : σ} {x : Holder ρ}, s.holder? h = some x →
      ((s.withNative n).detach c m.backend.key h).holder? h = some (x.setSuspended true) := by
    intro n x hx
    rw [detach, holder?_modifyHolder, if_pos rfl, holder?_dropBinding, holder?_withNative, hx]
    rfl
  cases ho with
  | untransacted | begun | nested | joined =>
    obtain rfl := status_of_added hst
    cases hs
  | detached _ hx =>
    obtain rfl := status_of_added hst
    cases hs
    exact ⟨_, hdetached hx, rfl⟩
  | @renewed k _ _ n _ _ hx _ _ _ _ hbegin =>
    obtain rfl := status_of_added hst
    cases hs
    have hlt : h < ((s.withNative n).detach c m.backend.key h).holders.size := holder?_lt (hdetached hx)
    exact ⟨_, (hbegin.holder?_old hlt).trans (hdetached hx), rfl⟩

/-! ## Completing a scope -/

theorem Session.holder?_modifyHolderOf_ne (hh : st.holder ≠ some h) (s : Session σ ρ ς) (f : Holder ρ → Holder ρ) :
    (s.modifyHolderOf st f).holder? h = s.holder? h := by
  unfold modifyHolderOf
  cases hk : st.holder with
  | none => rfl
  | some k =>
    refine holder?_modifyHolder_ne ?_ s f
    rintro rfl
    exact hh hk

theorem Manager.Working.holder?_other {commit : Bool} {state : TransactionState}
    {outcome : Except TransactionError Unit} (hw : Working m commit st s state outcome s')
    (hh : st.holder ≠ some h) : s'.holder? h = s.holder? h := by
  cases hw with
  | kept | unmarked | savepointReleased | committed | commitFailed | commitUndone | returnFailed | undone => rfl
  | returned => exact holder?_modifyHolderOf_ne hh _ _
  | marked => exact holder?_modifyHolderOf_ne hh _ _

theorem Manager.Unbinding.holder? {k : HolderId} {r : Except TransactionError Unit} (hu : Unbinding m c k s r s')
    (h : HolderId) : s'.holder? h = s.holder? h := by
  cases hu <;> rfl

theorem Manager.Releasing.holder?_other {r : Except TransactionError Unit} (hr : Releasing m c st s r s')
    (hh : st.holder ≠ some h) : s'.holder? h = s.holder? h := by
  have hne : ∀ {k}, st.holder = some k → h ≠ k := by
    rintro k hk rfl
    exact hh hk
  cases hr with
  | nothing => rfl
  | reference hk => exact holder?_modifyHolder_ne (hne hk) _ _
  | transaction hk _ hun =>
    exact (holder?_modifyHolder_ne (hne hk) _ _).trans ((hun.holder? h).trans (holder?_purge s c _ h))

/-- Resuming attaches what was suspended. -/
theorem Manager.Resuming.holder?_resumed {t : StatusId} {r : Except TransactionError Unit}
    (hr : Resuming m c t st s r s') (h : HolderId) :
    (s'.holder? h).map Holder.resumed = (s.holder? h).map Holder.resumed := by
  cases hr with
  | nothing | refused => rfl
  | resumed => exact (Alike.attach (s.takeSuspended t) c m.backend.key _ fun _ => rfl).holders h

theorem Manager.Resuming.holder?_other {t : StatusId} {r : Except TransactionError Unit}
    (hr : Resuming m c t st s r s') (hs : st.suspended ≠ some h) : s'.holder? h = s.holder? h := by
  cases hr with
  | nothing | refused => rfl
  | resumed hk =>
    refine holder?_modifyHolder_ne ?_ _ _
    rintro rfl
    exact hs hk

/-- Completing a scope touches only the holder of its transaction and the one that it suspended. -/
theorem Manager.Concluding.holder?_untouched {commit : Bool} {t : StatusId} {r : Except TransactionError Unit}
    (hc : Concluding m commit c t st s r s') (hh : st.holder ≠ some h) (hs : st.suspended ≠ some h) :
    s'.holder? h = s.holder? h := by
  cases hc with
  | mk hwork hrel hres =>
    exact (hres.holder?_other hs).trans ((hrel.holder?_other hh).trans (hwork.holder?_other hh))

/-- Completing a scope touches no holder but that of its transaction, apart from attaching what the scope
suspended. -/
theorem Manager.Concluding.holder?_other {commit : Bool} {t : StatusId} {r : Except TransactionError Unit}
    (hc : Concluding m commit c t st s r s') (hh : st.holder ≠ some h) :
    (s'.holder? h).map Holder.resumed = (s.holder? h).map Holder.resumed := by
  cases hc with
  | @mk state _ _ _ s₁ _ _ hwork hrel hres =>
    rw [hres.holder?_resumed h, hrel.holder?_other hh]
    show (s₁.holder? h).map Holder.resumed = _
    rw [hwork.holder?_other hh]

end Calls

/-! ## Nested scopes -/

section Nested

variable {m : Manager σ ρ ς} {c : ContextIndex} {act : α → Session σ ρ ς → Session σ ρ ς} {s₀ : Session σ ρ ς}
  {n : Nest σ ρ ς} {h : HolderId} {base : Option HolderId}

/-- The innermost scope has the transaction that is bound, or none. -/
theorem NestedOn.innermost (hn : NestedOn m c base s₀ n) {x : OpenScope σ ρ ς} {rest : List (OpenScope σ ρ ς)}
    (hscopes : n.scopes = x :: rest) : ∃ st, n.session.status? x.status = some st ∧ st.isCompleted = false ∧
      ∀ k, st.holder = some k → n.session.bound c m.backend.key = some k := by
  have hstacked := hn.stacked
  rw [hscopes] at hstacked
  obtain ⟨st, hst, hopen, _, hlink, _⟩ := hstacked.top
  exact ⟨st, hst, hopen, fun k hk => hlink.bound_of_holder hk⟩

/-- A call touches no holder but the bound one, apart from attaching what a scope suspended. -/
theorem NestedOn.resumed_unbound (hn : NestedOn m c base s₀ n) (call : ScopeCall α)
    (hact : ∀ a, call = .act a → (act a n.session).holder? h = n.session.holder? h)
    (hb : n.session.bound c m.backend.key ≠ some h) (hlt : h < n.session.holders.size) :
    ((n.step m c act call).session.holder? h).map Holder.resumed = (n.session.holder? h).map Holder.resumed := by
  cases call with
  | enter d =>
    obtain ⟨r, s', hrun, hopen⟩ := getTransaction_spec m c d n.session
    rw [hn.purge_eq] at hopen
    rw [Nest.session_enter, hrun, hopen.holder?_unbound hb hlt]
  | leave commit =>
    cases hscopes : n.scopes with
    | nil => rw [Nest.step_leave_nil hscopes]
    | cons x rest =>
      obtain ⟨st, hst, hopen, hbound⟩ := hn.innermost hscopes
      obtain ⟨r, s', hrun, hc⟩ := conclude_spec m commit c hst hopen
      rw [Nest.step_leave_cons hscopes]
      dsimp only
      rw [hrun]
      exact hc.holder?_other fun hh => hb (hbound h hh)
  | mark t => rfl
  | act a => exact congrArg (Option.map Holder.resumed) (hact a rfl)

end Nested

end Demarcation
