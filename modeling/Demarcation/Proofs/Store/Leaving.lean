/-
What completing a scope does to the transactions of a store and to what is staged on their connections:
an owner gives its transaction up, a scope that returns to its savepoint drops what was staged behind it
and takes the mark back, and every other scope keeps what is staged and at most marks the transaction.
-/
import Demarcation.Proofs.Store.Logs
import Demarcation.Proofs.Store.Outcome

namespace Demarcation

open Session Manager

variable {key : ResourceKey} {capabilities : Capabilities} {config : ManagerConfig} {c : ContextIndex}
  {s s' s₁ : Session Store ConnectionId Savepoint} {commit : Bool} {t : StatusId} {st : Status Savepoint}
  {state : TransactionState} {outcome r : Except TransactionError Unit} {h : HolderId}
  {x : Holder ConnectionId}

/-- What completing a scope does to transactions. -/
inductive Leaving (st : Status Savepoint) (state : TransactionState)
    (s s' : Session Store ConnectionId Savepoint) : Prop
  | gaveUp {h : HolderId} {x : Holder ConnectionId} : st.newTransaction = true → st.holder = some h →
    s.holder? h = some x → (∀ k, ¬ s'.Ongoing h k) →
    (∀ j, j ≠ h → (s'.holder? j).map Holder.fate = (s.holder? j).map Holder.fate) →
    Store.Only x.resource s.native s'.native → Leaving st state s s'
  /-- A participant that is rolled back marks the transaction. -/
  | stayed : st.newTransaction = false → s'.native.staging = s.native.staging →
    (∀ j k, s'.Ongoing j k ↔ s.Ongoing j k) → (∀ j, s.marked j = true → s'.marked j = true) →
    (state = .rolledBack → ∀ j, st.holder = some j → s'.marked j = true) → Leaving st state s s'
  | returned {h : HolderId} {x : Holder ConnectionId} {sp : Savepoint} : st.newTransaction = false →
    st.savepoint = some sp → st.holder = some h → s.holder? h = some x →
    s'.native.connections.size = s.native.connections.size →
    (∀ k, s'.native.log k = if k = x.resource then (s.native.log k).take sp.mark else s.native.log k) →
    (∀ j k, s'.Ongoing j k ↔ s.Ongoing j k) →
    (∀ j, s'.marked j = if j = h then false else s.marked j) → Leaving st state s s'

/-! ## Owners -/

theorem Session.only_of_applied {op : ConnectionId → Native Store Unit} {q : Except Failure Unit} {n : Store}
    (hx : s.holder? h = some x) (hop : Store.Only x.resource s.native (op x.resource s.native).2)
    (happ : s.applied (some h) op = (q, n)) : Store.Only x.resource s.native n := by
  rw [applied_of_holder hx] at happ
  rw [happ] at hop
  exact hop

theorem Manager.Working.only (hw : Working (storeManager key capabilities config) commit st s state outcome s₁)
    (hnew : st.newTransaction = true) (hsp : st.savepoint = none) (hh : st.holder = some h)
    (hx : s.holder? h = some x) : ∃ n, s₁ = s.withNative n ∧ Store.Only x.resource s.native n := by
  have hcommit := Store.only_commit key capabilities x.resource
  have hrollback := Store.only_rollback key capabilities x.resource
  cases hw with
  | kept _ _ hnew' | marked _ _ hnew' | unmarked _ _ hnew' => rw [hnew] at hnew'; cases hnew'
  | savepointReleased _ hsp' | returnFailed _ hsp' | returned _ hsp' => rw [hsp] at hsp'; cases hsp'
  | committed _ _ _ happ | commitFailed _ _ _ happ =>
    rw [hh] at happ
    exact ⟨_, rfl, only_of_applied hx (hcommit _) happ⟩
  | undone _ _ _ happ =>
    rw [hh] at happ
    exact ⟨_, rfl, only_of_applied hx (hrollback _) happ⟩
  | @commitUndone _ n _ _ _ _ _ happ _ hundo =>
    rw [hh] at happ hundo
    exact ⟨_, rfl, (only_of_applied hx (hcommit _) happ).trans
      (only_of_applied (s := s.withNative n) hx (hrollback _) hundo)⟩

theorem Manager.Releasing.only (hr : Releasing (storeManager key capabilities config) c st s r s')
    (hnew : st.newTransaction = true) (hh : st.holder = some h) (hx : s.holder? h = some x) :
    (∀ k, ¬ s'.Ongoing h k) ∧
    (∀ j, j ≠ h → (s'.holder? j).map Holder.fate = (s.holder? j).map Holder.fate) ∧
    Store.Only x.resource s.native s'.native := by
  cases hr with
  | nothing hh' => rw [hh] at hh'; cases hh'
  | reference _ hnew' => rw [hnew] at hnew'; cases hnew'
  | @transaction h' r₁ s₁ r₂ n hh' _ hun happ =>
    obtain rfl : h' = h := Option.some.inj (hh'.symm.trans hh)
    have halike : Alike Holder.fate s s₁ := (Alike.purge s c _).trans hun.alike
    obtain ⟨y, hy, hfate⟩ := halike.holder hx
    have hgave : (s₁.modifyHolder h' giveUp).holder? h' = some (giveUp y) := by
      rw [holder?_modifyHolder, if_pos rfl, hy]; rfl
    refine ⟨?_, fun j hj => ?_, ?_⟩
    · rintro k ⟨z, hz, hlive, _⟩
      obtain rfl := Option.some.inj (hgave.symm.trans hz)
      cases hlive
    · rw [holder?_withNative, holder?_modifyHolder, if_neg hj]
      exact halike.holders j
    · have hnative : (s₁.modifyHolder h' giveUp).native = s.native := hun.native.trans (native_purge s c _)
      have hresource : (giveUp y).resource = x.resource := congrArg Prod.fst hfate
      have honly := only_of_applied hgave (Store.only_cleanup key capabilities _ _) happ
      rw [hresource, hnative] at honly
      exact honly

/-! ## Participants -/

theorem Session.staging_of_applied {op : ConnectionId → Native Store Unit} {q : Except Failure Unit} {n : Store}
    {h : Option HolderId} (happ : s.applied h op = (q, n))
    (hop : ∀ k n, (op k n).2.staging = n.staging) : n.staging = s.native.staging :=
  observed_of_applied happ hop

/-- A participant that is rolled back leaves a mark. -/
theorem Leaving.of_marked (hnew : st.newTransaction = false)
    (hheld : ∀ j, st.holder = some j → ∃ x, s.holder? j = some x) :
    Leaving st state s (s.modifyHolderOf st Holder.setRollbackOnly) := by
  have hquiet : Quiet s (s.modifyHolderOf st Holder.setRollbackOnly) := .modifyHolderOf s st fun _ => rfl
  have hongoing : ∀ j k, (s.modifyHolderOf st Holder.setRollbackOnly).Ongoing j k ↔ s.Ongoing j k :=
    fun j k => ongoing_of_quiet hquiet
  cases hh : st.holder with
  | none =>
    rw [modifyHolderOf_of_none s _ hh] at hongoing ⊢
    refine .stayed hnew rfl hongoing (fun _ => id) fun _ j hj => ?_
    rw [hh] at hj; cases hj
  | some h =>
    obtain ⟨x, hx⟩ := hheld h hh
    rw [modifyHolderOf_of_holder s _ hh] at hongoing ⊢
    have hmarked := marked_modifyHolder hx Holder.setRollbackOnly
    refine .stayed hnew rfl hongoing (fun j hj => ?_) fun _ j hj => ?_
    · rw [hmarked]
      split
      · rfl
      · exact hj
    · rw [hh] at hj
      obtain rfl := Option.some.inj hj
      rw [hmarked, if_pos rfl]; rfl

/-- A scope without a transaction has nothing to return to; any other takes its mark back. -/
theorem Leaving.of_returned {sp : Savepoint} {n n' : Store} {q : Except Failure Unit}
    (hnew : st.newTransaction = false) (hheld : ∀ j, st.holder = some j → ∃ x, s.holder? j = some x)
    (hsp : st.savepoint = some sp)
    (happ : s.applied st.holder ((Store.backend key capabilities).rollbackToSavepoint · sp) = (.ok (), n))
    (hrel : ((s.withNative n).modifyHolderOf st Holder.resetRollbackOnly).applied st.holder
      ((Store.backend key capabilities).releaseSavepoint · sp) = (q, n')) :
    Leaving st state s (((s.withNative n).modifyHolderOf st Holder.resetRollbackOnly).withNative n') := by
  have hreset : Quiet s ((s.withNative n).modifyHolderOf st Holder.resetRollbackOnly) :=
    (Quiet.withNative s n).trans (.modifyHolderOf (s.withNative n) st fun _ => rfl)
  have hongoing : ∀ j k, (((s.withNative n).modifyHolderOf st Holder.resetRollbackOnly).withNative n').Ongoing j k ↔
      s.Ongoing j k := fun j k => ongoing_of_quiet (hreset.trans (.withNative _ n'))
  have hreleased := staging_of_applied hrel fun k => Store.backend_releaseSavepoint k sp
  rw [native_modifyHolderOf] at hreleased
  cases hh : st.holder with
  | none =>
    rw [hh] at happ
    obtain ⟨-, rfl⟩ := Prod.mk.inj happ
    rw [modifyHolderOf_of_none _ _ hh] at hongoing ⊢
    refine .stayed hnew hreleased hongoing (fun _ => id) fun _ j hj => ?_
    rw [hh] at hj; cases hj
  | some h =>
    obtain ⟨x, hx⟩ := hheld h hh
    rw [hh, applied_of_holder hx] at happ
    rw [modifyHolderOf_of_holder _ _ hh] at hongoing ⊢
    rcases Store.backend_rollbackToSavepoint x.resource sp s.native with ⟨f, n₀, hrun, _⟩ | ⟨n₀, hrun, hsize, hlog⟩
    · cases (Prod.mk.inj (hrun.symm.trans happ)).1
    · obtain ⟨-, rfl⟩ := Prod.mk.inj (hrun.symm.trans happ)
      have hlogs : n'.log = n₀.log := congrArg Prod.fst hreleased
      have hcount : n'.connections.size = n₀.connections.size := congrArg Prod.snd hreleased
      refine .returned hnew hsp hh hx (hcount.trans hsize) (fun k => ?_) hongoing fun j => ?_
      · show n'.log k = _
        rw [hlogs]
        exact hlog k
      · exact marked_modifyHolder (s := s.withNative n₀) hx Holder.resetRollbackOnly j

/-- The work of a participant, if every failing participant marks the transaction. -/
theorem Manager.Working.leaving
    (hw : Working (storeManager key capabilities config) commit st s state outcome s₁)
    (hconfig : config.globalRollbackOnParticipationFailure = true) (hnew : st.newTransaction = false)
    (hheld : ∀ j, st.holder = some j → ∃ x, s.holder? j = some x) : Leaving st state s s₁ := by
  have hongoing : ∀ j k, s₁.Ongoing j k ↔ s.Ongoing j k := fun j k => ongoing_of_quiet hw.quiet
  cases hw with
  | kept => exact .stayed hnew rfl hongoing (fun _ => id) nofun
  | committed _ _ hnew' | commitFailed _ _ hnew' | commitUndone _ _ hnew' | undone _ _ hnew' =>
    rw [hnew] at hnew'; cases hnew'
  | marked => exact .of_marked hnew hheld
  | unmarked _ _ _ hmark =>
    rw [show (storeManager key capabilities config).config = config from rfl, hconfig, Bool.or_true] at hmark
    cases hmark
  | savepointReleased _ _ happ =>
    refine .stayed hnew (staging_of_applied happ fun k => Store.backend_releaseSavepoint k _) hongoing
      (fun _ => id) fun hstate => ?_
    split at hstate <;> cases hstate
  | @returnFailed sp f n _ _ happ =>
    -- the return failed, so that nothing was dropped, and the scope does not end rolled back
    refine .stayed hnew ?_ hongoing (fun _ => id) nofun
    cases hh : st.holder with
    | none => rw [hh] at happ; cases happ
    | some h =>
      obtain ⟨x, hx⟩ := hheld h hh
      rw [hh, applied_of_holder hx] at happ
      rcases Store.backend_rollbackToSavepoint x.resource sp s.native with ⟨f', n', hrun, hsame⟩ | ⟨n', hrun, _⟩
      · obtain ⟨-, rfl⟩ := Prod.mk.inj (hrun.symm.trans happ)
        exact hsame
      · cases (Prod.mk.inj (hrun.symm.trans happ)).1
  | returned _ hsp happ hrel => exact .of_returned hnew hheld hsp happ hrel

theorem Leaving.congr (hl : Leaving st state s s₁) (hnew : st.newTransaction = false)
    (hstaging : s'.native.staging = s₁.native.staging)
    (hfate : ∀ j, (s'.holder? j).map Holder.fate = (s₁.holder? j).map Holder.fate) :
    Leaving st state s s' := by
  have hongoing : ∀ j k, s'.Ongoing j k ↔ s₁.Ongoing j k := fun j k => ongoing_of_fate (hfate j)
  have hmarked : ∀ j, s'.marked j = s₁.marked j := fun j => marked_of_fate (hfate j)
  have hlog : s'.native.log = s₁.native.log := congrArg Prod.fst hstaging
  have hsize : s'.native.connections.size = s₁.native.connections.size := congrArg Prod.snd hstaging
  cases hl with
  | gaveUp hnew' => rw [hnew] at hnew'; cases hnew'
  | stayed _ hsame hgo hmark hback =>
    refine .stayed hnew (hstaging.trans hsame) (fun j k => (hongoing j k).trans (hgo j k)) (fun j hj => ?_)
      fun hstate j hj => ?_
    · rw [hmarked]; exact hmark j hj
    · rw [hmarked]; exact hback hstate j hj
  | returned _ hsp hh hx hcount hlogs hgo hmark =>
    refine .returned hnew hsp hh hx (hsize.trans hcount) (fun k => ?_) (fun j k => (hongoing j k).trans (hgo j k))
      fun j => ?_
    · rw [hlog]; exact hlogs k
    · rw [hmarked]; exact hmark j

/-! ## Completing as a whole -/

theorem Manager.Concluding.leaving (hst : s.status? t = some st)
    (hc : Concluding (storeManager key capabilities config) commit c t st s r s')
    (hconfig : config.globalRollbackOnParticipationFailure = true)
    (howner : st.newTransaction = true → st.savepoint = none ∧ ∃ j, st.holder = some j)
    (hheld : ∀ j, st.holder = some j → ∃ x, s.holder? j = some x) :
    ∃ state, (∀ u, s'.status? u = if u = t then some (st.ended state) else s.status? u) ∧
      Leaving st state s s' := by
  obtain ⟨state, outcome, s₁, r₁, s₂, hwork, hrel, hn, hstatus, hfate, -⟩ := hc.outline hst Store.backend_untouched
  refine ⟨state, hstatus, ?_⟩
  -- resuming what was suspended changes nothing of this, so that only the work and the release count
  cases hnew : st.newTransaction with
  | true =>
    obtain ⟨hsp, h, hh⟩ := howner hnew
    obtain ⟨x, hx⟩ := hheld h hh
    obtain ⟨n, rfl, hworked⟩ := hwork.only hnew hsp hh hx
    obtain ⟨hover, hothers, hreleased⟩ := hrel.only hnew hh hx
    refine .gaveUp hnew hh hx (fun k hk => ?_) (fun j hj => (hfate j).trans (hothers j hj))
      (hworked.trans (hreleased.of_staging hn))
    exact hover k ((ongoing_of_fate (hfate h)).1 hk)
  | false =>
    refine (hwork.leaving hconfig hnew hheld).congr hnew ?_ fun j => ?_
    · rw [hn, hrel.participant hnew]; rfl
    · rw [hfate]
      cases hrel with
      | nothing => rfl
      | @reference h =>
        have hreleased : Alike Holder.fate s₁ (s₁.modifyHolder h Holder.released) := .modifyHolder s₁ h fun _ => rfl
        exact hreleased.holders j
      | transaction _ hnew' => rw [hnew] at hnew'; cases hnew'

end Demarcation
