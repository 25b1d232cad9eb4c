/-
Marks that doom their transaction, in any order of calls. A mark is taken back only by a return to a
savepoint of the transaction, which a record of the native calls shows, so that a participant that was
undone forces the owner to roll back.
-/
import Demarcation.Proofs.Marks
import Demarcation.Proofs.Recording
import Demarcation.Store

namespace Demarcation

open Session Manager

variable {σ ρ ς α : Type}

/-! ## Returns to savepoints in a record -/

namespace Recorded

variable {p : Primitive} {k : Nat} {op : Native σ α} {t : Recorded σ}

/-- How often a transaction was returned to one of its savepoints. -/
def returns (t : Recorded σ) (n : Nat) : Nat := t.calls.count ⟨.rollbackToSavepoint, n, true⟩

theorem returns_note (p : Primitive) (k : Nat) (op : Native σ α) (t : Recorded σ) (n : Nat) :
    (note p k op t).2.returns n =
      t.returns n + if p = .rollbackToSavepoint ∧ k = n ∧ (op t.state).1.isOk = true then 1 else 0 := by
  unfold returns note
  rw [List.count_append, List.count_singleton]
  simp only [beq_iff_eq, NativeCall.mk.injEq]

theorem returns_note_of_ne (hp : p ≠ .rollbackToSavepoint) : (note p k op t).2.returns = t.returns := by
  funext n
  rw [returns_note]
  simp [hp]

theorem returns_note_le (n : Nat) : t.returns n ≤ (note p k op t).2.returns n := by
  rw [returns_note]
  omega

end Recorded

theorem recorded_start_returns (b : Backend σ ρ ς) (d : Definition) (t : Recorded σ) :
    (b.recorded.start d t).2.returns = t.returns := by
  have hbegin : (Recorded.note .begin t.begun (b.start d) t).2.returns = t.returns :=
    Recorded.returns_note_of_ne (by decide)
  rw [← hbegin]
  unfold Backend.recorded
  dsimp only
  rcases Recorded.note .begin t.begun (b.start d) t with ⟨_ | _, t'⟩ <;> rfl

/-- Opening a scope returns to no savepoint. -/
theorem recorded_untouched (b : Backend σ ρ ς) : b.recorded.Untouched Recorded.returns := by
  refine ⟨?_, ?_, ?_, ?_⟩
  · intro d t f t' hstart
    rw [← recorded_start_returns b d t, hstart]
  all_goals exact fun _ _ => Recorded.returns_note_of_ne (by decide)

section Returns

variable {m : Manager σ ρ ς} {c : ContextIndex} {commit : Bool} {t : StatusId} {st : Status ς} {h : HolderId}
  {s s' : Session (Recorded σ) (Nat × ρ) ς} {state : TransactionState} {outcome : Except TransactionError Unit}

theorem applied_returns_le {h : Option HolderId} {op : Nat × ρ → Native (Recorded σ) Unit}
    {r : Except Failure Unit} {t : Recorded σ} {n : Nat} (happ : s.applied h op = (r, t))
    (hop : ∀ r t, t.returns n ≤ (op r t).2.returns n) : s.native.returns n ≤ t.returns n := by
  unfold Session.applied at happ
  split at happ
  · obtain ⟨-, rfl⟩ := Prod.mk.inj happ
    exact Nat.le_refl _
  · obtain rfl := congrArg Prod.snd happ
    exact hop _ _

/-- The work of a scope takes no return to a savepoint out of the record. -/
theorem Manager.Working.returns_le (hw : Working m.recorded commit st s state outcome s') (n : Nat) :
    s.native.returns n ≤ s'.native.returns n := by
  have hnote : ∀ {p : Primitive} {k : Nat} {op : Native σ Unit} {t : Recorded σ},
      t.returns n ≤ (Recorded.note p k op t).2.returns n := Recorded.returns_note_le n
  cases hw with
  | kept | unmarked => exact Nat.le_refl _
  | marked => exact Nat.le_of_eq (by rw [native_modifyHolderOf])
  | savepointReleased _ _ happ => exact applied_returns_le happ fun _ _ => hnote
  | committed _ _ _ happ => exact applied_returns_le happ fun _ _ => hnote
  | commitFailed _ _ _ happ => exact applied_returns_le happ fun _ _ => hnote
  | commitUndone _ _ _ happ _ hundo =>
    exact Nat.le_trans (applied_returns_le happ fun _ _ => hnote) (applied_returns_le hundo fun _ _ => hnote)
  | returnFailed _ _ happ => exact applied_returns_le happ fun _ _ => hnote
  | returned _ _ happ hrel =>
    refine Nat.le_trans (applied_returns_le happ fun _ _ => hnote) ?_
    have hreleased := applied_returns_le hrel fun _ _ => hnote
    rwa [native_modifyHolderOf] at hreleased
  | undone _ _ _ happ => exact applied_returns_le happ fun _ _ => hnote

/-- A return to a savepoint of a transaction stands in the record under the number of the transaction. -/
theorem Manager.Working.returns_returned (hw : Working m.recorded commit st s state outcome s')
    (hs : Numbered s) {sp : ς} (hh : st.holder = some h) (hsp : st.savepoint = some sp)
    (hkeep : keepsWork commit st s = false) (hlt : h < s.holders.size)
    (hok : (s.applied (some h) (m.recorded.backend.rollbackToSavepoint · sp)).1 = .ok ()) :
    s.native.returns h < s'.native.returns h := by
  cases hw with
  | kept hk | savepointReleased hk | committed hk | commitFailed hk | commitUndone hk =>
    rw [hkeep] at hk; cases hk
  | undone _ hsp' | marked _ hsp' | unmarked _ hsp' => rw [hsp] at hsp'; cases hsp'
  | returnFailed _ hsp' happ =>
    obtain rfl := Option.some.inj (hsp'.symm.trans hsp)
    rw [hh] at happ
    rw [happ] at hok
    cases hok
  | @returned sp' n r n' _ hsp' happ hrel =>
    obtain rfl := Option.some.inj (hsp'.symm.trans hsp)
    have hx : s.holder? h = some s.holders[h] := Array.getElem?_eq_getElem hlt
    -- the return is noted, and releasing the savepoint takes no note back
    have hreturned : n.returns h = s.native.returns h + 1 := by
      rw [hh, applied_of_holder hx] at happ
      have hnoted : n = (Recorded.note .rollbackToSavepoint s.holders[h].resource.1
          (m.backend.rollbackToSavepoint s.holders[h].resource.2 sp') s.native).2 := (congrArg Prod.snd happ).symm
      have hsucceeded : (m.backend.rollbackToSavepoint s.holders[h].resource.2 sp' s.native.state).1 = .ok () :=
        congrArg Prod.fst happ
      rw [hnoted, Recorded.returns_note, hsucceeded, hs.numbers h _ hx, if_pos ⟨rfl, rfl, rfl⟩]
    have hreleased : n.returns h ≤ n'.returns h := by
      have hafter := applied_returns_le (n := h) hrel fun _ _ => Recorded.returns_note_le h
      rwa [native_modifyHolderOf] at hafter
    show s.native.returns h < n'.returns h
    omega

/-- What the work of a scope recorded is all that completing the scope records of returns. -/
theorem Manager.Concluding.returns {r : Except TransactionError Unit} (hst : s.status? t = some st)
    (hc : Concluding m.recorded commit c t st s r s') :
    ∃ state outcome s₁, Working m.recorded commit st s state outcome s₁ ∧ s'.native.returns = s₁.native.returns := by
  obtain ⟨state, outcome, s₁, _, s₂, hwork, hrel, hn, -⟩ := hc.outline hst (recorded_untouched m.backend)
  have hreleased : s₂.native.returns = s₁.native.returns :=
    hrel.observed fun _ _ => Recorded.returns_note_of_ne (by decide)
  exact ⟨state, outcome, s₁, hwork, hn.trans hreleased⟩

/-- A scope that returns to its savepoint has that recorded. -/
theorem Manager.Returns.recorded (hr : m.recorded.Returns commit t h s) (c : ContextIndex) (hs : Numbered s)
    (hlt : h < s.holders.size) :
    s.native.returns h < (m.recorded.conclude commit c t s).2.native.returns h := by
  obtain ⟨st, sp, hst, hopen, hh, hsp, hkeep, hok⟩ := hr
  obtain ⟨r, s', hrun, hc⟩ := conclude_spec m.recorded commit c hst hopen
  obtain ⟨_, _, s₁, hwork, hsame⟩ := hc.returns hst
  rw [hrun]
  show s.native.returns h < s'.native.returns h
  rw [hsame]
  exact hwork.returns_returned hs hh hsp hkeep hlt hok

/-- A participant whose work is undone marks its transaction, if participants decide or its own status asks
for it. -/
theorem Manager.Concluding.marks {m : Manager σ ρ ς} {s s' : Session σ ρ ς} {r : Except TransactionError Unit}
    (hst : s.status? t = some st) (hc : Concluding m commit c t st s r s') (hnew : st.newTransaction = false)
    (hsp : st.savepoint = none) (hh : st.holder = some h) (hlt : h < s.holders.size)
    (hundone : st.rollbackOnly = true ∨ commit = false ∧ m.config.globalRollbackOnParticipationFailure = true) :
    s'.marked h = true := by
  obtain ⟨state, outcome, s₁, _, s₂, hwork, hrel, -, -, hfate, -⟩ := hc.outline hst (.const m.backend)
  have hkeep : keepsWork commit st s = false := by
    unfold keepsWork
    rcases hundone with hon | ⟨hno, -⟩
    · simp [hon]
    · simp [hno]
  have hmarks : (st.rollbackOnly || m.config.globalRollbackOnParticipationFailure) = true := by
    rcases hundone with hon | ⟨-, hon⟩
    · simp [hon]
    · simp [hon]
  have hworked : s₁.marked h = true := by
    cases hwork with
    | kept hk | savepointReleased hk | committed hk | commitFailed hk | commitUndone hk =>
      rw [hkeep] at hk; cases hk
    | returned _ hsp' | returnFailed _ hsp' => rw [hsp] at hsp'; cases hsp'
    | undone _ _ hnew' => rw [hnew] at hnew'; cases hnew'
    | unmarked _ _ _ hoff => rw [hmarks] at hoff; cases hoff
    | marked =>
      rw [modifyHolderOf_of_holder s _ hh, marked_modifyHolder (Array.getElem?_eq_getElem hlt), if_pos rfl]
      rfl
  rcases hrel.keeps_mark (h := h) with hsame | ⟨hnew', _⟩
  · exact (marked_of_fate (hfate h)).trans (hsame.trans hworked)
  · rw [hnew] at hnew'; cases hnew'

end Returns

/-! ## Commits that come as a surprise -/

/-- Every step of ending a scope with a rollback of its transaction succeeds: the rollback, the release of
what the scope acquired, and the resumption of what it suspended. -/
def Manager.rollsBackCleanly (m : Manager σ ρ ς) (c : ContextIndex) (t : StatusId) (st : Status ς)
    (s : Session σ ρ ς) : Bool :=
  let undone := complete st m.backend.rollback "could not roll back native transaction" s
  let released := m.releaseScope c st (undone.2.endStatus t .rolledBack)
  undone.1.isOk && released.1.isOk && (m.resumeSuspended c t st released.2).1.isOk

theorem eq_ok_of_isOk {β : Type} {x : Except TransactionError Unit × β} (h : x.1.isOk = true) : x = (.ok (), x.2) := by
  rcases x with ⟨_ | ⟨⟩, b⟩
  · cases h
  · rfl

/-- An owner that is not marked itself, but whose transaction is, learns of the rollback. -/
theorem conclude_unexpected {m : Manager σ ρ ς} {c : ContextIndex} {t : StatusId} {st : Status ς}
    {s : Session σ ρ ς} (hst : s.status? t = some st) (hopen : st.isCompleted = false)
    (hnew : st.newTransaction = true) (hsp : st.savepoint = none) (hoff : st.rollbackOnly = false)
    (hglobal : s.isGlobalRollbackOnly st = true) (hfails : m.config.failOnUnexpectedRollback = true)
    (hclean : m.rollsBackCleanly c t st s = true) : (m.conclude true c t s).1 = .error .markedRollbackOnly := by
  unfold rollsBackCleanly at hclean
  simp only [Bool.and_eq_true] at hclean
  obtain ⟨⟨hundone, hreleased⟩, hresumed⟩ := hclean
  have hback := eq_ok_of_isOk hundone
  have hrel := eq_ok_of_isOk hreleased
  have hres := eq_ok_of_isOk hresumed
  generalize (complete st m.backend.rollback "could not roll back native transaction" s).2 = s₁ at *
  generalize (m.releaseScope c st (s₁.endStatus t .rolledBack)).2 = s₂ at *
  generalize (m.resumeSuspended c t st s₂).2 = s₃ at *
  have hkeep : keepsWork true st s = false := by simp [keepsWork, hglobal]
  have hreports : m.reportsRollback true st s = true := by
    simp [reportsRollback, hoff, hglobal, hnew, hfails]
  have hwork : m.work true st s = ((.rolledBack, .ok ()), s₁) := by
    have hundo : m.rollbackWork st s = (.ok (), s₁) := by
      unfold rollbackWork
      rw [hsp, hnew]
      exact hback
    unfold work
    rw [hkeep, hundo]
    rfl
  have hfinish : m.finish c t st .rolledBack (.ok ()) s₁ = (.ok (), s₃) := by
    have hcleanup : m.cleanupAfterCompletion c t st (s₁.endStatus t .rolledBack) = (.ok (), s₃) :=
      (step_bind_of hrel).trans ((step_bind_of hres).trans rfl)
    exact (step_bind_of rfl).trans ((step_bind_of hcleanup).trans rfl)
  rw [conclude_open hst hopen, hwork]
  simp only [hfinish, hreports, if_true]

/-! ## What clients do between calls -/

/-- The session with the transactions marked that a client found to be over. -/
def Session.markWhere (s : Session σ ρ ς) (p : HolderId → Bool) : Session σ ρ ς :=
  { s with holders := s.holders.mapIdx fun h x => if p h then x.setRollbackOnly else x }

theorem holder?_markWhere (s : Session σ ρ ς) (p : HolderId → Bool) (h : HolderId) :
    (s.markWhere p).holder? h = (s.holder? h).map fun x => if p h then x.setRollbackOnly else x :=
  Array.getElem?_mapIdx

theorem steady_markWhere (s : Session σ ρ ς) (p : HolderId → Bool) : Steady s (s.markWhere p) := by
  refine ⟨rfl, fun h => ?_⟩
  rw [holder?_markWhere, Option.map_map]
  refine congrArg (Option.map · (s.holder? h)) (funext fun x => ?_)
  show (if p h then x.setRollbackOnly else x).resource = x.resource
  split <;> rfl

theorem seen_markWhere {σ' ρ' : Type} (v : NativeView σ σ' ρ ρ') (s : Session σ ρ ς) (p : HolderId → Bool) :
    (s.markWhere p).seen v = (s.seen v).markWhere p := by
  have hholders : (s.markWhere p).holders.map (Holder.seen v) = ((s.seen v).markWhere p).holders := by
    refine Array.ext_getElem? fun h => ?_
    show ((s.holders.mapIdx _).map _)[h]? = ((s.holders.map _).mapIdx _)[h]?
    rw [Array.getElem?_map, Array.getElem?_mapIdx, Array.getElem?_mapIdx, Array.getElem?_map, Option.map_map,
      Option.map_map]
    refine congrArg (Option.map · s.holders[h]?) (funext fun x => ?_)
    show (if p h then x.setRollbackOnly else x).seen v = if p h then (x.seen v).setRollbackOnly else x.seen v
    split <;> rfl
  unfold seen
  rw [hholders]
  rfl

theorem marked_markWhere {s : Session σ ρ ς} {h : HolderId} (hm : s.marked h = true) (p : HolderId → Bool) :
    (s.markWhere p).marked h = true := by
  unfold Session.marked at hm ⊢
  rw [holder?_markWhere]
  cases hx : s.holder? h with
  | none => rw [hx] at hm; cases hm
  | some x =>
    rw [hx] at hm
    show (if p h then x.setRollbackOnly else x).rollbackOnly = true
    split
    · rfl
    · exact hm

/-- What a client does between its calls of a manager: the native state and the clock become anything,
and transactions are marked rollback-only. -/
structure ClientWork (σ : Type) where
  state : σ
  now : Instant
  marks : HolderId → Bool

def ClientWork.perform (a : ClientWork σ) (s : Session σ ρ ς) : Session σ ρ ς :=
  (elapse (a.state, a.now) s).markWhere a.marks

def ClientWork.performRecorded (a : ClientWork σ) (s : Session (Recorded σ) ρ ς) : Session (Recorded σ) ρ ς :=
  (elapseRecorded (a.state, a.now) s).markWhere a.marks

theorem ClientWork.steady (a : ClientWork σ) (s : Session (Recorded σ) (Nat × ρ) ς) :
    Steady s (a.performRecorded s) :=
  (elapseRecorded_steady (a.state, a.now) s).trans (steady_markWhere _ a.marks)

theorem ClientWork.keeps_marks (a : ClientWork σ) (s : Session (Recorded σ) (Nat × ρ) ς) (h : HolderId)
    (hm : s.marked h = true) : (a.performRecorded s).marked h = true :=
  marked_markWhere hm a.marks

theorem ClientWork.seen (a : ClientWork σ) (s : Session (Recorded σ) (Nat × ρ) ς) :
    a.perform (s.seen unrecorded) = (a.performRecorded s).seen unrecorded :=
  (seen_markWhere unrecorded (elapseRecorded (a.state, a.now) s) a.marks).symm

section Calls

variable {m : Manager σ ρ ς} {s : Session (Recorded σ) (Nat × ρ) ς} {h : HolderId}

theorem Settled.markWhere (hs : Settled m.config s) (p : HolderId → Bool) : Settled m.config (s.markWhere p) :=
  ⟨hs.toNumbered.congr (steady_markWhere s p).holders rfl, hs.owned.steady (steady_markWhere s p), hs.unbegun,
    hs.running, hs.ended⟩

theorem Settled.worked (hs : Settled m.config s) (call : ManagerCall (ClientWork σ)) :
    Settled m.config (m.recorded.called ClientWork.performRecorded s call) := by
  cases call with
  | enter c d => exact hs.called (.enter c d)
  | conclude commit c t => exact hs.called (.conclude commit c t)
  | mark t => exact hs.called (.mark t)
  | act a => exact (hs.called (.act (a.state, a.now))).markWhere a.marks

theorem Settled.workedAll (hs : Settled m.config s) (calls : List (ManagerCall (ClientWork σ))) :
    Settled m.config (m.recorded.calledAll ClientWork.performRecorded calls s) := by
  induction calls generalizing s with
  | nil => exact hs
  | cons call calls ih => exact ih (hs.worked call)

/-- No call takes a return to a savepoint out of the record. -/
theorem returns_called_le (s : Session (Recorded σ) (Nat × ρ) ς) (call : ManagerCall (ClientWork σ)) (n : Nat) :
    s.native.returns n ≤ (m.recorded.called ClientWork.performRecorded s call).native.returns n := by
  cases call with
  | enter c d =>
    obtain ⟨r, s', hrun, houtline⟩ := getTransaction_outline m.recorded c d s (recorded_untouched m.backend)
    show s.native.returns n ≤ (m.recorded.getTransaction c d s).2.native.returns n
    rw [hrun]
    cases houtline with
    | failed _ hn => exact Nat.le_of_eq (congrFun hn n).symm
    | entered _ hn => exact Nat.le_of_eq (congrFun hn n).symm
    | @begun s₁ _ x n' _ hn hstart =>
      have hbegun : n'.returns = s₁.native.returns := by
        rw [← recorded_start_returns m.backend d s₁.native]
        exact congrArg Recorded.returns (congrArg Prod.snd hstart).symm
      exact Nat.le_of_eq (congrFun (hbegun.trans hn) n).symm
  | conclude commit c t =>
    show s.native.returns n ≤ (m.recorded.conclude commit c t s).2.native.returns n
    rcases conclude_cases m.recorded commit c t s with ⟨hrefused, _⟩ | ⟨st, r, s', hst, _, hrun, hc⟩
    · exact Nat.le_of_eq (by rw [hrefused])
    · obtain ⟨_, _, s₁, hwork, hsame⟩ := hc.returns hst
      rw [hrun]
      show s.native.returns n ≤ s'.native.returns n
      rw [hsame]
      exact hwork.returns_le n
  | mark t => exact Nat.le_refl _
  | act a => exact Nat.le_refl _

theorem returns_calledAll_le (s : Session (Recorded σ) (Nat × ρ) ς) (calls : List (ManagerCall (ClientWork σ)))
    (n : Nat) :
    s.native.returns n ≤ (m.recorded.calledAll ClientWork.performRecorded calls s).native.returns n := by
  induction calls generalizing s with
  | nil => exact Nat.le_refl _
  | cons call calls ih => exact Nat.le_trans (returns_called_le s call n) (ih _)

/-- A mark stays while the owner is open and the record shows no new return to a savepoint of the
transaction. -/
theorem Settled.stays_marked (hs : Settled m.config s) (hm : s.marked h = true) {u : StatusId}
    (hown : s.owned? u = some h) (later : List (ManagerCall (ClientWork σ))) {st : Status ς}
    (hst : (m.recorded.calledAll ClientWork.performRecorded later s).status? u = some st)
    (hopen : st.isCompleted = false)
    (hreturns : (m.recorded.calledAll ClientWork.performRecorded later s).native.returns h = s.native.returns h) :
    (m.recorded.calledAll ClientWork.performRecorded later s).marked h = true := by
  cases hoff : (m.recorded.calledAll ClientWork.performRecorded later s).marked h with
  | true => rfl
  | false =>
    obtain ⟨before, commit, c, t, after, rfl, hback, -⟩ :=
      (unmarked_iff_forgiven ClientWork.steady ClientWork.keeps_marks hs.owned hm hown later hst hopen).1 hoff
    -- the record shows the scope that returned to its savepoint
    have hlt := (hs.workedAll before).owned.range (owned?_calledAll (m := m.recorded) ClientWork.steady hown before)
    have hbefore := returns_calledAll_le (m := m) s before h
    have hmore := hback.recorded c (hs.workedAll before).toNumbered hlt
    have hafter := returns_calledAll_le (m := m)
      (m.recorded.conclude commit c t (m.recorded.calledAll ClientWork.performRecorded before s)).2 after h
    rw [calledAll_append] at hreturns
    change (m.recorded.calledAll ClientWork.performRecorded after (m.recorded.conclude commit c t _).2).native.returns h
      = _ at hreturns
    omega

end Calls

/-! ## Doomed owners -/

/-- A mark sticks and dooms the owner, for every manager, every order of calls in any contexts, and whatever
the backend answers. Without the record of its native calls the run is that of the manager itself, with the
same answers. A transaction that is marked is unmarked by a call only if the call completes its owner or
returns, natively and with success, to a savepoint of the transaction. Let then a participant without a
savepoint be completed while the owner is open, with a rollback that participants decide, or in any way after
its own status was marked. As long as no savepoint of the transaction is returned to, the owner's completion
asks for one native rollback and no native commit, and its commit reports the rollback if the owner was not
marked itself, that is to be reported, and every step of the completion succeeds. -/
theorem mark_dooms_owner (m : Manager σ ρ ς) (contexts : Nat) (state : σ)
    (calls : List (ManagerCall (ClientWork σ))) :
    let act := ClientWork.performRecorded
    let s := m.recorded.calledAll act calls (Session.ofContexts contexts { state })
    (s.seen unrecorded = m.calledAll ClientWork.perform calls (Session.ofContexts contexts state) ∧
      ∀ commit c t, (m.conclude commit c t (s.seen unrecorded)).1 = (m.recorded.conclude commit c t s).1) ∧
    (∀ call h, s.marked h = true → (m.recorded.called act s call).marked h = false →
      (∃ commit c t st, call = .conclude commit c t ∧ s.status? t = some st ∧ st.isCompleted = false ∧
        s.owned? t = some h) ∨
      s.native.returns h < (m.recorded.called act s call).native.returns h) ∧
    ∀ commit c t st h u, s.status? t = some st → st.isCompleted = false → st.newTransaction = false →
      st.savepoint = none → st.holder = some h → s.owned? u = some h →
      (st.rollbackOnly = true ∨ commit = false ∧ m.config.globalRollbackOnParticipationFailure = true) →
      ∀ later,
        let s₁ := (m.recorded.conclude commit c t s).2
        let s₂ := m.recorded.calledAll act later s₁
        s₂.native.returns h = s₁.native.returns h →
        ∀ commit' c' stᵤ, s₂.status? u = some stᵤ → stᵤ.isCompleted = false →
          (∃ undone cleaned, (m.recorded.conclude commit' c' u s₂).2.native.completions h =
            [(.rollback, undone), (.cleanup, cleaned)]) ∧
          (commit' = true → stᵤ.rollbackOnly = false → m.config.failOnUnexpectedRollback = true →
            m.recorded.rollsBackCleanly c' u stᵤ s₂ = true →
            (m.recorded.conclude commit' c' u s₂).1 = .error .markedRollbackOnly) := by
  intro act s
  have hs : Settled m.config s := (Settled.start m.config contexts state).workedAll calls
  have hplain : s.seen unrecorded = m.calledAll ClientWork.perform calls (Session.ofContexts contexts state) := by
    rw [← seen_ofContexts]
    exact ((recorded_mirrored m).calledAll ClientWork.seen (Session.ofContexts contexts { state }) calls).symm
  clear_value s
  refine ⟨⟨hplain, ?_⟩, ?_, ?_⟩
  · intro commit c t
    exact congrArg Prod.fst ((recorded_mirrored m).conclude commit c t s)
  · intro call h hm hoff
    rcases marked_called m.recorded call (fun a _ => a.keeps_marks s h hm) hm with hkept | ⟨commit, c, t, rfl, h'⟩
    · rw [hkept] at hoff; cases hoff
    · rcases h' with ⟨st, hst, hopen, hown⟩ | hback
      · exact .inl ⟨commit, c, t, st, rfl, hst, hopen, hown⟩
      · exact .inr (hback.recorded c hs.toNumbered (marked_lt hm))
  · intro commit c t st h u hst hopen hnew hsp hh hown hundone later s₁ s₂ hreturns commit' c' stᵤ hstᵤ hopenᵤ
    obtain ⟨r, s', hrun, hc⟩ := conclude_spec m.recorded commit c hst hopen
    obtain rfl : s₁ = s' := congrArg Prod.snd hrun
    have hs₁ : Settled m.config s₁ := hs.worked (.conclude commit c t)
    have hs₂ : Settled m.config s₂ := hs₁.workedAll later
    have hown₁ : s₁.owned? u = some h :=
      owned?_called m.recorded (.conclude commit c t) (fun a _ => ClientWork.steady a s) hown
    have hown₂ : s₂.owned? u = some h := owned?_calledAll ClientWork.steady hown₁ later
    have hm₁ : s₁.marked h = true := hc.marks hst hnew hsp hh (hs.owned.range hown) hundone
    have hm₂ : s₂.marked h = true := hs₁.stays_marked hm₁ hown₁ later hstᵤ hopenᵤ hreturns
    obtain ⟨hnewᵤ, hspᵤ, hhᵤ, x, hx, -⟩ := hs₂.owner hstᵤ hown₂
    have hkeep : keepsWork commit' stᵤ s₂ = false := by
      refine Bool.eq_false_iff.2 fun hk => ?_
      have hoff := ((keepsWork_of_holder hhᵤ hx commit').1 hk).2.2
      rw [hm₂] at hoff
      cases hoff
    refine ⟨?_, ?_⟩
    · rcases hs₂.completions_called (.conclude commit' c' u) h with
        ⟨_, _, _, st', ending, ⟨⟩, hst', _, _, hending, hcalls⟩ | ⟨hother, _⟩
      · obtain rfl := Option.some.inj (hst'.symm.trans hstᵤ)
        rw [hkeep] at hending
        rw [hs₂.running u st' h hstᵤ hown₂ hopenᵤ, List.nil_append] at hcalls
        cases hending with
        | @rolledBack undone cleaned => exact ⟨undone, cleaned, hcalls⟩
      · exact absurd hown₂ (hother commit' c' u stᵤ rfl hstᵤ hopenᵤ)
    · rintro rfl hoff hfails hclean
      refine conclude_unexpected hstᵤ hopenᵤ hnewᵤ hspᵤ hoff ?_ hfails hclean
      simpa [keepsWork, hoff] using hkeep

/-- A participant was rolled back, and another transaction was begun and committed since: the owner's commit
rolls back all the same, and says so. -/
theorem mark_dooms_owner_after_renewal :
    let m : Manager Store ConnectionId Savepoint := { backend := Store.backend ⟨7⟩ .all }
    let act : ClientWork Store → Session (Recorded Store) (Nat × ConnectionId) Savepoint → _ :=
      ClientWork.performRecorded
    let s := m.recorded.calledAll act [.enter 0 {}, .enter 0 {}] (Session.ofContexts 1 { state := { key := ⟨7⟩ } })
    let s₁ := (m.recorded.conclude false 0 1 s).2
    let s₂ := m.recorded.calledAll act [.enter 0 { propagation := .requiresNew }, .conclude true 0 2] s₁
    (∃ undone cleaned, (m.recorded.conclude true 0 0 s₂).2.native.completions 0 =
      [(.rollback, undone), (.cleanup, cleaned)]) ∧
    (m.recorded.conclude true 0 0 s₂).1 = .error .markedRollbackOnly := by
  intro m act s s₁ s₂
  have hparticipant : (s.status? 1).map (fun st => (st.isCompleted, st.newTransaction, st.savepoint, st.holder)) =
      some (false, false, none, some 0) := by decide +kernel
  have howner : (s₂.status? 0).map (fun st => (st.isCompleted, st.rollbackOnly)) = some (false, false) := by
    decide +kernel
  have hown : s.owned? 0 = some 0 := by decide +kernel
  have hreturns : s₂.native.returns 0 = s₁.native.returns 0 := by decide +kernel
  have hclean : (s₂.status? 0).all (m.recorded.rollsBackCleanly 0 0 · s₂) = true := by
    decide +kernel
  obtain ⟨st, hst, hfields⟩ := Option.map_eq_some_iff.1 hparticipant
  obtain ⟨hopen, hnew, hsp, hh⟩ : st.isCompleted = false ∧ st.newTransaction = false ∧ st.savepoint = none ∧
      st.holder = some 0 := by simpa using hfields
  obtain ⟨stᵤ, hstᵤ, hfieldsᵤ⟩ := Option.map_eq_some_iff.1 howner
  obtain ⟨hopenᵤ, hoff⟩ : stᵤ.isCompleted = false ∧ stᵤ.rollbackOnly = false := by simpa using hfieldsᵤ
  have hdoom := (mark_dooms_owner m 1 { key := ⟨7⟩ } [.enter 0 {}, .enter 0 {}]).2.2 false 0 1
    st 0 0 hst hopen hnew hsp hh hown (.inr ⟨rfl, rfl⟩)
    [.enter 0 { propagation := .requiresNew }, .conclude true 0 2] hreturns true 0 stᵤ hstᵤ hopenᵤ
  rw [hstᵤ] at hclean
  have hreports := hdoom.2 rfl hoff rfl hclean
  have hends := hdoom.1
  simp only [s₂, s₁, s, act]
  exact ⟨hends, hreports⟩

end Demarcation
