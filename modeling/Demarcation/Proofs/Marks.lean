/-
How long a transaction stays marked rollback-only, in any order of calls. A mark is there until the owner
of the transaction is completed, or until a nested scope of the transaction returns to its savepoint.
-/
import Demarcation.Proofs.Client
import Mathlib.Data.List.Induction

namespace Demarcation

open Session Manager

variable {σ ρ ς α : Type}

/-! ## What completing a scope does to marks -/

/-- Completing a scope returns to its savepoint in a holder's transaction. -/
def Manager.Returns (m : Manager σ ρ ς) (commit : Bool) (t : StatusId) (h : HolderId) (s : Session σ ρ ς) : Prop :=
  ∃ st sp, s.status? t = some st ∧ st.isCompleted = false ∧ st.holder = some h ∧ st.savepoint = some sp ∧
    keepsWork commit st s = false ∧ (s.applied (some h) (m.backend.rollbackToSavepoint · sp)).1 = .ok ()

section Completing

variable {m : Manager σ ρ ς} {c : ContextIndex} {s s' : Session σ ρ ς} {commit : Bool} {t : StatusId}
  {st : Status ς} {state : TransactionState} {outcome r : Except TransactionError Unit} {h : HolderId}

theorem marked_modifyHolder_ne (s : Session σ ρ ς) {k : HolderId} (hne : h ≠ k) (f : Holder ρ → Holder ρ) :
    (s.modifyHolder k f).marked h = s.marked h := by
  unfold Session.marked
  rw [holder?_modifyHolder, if_neg hne]

theorem marked_modifyHolderOf_ne (s : Session σ ρ ς) (hne : st.holder ≠ some h) (f : Holder ρ → Holder ρ) :
    (s.modifyHolderOf st f).marked h = s.marked h := by
  cases hh : st.holder with
  | none => rw [modifyHolderOf_of_none s f hh]
  | some k =>
    rw [modifyHolderOf_of_holder s f hh]
    refine marked_modifyHolder_ne s ?_ f
    rintro rfl
    exact hne hh

theorem marked_setRollbackOnly (hm : s.marked h = true) (st : Status ς) :
    (s.modifyHolderOf st Holder.setRollbackOnly).marked h = true := by
  by_cases hh : st.holder = some h
  · unfold Session.marked at hm ⊢
    rw [modifyHolderOf_of_holder s _ hh, holder?_modifyHolder, if_pos rfl]
    cases hx : s.holder? h with
    | none => rw [hx] at hm; cases hm
    | some x => rfl
  · rw [marked_modifyHolderOf_ne s hh]; exact hm

/-- The work of a scope takes a mark back only where it returns to a savepoint. -/
theorem Manager.Working.keeps_mark (hw : Working m commit st s state outcome s') (hm : s.marked h = true) :
    s'.marked h = true ∨ ∃ sp, st.holder = some h ∧ st.savepoint = some sp ∧ keepsWork commit st s = false ∧
      (s.applied (some h) (m.backend.rollbackToSavepoint · sp)).1 = .ok () := by
  cases hw with
  | kept | unmarked => exact .inl hm
  | savepointReleased | committed | commitFailed | commitUndone | returnFailed | undone => exact .inl hm
  | marked => exact .inl (marked_setRollbackOnly hm st)
  | @returned sp n _ _ hk hsp happ =>
    by_cases hh : st.holder = some h
    · rw [hh] at happ
      exact .inr ⟨sp, hh, hsp, hk, congrArg Prod.fst happ⟩
    · exact .inl ((marked_modifyHolderOf_ne (s.withNative n) hh _).trans hm)

/-- Releasing what a scope acquired drops the mark of a transaction only where its owner gives it up. -/
theorem Manager.Releasing.keeps_mark (hr : Releasing m c st s r s') :
    s'.marked h = s.marked h ∨ (st.newTransaction = true ∧ st.holder = some h) := by
  cases hr with
  | nothing => exact .inl rfl
  | @reference k =>
    have hreleased : Alike Holder.fate s (s.modifyHolder k Holder.released) := .modifyHolder s k fun _ => rfl
    exact .inl (marked_of_fate (hreleased.holders h))
  | @transaction k r₁ s₁ r₂ n hh hnew hun =>
    by_cases hk : h = k
    · subst hk
      exact .inr ⟨hnew, hh⟩
    · have halike : Alike Holder.fate s s₁ := (Alike.purge s c _).trans hun.alike
      exact .inl ((marked_modifyHolder_ne s₁ hk giveUp).trans (marked_of_fate (halike.holders h)))

/-- A mark survives the completion of a scope, unless that is the owner's or returns to a savepoint. -/
theorem Manager.Concluding.keeps_mark (hst : s.status? t = some st) (hc : Concluding m commit c t st s r s')
    (hm : s.marked h = true) : s'.marked h = true ∨ (st.newTransaction = true ∧ st.holder = some h) ∨
      ∃ sp, st.holder = some h ∧ st.savepoint = some sp ∧ keepsWork commit st s = false ∧
        (s.applied (some h) (m.backend.rollbackToSavepoint · sp)).1 = .ok () := by
  obtain ⟨state, outcome, s₁, r₁, s₂, hwork, hrel, -, -, hfate, -⟩ := hc.outline hst (.const m.backend)
  have hlast : s'.marked h = s₂.marked h := marked_of_fate (hfate h)
  rcases hwork.keeps_mark hm with hworked | hreturned
  · rcases hrel.keeps_mark (h := h) with hsame | howner
    · exact .inl ((hlast.trans hsame).trans hworked)
    · exact .inr (.inl howner)
  · exact .inr (.inr hreturned)

end Completing

/-! ## What a call does to marks -/

section Calls

variable {m : Manager σ ρ ς} {act : α → Session σ ρ ς → Session σ ρ ς} {s : Session σ ρ ς} {h : HolderId}

/-- A mark survives a call, unless the call completes the owner or returns to a savepoint. -/
theorem marked_called (m : Manager σ ρ ς) (call : ManagerCall α)
    (hact : ∀ a, call = .act a → (act a s).marked h = true) (hm : s.marked h = true) :
    (m.called act s call).marked h = true ∨
    ∃ commit c t, call = .conclude commit c t ∧
      ((∃ st, s.status? t = some st ∧ st.isCompleted = false ∧ s.owned? t = some h) ∨ m.Returns commit t h s) := by
  cases call with
  | enter c d =>
    left
    obtain ⟨r, s', hrun, houtline⟩ := getTransaction_outline m c d s (.const m.backend)
    show (m.getTransaction c d s).2.marked h = true
    rw [hrun]
    have halike : ∀ {s₁}, Alike Holder.fate s s₁ → s₁.marked h = true :=
      fun hs => (marked_of_fate (hs.holders h)).trans hm
    cases houtline with
    | failed hs => exact halike hs
    | @entered s₁ st hs =>
      show s₁.marked h = true
      exact halike hs
    | @begun s₁ _ x n hs =>
      -- the new holder is another one
      have hlt : h ≠ s₁.holders.size := Nat.ne_of_lt (marked_lt (halike hs))
      have hsame : (s₁.started c m.backend.key x n).marked h = s₁.marked h := by
        unfold Session.marked
        rw [holder?_started, if_neg hlt]
      exact hsame.trans (halike hs)
  | conclude commit c t =>
    show (m.conclude commit c t s).2.marked h = true ∨ _
    rcases conclude_cases m commit c t s with ⟨hrefused, _⟩ | ⟨st, r, s', hst, hopen, hrun, hc⟩
    · rw [hrefused]; exact .inl hm
    · rw [hrun]
      rcases hc.keeps_mark hst hm with hkept | ⟨hnew, hh⟩ | ⟨sp, hh, hsp, hk, happ⟩
      · exact .inl hkept
      · refine .inr ⟨commit, c, t, rfl, .inl ⟨st, hst, hopen, ?_⟩⟩
        rw [Owned.owned?_eq hst, hnew, if_pos rfl, hh]
      · exact .inr ⟨commit, c, t, rfl, .inr ⟨st, sp, hst, hopen, hh, hsp, hk, happ⟩⟩
  | mark t => exact .inl hm
  | act a => exact .inl (hact a rfl)

end Calls

/-! ## Runs -/

/-- In a run of calls a nested scope of a holder's transaction returned to its savepoint, and the
transaction has not been marked since. -/
def Manager.Forgiven (m : Manager σ ρ ς) (act : α → Session σ ρ ς → Session σ ρ ς) (h : HolderId)
    (s : Session σ ρ ς) (calls : List (ManagerCall α)) : Prop :=
  ∃ before commit c t after, calls = before ++ .conclude commit c t :: after ∧
    m.Returns commit t h (m.calledAll act before s) ∧
    ∀ later, later <+: after →
      (m.calledAll act (before ++ .conclude commit c t :: later) s).marked h = false

section Runs

variable {m : Manager σ ρ ς} {act : α → Session σ ρ ς → Session σ ρ ς} {s : Session σ ρ ς} {h : HolderId}
  {calls : List (ManagerCall α)}

theorem Manager.calledAll_append (m : Manager σ ρ ς) (act : α → Session σ ρ ς → Session σ ρ ς)
    (calls calls' : List (ManagerCall α)) (s : Session σ ρ ς) :
    m.calledAll act (calls ++ calls') s = m.calledAll act calls' (m.calledAll act calls s) :=
  List.foldl_append ..

theorem Manager.Forgiven.snoc (hf : m.Forgiven act h s calls) {call : ManagerCall α}
    (hm : (m.calledAll act (calls ++ [call]) s).marked h = false) : m.Forgiven act h s (calls ++ [call]) := by
  obtain ⟨before, commit, c, t, after, rfl, hreturns, hsince⟩ := hf
  refine ⟨before, commit, c, t, after ++ [call], by simp, hreturns, fun later hlater => ?_⟩
  rcases List.prefix_concat_iff.1 hlater with rfl | hlater
  · rwa [List.append_assoc, List.cons_append] at hm
  · exact hsince later hlater

theorem Manager.Forgiven.unmarked (hf : m.Forgiven act h s calls) : (m.calledAll act calls s).marked h = false := by
  obtain ⟨before, commit, c, t, after, rfl, _, hsince⟩ := hf
  exact hsince after (List.prefix_refl _)

variable (hact : ∀ a s, Steady s (act a s)) (hmarks : ∀ a s h, s.marked h = true → (act a s).marked h = true)
include hact

theorem owned?_calledAll {t : StatusId} (hown : s.owned? t = some h) (calls : List (ManagerCall α)) :
    (m.calledAll act calls s).owned? t = some h := by
  induction calls generalizing s with
  | nil => exact hown
  | cons call calls ih => exact ih (owned?_called m call (fun a _ => hact a s) hown)

include hmarks

/-- As long as its owner is open, a transaction that was marked is unmarked exactly if a nested scope was
forgiven for it. -/
theorem unmarked_iff_forgiven (ho : Owned s) (hm : s.marked h = true) {t : StatusId} (hown : s.owned? t = some h)
    (calls : List (ManagerCall α)) {st : Status ς} (hst : (m.calledAll act calls s).status? t = some st)
    (hopen : st.isCompleted = false) :
    (m.calledAll act calls s).marked h = false ↔ m.Forgiven act h s calls := by
  refine ⟨?_, Forgiven.unmarked⟩
  -- the call that was made last kept the mark off or took it back
  induction calls using List.reverseRecOn generalizing st with
  | nil => intro hoff; rw [show m.calledAll act [] s = s from rfl, hm] at hoff; cases hoff
  | append_singleton calls call ih =>
    intro hoff
    have hlast : m.calledAll act (calls ++ [call]) s = m.called act (m.calledAll act calls s) call :=
      calledAll_append m act calls [call] s
    have hown' : (m.calledAll act calls s).owned? t = some h := owned?_calledAll hact hown calls
    obtain ⟨st', hst', hbefore⟩ : ∃ st', (m.calledAll act calls s).status? t = some st' ∧
        st'.isCompleted = false := by
      obtain ⟨st', hst', _⟩ := Option.bind_eq_some_iff.1 hown'
      obtain ⟨st'', hst'', _, _, hend⟩ := called_status m call (fun a _ => hact a (m.calledAll act calls s)) hst'
      rw [hlast] at hst
      obtain rfl := Option.some.inj (hst''.symm.trans hst)
      rcases hend with hsame | ⟨_, _, _, hopen', _⟩
      · exact ⟨st', hst', (Status.isCompleted_congr hsame).symm.trans hopen⟩
      · exact ⟨st', hst', hopen'⟩
    cases hb : (m.calledAll act calls s).marked h with
    | false => exact (ih hst' hbefore hb).snoc hoff
    | true =>
      rcases marked_called m call (fun a _ => hmarks a _ h hb) hb with hkept | ⟨commit, c, u, rfl, hended | hreturns⟩
      · rw [hlast, hkept] at hoff; cases hoff
      · -- the owner would have been completed
        obtain ⟨stᵤ, hstᵤ, hopenᵤ, hownᵤ⟩ := hended
        have howned : Owned (m.calledAll act calls s) := ho.calledAll calls hact
        obtain rfl := howned.unique u t h hownᵤ hown'
        obtain ⟨state, hended⟩ := conclude_completes m commit c hstᵤ hopenᵤ
        rw [hlast] at hst
        obtain rfl := Option.some.inj (hst.symm.trans hended)
        cases hopen
      · refine ⟨calls, commit, c, u, [], rfl, hreturns, fun later hlater => ?_⟩
        obtain rfl := List.prefix_nil.1 hlater
        exact hoff

end Runs

end Demarcation
