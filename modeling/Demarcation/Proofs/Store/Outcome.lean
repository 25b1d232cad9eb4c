/-
What a manager on a store reports is what became of the store: in any order of calls, whatever fails,
an owner ends committed exactly if its completion published everything staged on its connection, and
no other call of the manager publishes anything.
-/
import Demarcation.Proofs.Store.Access
import Demarcation.Proofs.Store.Primitives

namespace Demarcation

open Session Manager

/-- A manager on one store. -/
def storeManager (key : ResourceKey) (capabilities : Capabilities) (config : ManagerConfig) :
    Manager Store ConnectionId Savepoint :=
  { backend := Store.backend key capabilities, config }

/-- What a client of a store does between its calls of the manager. -/
inductive StoreAct
  /-- The store and the clock become anything. -/
  | alter (store : Store) (now : Instant)
  /-- The connection of a context is asked for, which may find that its transaction timed out. -/
  | access (c : ContextIndex)

def StoreAct.perform (key : ResourceKey) (a : StoreAct) (s : Session Store ConnectionId Savepoint) :
    Session Store ConnectionId Savepoint :=
  match a with
  | .alter store now => { s with native := store, now }
  | .access c => ((StoreSite.whole key).access c s).2

theorem StoreAct.steady (key : ResourceKey) (a : StoreAct) (s : Session Store ConnectionId Savepoint) :
    Steady s (a.perform key s) := by
  cases a with
  | alter store now => exact ⟨rfl, fun _ => rfl⟩
  | access c => exact StoreSite.access_alike key c s fun _ => rfl

section Outcomes

variable {key : ResourceKey} {capabilities : Capabilities} {config : ManagerConfig} {c : ContextIndex}
  {s s' : Session Store ConnectionId Savepoint} {commit : Bool} {t : StatusId} {st : Status Savepoint}
  {r : Except TransactionError Unit} {h : HolderId} {x : Holder ConnectionId}

/-- An owner ends committed exactly if a commit was asked for, nothing was marked and the native commit
succeeded. Its completion then published what was staged on its connection, and it publishes nothing
otherwise. A commit of it that is not refused for an unexpected rollback has committed. -/
theorem Manager.Concluding.published
    (hst : s.status? t = some st) (hc : Concluding (storeManager key capabilities config) commit c t st s r s')
    (hnew : st.newTransaction = true) (hsp : st.savepoint = none) (hh : st.holder = some h)
    (hx : s.holder? h = some x) :
    ∃ state, s'.status? t = some (st.ended state) ∧
      (state = .committed ↔ keepsWork commit st s = true ∧
        ((Store.backend key capabilities).commit x.resource s.native).1 = .ok ()) ∧
      (state = .committed → ∃ conn, s.native.connection? x.resource = some conn ∧
        s'.native.entries = s.native.entries.applyAll conn.log) ∧
      (state ≠ .committed → s'.native.entries = s.native.entries) ∧
      (config.failOnUnexpectedRollback = true → commit = true → st.rollbackOnly = false → r = .ok () →
        state = .committed) := by
  obtain ⟨state, outcome, s₁, r₁, s₂, hwork, hrel, hn, hstatus, -, hok⟩ :=
    hc.outline hst (Store.backend_unmoved key capabilities).toUntouched
  have hreleased : s₂.native.entries = s₁.native.entries :=
    hrel.observed (φ := Store.entries) (Store.backend_cleanup_entries key capabilities)
  have hentries : s'.native.entries = s₁.native.entries := hn.trans hreleased
  refine ⟨state, (hstatus t).trans (if_pos rfl), ?_⟩
  rcases hwork.observed (φ := Store.entries) (Store.backend_rollback_entries key capabilities) hnew hsp with
    ⟨hkeep, hsame, hstate⟩ | ⟨hkeep, hsame, hstate, houtcome⟩
  · refine ⟨⟨fun h => absurd h hstate, fun ⟨hkeep', _⟩ => ?_⟩, fun h => absurd h hstate,
      fun _ => hentries.trans hsame, fun hfail hcommit hmark hr => ?_⟩
    · rw [hkeep] at hkeep'; cases hkeep'
    -- the transaction was marked rollback-only, which the commit has to report
    obtain ⟨_, hreport⟩ := hok hr
    have hglobal : s.isGlobalRollbackOnly st = true := by
      simpa [keepsWork, hcommit, hmark] using hkeep
    rw [show (storeManager key capabilities config).reportsRollback commit st s = true by
      simp [reportsRollback, storeManager, hcommit, hmark, hglobal, hnew, hfail]] at hreport
    cases hreport
  · rw [hh, applied_of_holder hx] at hsame hstate
    refine ⟨hstate.trans ⟨fun h => ⟨hkeep, h⟩, And.right⟩, fun h => ?_, fun h => ?_,
      fun _ _ _ hr => houtcome (hok hr).1⟩
    · rcases Store.backend_commit key capabilities x.resource s.native with ⟨conn, _, hconn, happly⟩ | ⟨f, hf, _⟩
      · exact ⟨conn, hconn, (hentries.trans hsame).trans happly⟩
      · cases (hstate.1 h).symm.trans hf
    · rcases Store.backend_commit key capabilities x.resource s.native with ⟨conn, hconn, _⟩ | ⟨f, _, hkept⟩
      · exact absurd (hstate.2 hconn) h
      · exact (hentries.trans hsame).trans hkept

/-- No call of a manager but the completion of an owner changes the committed entries. -/
theorem called_entries (call : ManagerCall StoreAct) (hact : ∀ a, call ≠ .act a)
    (hparticipant : ∀ commit c t st, call = .conclude commit c t → s.status? t = some st →
      st.isCompleted = false → st.newTransaction = false) :
    ((storeManager key capabilities config).called (StoreAct.perform key) s call).native.entries =
      s.native.entries := by
  have hunmoved := Store.backend_unmoved key capabilities
  cases call with
  | enter c d =>
    obtain ⟨r, s', hrun, houtline⟩ := getTransaction_outline (storeManager key capabilities config) c d s
      hunmoved.toUntouched
    show ((storeManager key capabilities config).getTransaction c d s).2.native.entries = _
    rw [hrun]
    cases houtline with
    | failed _ hn => exact hn
    | entered _ hn => exact hn
    | begun _ hn hstart =>
      have hbegin := Store.backend_start_entries key capabilities d
      exact ((congrArg (·.2.entries) hstart).symm.trans (hbegin _)).trans hn
  | conclude commit c t =>
    show ((storeManager key capabilities config).conclude commit c t s).2.native.entries = _
    rcases conclude_cases (storeManager key capabilities config) commit c t s with
      ⟨hrefused, _⟩ | ⟨st, r, s', hst, hopen, hrun, hc⟩
    · rw [hrefused]
    · rw [hrun]
      exact hc.participant hst hunmoved (hparticipant commit c t st rfl hst hopen)
  | mark t => rfl
  | act a => exact absurd rfl (hact a)

end Outcomes

/-- The reported outcome is the stored outcome, for every configuration, every order of calls and
whatever the store and the clock become between them. An owner that ends committed has overlaid the
committed entries with everything staged on its connection, in order, and one that ends otherwise has
left them alone; and so has every other call of the manager. If unexpected rollbacks are reported, a
commit of an owner that was not marked itself succeeds only if it ends committed. -/
theorem reports_stored_outcome (key : ResourceKey) (capabilities : Capabilities) (config : ManagerConfig)
    (contexts : Nat) (store : Store) (calls : List (ManagerCall StoreAct)) :
    let m := storeManager key capabilities config
    let s := m.calledAll (StoreAct.perform key) calls (Session.ofContexts contexts store)
    (∀ commit c t st, s.status? t = some st → st.isCompleted = false → st.newTransaction = true →
      let s' := (m.conclude commit c t s).2
      ∃ h x state, st.holder = some h ∧ s.holder? h = some x ∧
        (s'.status? t).bind Status.completion = some state ∧
        (state = .committed → ∃ conn, s.native.connection? x.resource = some conn ∧
          s'.native.entries = s.native.entries.applyAll conn.log) ∧
        (state ≠ .committed → s'.native.entries = s.native.entries) ∧
        (config.failOnUnexpectedRollback = true → commit = true → st.rollbackOnly = false →
          (m.conclude commit c t s).1 = .ok () → state = .committed)) ∧
    (∀ call, (∀ a, call ≠ .act a) →
      (∀ commit c t st, call = .conclude commit c t → s.status? t = some st → st.isCompleted = false →
        st.newTransaction = false) →
      (m.called (StoreAct.perform key) s call).native.entries = s.native.entries) := by
  intro m s
  have hs : Owned s := (Owned.ofContexts contexts store).calledAll calls fun a s => a.steady key s
  clear_value s
  refine ⟨?_, fun call => called_entries call⟩
  intro commit c t st hst hopen hnew s'
  obtain ⟨hsp, h, hh, hlt⟩ := hs.own t st hst hnew
  have hx : s.holder? h = some s.holders[h] := Array.getElem?_eq_getElem hlt
  obtain ⟨r, s₁, hrun, hc⟩ := conclude_spec m commit c hst hopen
  obtain ⟨state, hended, -, hcommitted, hother, hreport⟩ := hc.published hst hnew hsp hh hx
  obtain rfl : s' = s₁ := congrArg Prod.snd hrun
  refine ⟨h, _, state, hh, hx, ?_, hcommitted, hother, fun hfail hcommit hmark hr => ?_⟩
  · rw [hended]; rfl
  · exact hreport hfail hcommit hmark ((congrArg Prod.fst hrun).symm.trans hr)

end Demarcation
