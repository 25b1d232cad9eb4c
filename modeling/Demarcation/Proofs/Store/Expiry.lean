/-
What becomes of a transaction that was found to have timed out. All that is left of it is the mark that
the look at its deadline made, so that the transaction is committed natively exactly if a nested scope
has taken the mark back since.
-/
import Demarcation.Proofs.Marks
import Demarcation.Proofs.Store.Staging
import Demarcation.Proofs.Store.Outcome

namespace Demarcation

open Session Manager

/-! ## How often the native commit was called -/

namespace Store

variable {α : Type} {p : Primitive}

/-- How often the native commit was called. -/
def commits (s : Store) : Nat := s.stats.count .commit

theorem commits_counted (s : Store) (p : Primitive) :
    (s.counted p).commits = s.commits + if p = .commit then 1 else 0 := by
  show (p :: s.stats.calls).count .commit = s.stats.calls.count .commit + _
  rw [List.count_cons]
  cases p <;> rfl

theorem commits_primitive {op : Native Store α} (hop : ∀ s, (op s).2.stats = s.stats) (s : Store) :
    (primitive p op s).2.commits = s.commits + if p = .commit then 1 else 0 := by
  rw [← commits_counted]
  rcases primitive_cases p op s with h | h
  · rw [h]
  · rw [h]
    exact congrArg (CallCounts.count · .commit) (hop _)

theorem commits_primitive_of_ne (hp : p ≠ .commit) {op : Native Store α} (hop : ∀ s, (op s).2.stats = s.stats)
    (s : Store) : (primitive p op s).2.commits = s.commits := by
  rw [commits_primitive hop, if_neg hp, Nat.add_zero]

theorem stats_changing {op : Store → Except StorageError Store} (hop : ∀ s s', op s = .ok s' → s'.stats = s.stats)
    (s : Store) : (changing op s).2.stats = s.stats := by
  unfold changing
  cases h : op s with
  | error e => rfl
  | ok s' => exact hop s s' h

section Stats

variable {s s' : Store} {c : ConnectionId}

theorem stats_commit (h : s.commit c = .ok s') : s'.stats = s.stats := by
  obtain ⟨conn, _, hs⟩ := except_bind_ok h
  cases hs; rfl

theorem stats_rollback (h : s.rollback c = .ok s') : s'.stats = s.stats := by
  obtain ⟨conn, _, hs⟩ := except_bind_ok h
  cases hs; rfl

theorem stats_rollbackTo {sp : Savepoint} (h : s.rollbackTo c sp = .ok s') : s'.stats = s.stats := by
  obtain ⟨_, _, h⟩ := except_bind_ok h
  obtain ⟨conn, _, h⟩ := except_bind_ok h
  split at h <;> cases h
  rfl

theorem stats_savepoint {sp : Savepoint} (h : s.savepoint c = .ok (sp, s')) : s'.stats = s.stats := by
  obtain ⟨conn, _, hs⟩ := except_bind_ok h
  cases hs; rfl

theorem stats_close (s : Store) (c : ConnectionId) : (s.close c).stats = s.stats := by
  unfold close
  split
  · rfl
  · split <;> rfl

end Stats

variable (key : ResourceKey) (capabilities : Capabilities)

theorem backend_start_commits (d : Definition) (s : Store) :
    ((backend key capabilities).start d s).2.commits = s.commits :=
  commits_primitive_of_ne (by decide) (fun _ => rfl) s

theorem backend_rollback_commits (c : ConnectionId) (s : Store) :
    ((backend key capabilities).rollback c s).2.commits = s.commits :=
  commits_primitive_of_ne (by decide) (fun s => stats_changing (fun _ _ => stats_rollback) s) s

theorem backend_cleanup_commits (c : ConnectionId) (s : Store) :
    ((backend key capabilities).cleanup c s).2.commits = s.commits :=
  commits_primitive_of_ne (by decide) (fun s => stats_close s c) s

theorem backend_commit_commits (c : ConnectionId) (s : Store) :
    ((backend key capabilities).commit c s).2.commits = s.commits + 1 :=
  commits_primitive (fun s => stats_changing (fun _ _ => stats_commit) s) s

/-- No primitive but the native commit counts as one. -/
theorem commits_unmoved : (backend key capabilities).Unmoved commits := by
  refine ⟨⟨?_, fun r => commits_primitive_of_ne (by decide) fun _ => rfl,
    fun r => commits_primitive_of_ne (by decide) fun _ => rfl, fun r => ?_⟩, fun r sp => ?_, fun r sp => ?_⟩
  · intro d s f s' h
    exact (congrArg (·.2.commits) h).symm.trans (backend_start_commits key capabilities d s)
  · refine commits_primitive_of_ne (by decide) fun s => ?_
    split
    · rename_i h; exact stats_savepoint h
    · rfl
  · exact commits_primitive_of_ne (by decide) fun s => stats_changing (fun _ _ => stats_rollbackTo) s
  · refine commits_primitive_of_ne (by decide) fun s => ?_
    split <;> rfl

end Store

section Commits

variable {key : ResourceKey} {capabilities : Capabilities} {config : ManagerConfig} {c : ContextIndex}
  {s s' : Session Store ConnectionId Savepoint} {commit : Bool} {t : StatusId} {st : Status Savepoint}
  {r : Except TransactionError Unit} {h : HolderId} {x : Holder ConnectionId}

/-- Completing an owner calls the native commit once if its work is to be kept, and not at all otherwise. -/
theorem Manager.Concluding.commits
    (hst : s.status? t = some st) (hc : Concluding (storeManager key capabilities config) commit c t st s r s')
    (hnew : st.newTransaction = true) (hsp : st.savepoint = none) (hh : st.holder = some h)
    (hx : s.holder? h = some x) :
    s'.native.commits = s.native.commits + if keepsWork commit st s then 1 else 0 := by
  obtain ⟨state, outcome, s₁, r₁, s₂, hwork, hrel, hn, -⟩ :=
    hc.outline hst (Store.commits_unmoved key capabilities).toUntouched
  have hreleased : s₂.native.commits = s₁.native.commits :=
    hrel.observed (φ := Store.commits) (Store.backend_cleanup_commits key capabilities)
  rw [hn, hreleased]
  rcases hwork.observed (φ := Store.commits) (Store.backend_rollback_commits key capabilities) hnew hsp with
    ⟨hkeep, hsame, _⟩ | ⟨hkeep, hcalled, _⟩
  · rw [hsame, hkeep]; rfl
  · rw [hcalled, hkeep, hh, applied_of_holder hx, if_pos rfl]
    exact Store.backend_commit_commits key capabilities x.resource s.native

/-- No call of a manager but the completion of an owner calls the native commit. -/
theorem called_commits {α : Type}
    {act : α → Session Store ConnectionId Savepoint → Session Store ConnectionId Savepoint}
    (call : ManagerCall α) (hact : ∀ a, call ≠ .act a)
    (hparticipant : ∀ commit c t st, call = .conclude commit c t → s.status? t = some st →
      st.isCompleted = false → st.newTransaction = false) :
    ((storeManager key capabilities config).called act s call).native.commits = s.native.commits := by
  have hunmoved := Store.commits_unmoved key capabilities
  cases call with
  | enter c d =>
    obtain ⟨r, s', hrun, houtline⟩ := getTransaction_outline (storeManager key capabilities config) c d s
      hunmoved.toUntouched
    show ((storeManager key capabilities config).getTransaction c d s).2.native.commits = _
    rw [hrun]
    cases houtline with
    | failed _ hn => exact hn
    | entered _ hn => exact hn
    | begun _ hn hstart =>
      have hbegin := Store.backend_start_commits key capabilities d
      exact ((congrArg (·.2.commits) hstart).symm.trans (hbegin _)).trans hn
  | conclude commit c t =>
    show ((storeManager key capabilities config).conclude commit c t s).2.native.commits = _
    rcases conclude_cases (storeManager key capabilities config) commit c t s with
      ⟨hrefused, _⟩ | ⟨st, r, s', hst, hopen, hrun, hc⟩
    · rw [hrefused]
    · rw [hrun]
      exact hc.participant hst hunmoved (hparticipant commit c t st rfl hst hopen)
  | mark t => rfl
  | act a => exact absurd rfl (hact a)

end Commits

/-! ## Looking at deadlines -/

/-- What a client of a store does between its calls of the manager, if it looks at deadlines too. -/
inductive DeadlineAct
  | store (a : StoreAct)
  /-- The time that a transaction has left is asked for. -/
  | timeToLive (h : HolderId)

namespace DeadlineAct

variable {key : ResourceKey} {a : DeadlineAct} {h : HolderId} {s : Session Store ConnectionId Savepoint}

def perform (key : ResourceKey) (a : DeadlineAct) (s : Session Store ConnectionId Savepoint) :
    Session Store ConnectionId Savepoint :=
  match a with
  | store a => a.perform key s
  | timeToLive h => (StoreSite.timeToLive h s).2

/-- The act fails because the deadline of a holder's transaction is over. -/
def TimesOut (key : ResourceKey) (h : HolderId) (s : Session Store ConnectionId Savepoint) : DeadlineAct → Prop
  | store (.alter _ _) => False
  | store (.access c) => s.bound c key = some h ∧
    ∃ late, ((StoreSite.whole key).access c s).1 = .error (.transaction (.timedOut late))
  | timeToLive k => k = h ∧
    ∃ late, (StoreSite.timeToLive h s : Except TransactionError _ × _).1 = .error (.timedOut late)

theorem steady (key : ResourceKey) (a : DeadlineAct) (s : Session Store ConnectionId Savepoint) :
    Steady s (a.perform key s) := by
  cases a with
  | store a => exact a.steady key s
  | timeToLive h =>
    show Steady s (StoreSite.timeToLive h s).2
    cases hx : s.holder? h with
    | none =>
      unfold StoreSite.timeToLive
      rw [hx]; exact .refl s
    | some x =>
      obtain ⟨r, y, hrun, hy⟩ := StoreSite.timeToLive_spec hx
      rw [hrun]
      exact StoreSite.alike_of_timed (fun _ => rfl) hx hy

theorem keeps_marks (key : ResourceKey) (a : DeadlineAct) (s : Session Store ConnectionId Savepoint)
    (k : HolderId) (hm : s.marked k = true) : (a.perform key s).marked k = true := by
  cases a with
  | store a =>
    cases a with
    | alter store now => exact hm
    | access c =>
      obtain ⟨r, s', hrun, haccess⟩ := StoreSite.access_spec key c s
      show ((StoreSite.whole key).access c s).2.marked k = true
      rw [hrun]
      refine haccess.onward.marked k ?_
      unfold Session.marked
      rw [holder?_purge]; exact hm
  | timeToLive h =>
    show (StoreSite.timeToLive h s).2.marked k = true
    cases hx : s.holder? h with
    | none =>
      unfold StoreSite.timeToLive
      rw [hx]; exact hm
    | some x =>
      obtain ⟨r, y, hrun, hy⟩ := StoreSite.timeToLive_spec hx
      rw [hrun]
      exact StoreSite.marked_of_timed hx hy k hm

end DeadlineAct

/-- A transaction that is found to have timed out is marked. -/
theorem StoreSite.marked_of_late {s s' : Session Store ConnectionId Savepoint} {h : HolderId} {late : Duration}
    (hrun : timeToLive h s = (.error (.timedOut late), s')) : s'.marked h = true := by
  unfold timeToLive at hrun
  cases hx : s.holder? h with
  | none => rw [hx] at hrun; cases hrun
  | some x =>
    rw [hx] at hrun
    dsimp only at hrun
    unfold Holder.timeToLive at hrun
    split at hrun
    · cases hrun
    · split at hrun
      · cases hrun
        rw [marked_modifyHolder hx, if_pos rfl]; rfl
      · cases hrun

theorem StoreSite.marked_of_late_access {key : ResourceKey} {c : ContextIndex}
    {s : Session Store ConnectionId Savepoint} {h : HolderId} {late : Duration} (hb : s.bound c key = some h)
    (hlate : ((whole key).access c s).1 = .error (.transaction (.timedOut late))) :
    ((whole key).access c s).2.marked h = true := by
  obtain ⟨r, hfind, hlook⟩ := find_spec s c kind key
  have hcur : ((find c kind (whole key).key).adapt (StorageErrorFrom.transaction ∘ TransactionErrorFrom.registry) :
      Attempt Store ConnectionId Savepoint StorageError _) s =
      (r.mapError (StorageErrorFrom.transaction ∘ TransactionErrorFrom.registry), s.purge c key) := by
    rw [attempt_adapt]
    show ((find c kind key s).1.mapError _, (find c kind key s).2) = _
    rw [hfind]
  unfold access at hlate ⊢
  cases hlook with
  | foreign e => rw [attempt_bind_error hcur] at hlate; cases hlate
  | unbound => rw [attempt_bind_ok hcur] at hlate; cases hlate
  | @live k x hb' hx hl hk =>
    rw [attempt_bind_ok hcur] at hlate ⊢
    -- the holder that is found is the one that was bound
    obtain rfl : k = h := by
      have hpurged : (s.purge c key).bound c key = s.bound c key ∨ (s.purge c key).bound c key = none := by
        unfold purge
        rw [hb]
        dsimp only
        split
        · exact .inr (by rw [bound_dropBinding]; simp)
        · exact .inl hb
      rcases hpurged with hsame | hnone
      · exact Option.some.inj (hb'.symm.trans (hsame.trans hb))
      · cases hb'.symm.trans hnone
    dsimp only at hlate ⊢
    rcases htime : timeToLive k (s.purge c key) with ⟨e | left, s₁⟩
    · have hadapt : ((timeToLive k).adapt StorageErrorFrom.transaction :
          Attempt Store ConnectionId Savepoint StorageError _) (s.purge c key) = (.error (.transaction e), s₁) := by
        rw [attempt_adapt, htime]; rfl
      rw [attempt_bind_error hadapt] at hlate ⊢
      cases hlate
      exact marked_of_late htime
    · have hadapt : ((timeToLive k).adapt StorageErrorFrom.transaction :
          Attempt Store ConnectionId Savepoint StorageError _) (s.purge c key) = (.ok left, s₁) := by
        rw [attempt_adapt, htime]; rfl
      rw [attempt_bind_ok hadapt, attempt_bind, attempt_get] at hlate
      dsimp only at hlate
      rcases hconn : (s₁.holder? k).bind fun holder => (whole key).resource.unwrap holder.resource with _ | conn <;>
        rw [hconn] at hlate <;> cases hlate

theorem DeadlineAct.TimesOut.marked {key : ResourceKey} {a : DeadlineAct} {h : HolderId}
    {s : Session Store ConnectionId Savepoint} (ht : a.TimesOut key h s) : (a.perform key s).marked h = true := by
  cases a with
  | store a =>
    cases a with
    | alter => exact ht.elim
    | access c =>
      obtain ⟨hb, late, hlate⟩ := ht
      exact StoreSite.marked_of_late_access hb hlate
  | timeToLive k =>
    obtain ⟨rfl, late, hlate⟩ := ht
    exact StoreSite.marked_of_late (Prod.ext hlate rfl)

/-! ## After the deadline -/

/-- When a transaction that was found to have timed out is committed natively all the same, for every
configuration, every order of calls in any contexts, and whatever the store and the clock become between
them. Completing its owner calls the native commit exactly if a commit is asked for, the owner's own
status carries no request for a rollback, and a nested scope has taken the mark of the transaction back
by returning to its savepoint, with no mark since. Otherwise nothing is committed or published, and no call
but the completion of an owner ever calls the native commit. -/
theorem expired_commits_iff_forgiven (key : ResourceKey) (capabilities : Capabilities) (config : ManagerConfig)
    (contexts : Nat) (store : Store) (before : List (ManagerCall DeadlineAct)) (a : DeadlineAct) (h : HolderId)
    (later : List (ManagerCall DeadlineAct)) :
    let m := storeManager key capabilities config
    let act := DeadlineAct.perform key
    let s₀ := m.calledAll act before (Session.ofContexts contexts store)
    a.TimesOut key h s₀ →
    let s := m.calledAll act later (act a s₀)
    (∀ commit c t st, s.status? t = some st → st.isCompleted = false → s.owned? t = some h →
      let s' := (m.conclude commit c t s).2
      let commits := commit = true ∧ st.rollbackOnly = false ∧ m.Forgiven act h (act a s₀) later
      (commits → s'.native.commits = s.native.commits + 1) ∧
      (¬ commits → s'.native.commits = s.native.commits ∧ s'.native.entries = s.native.entries)) ∧
    ∀ call, (∀ a, call ≠ .act a) →
      (∀ commit c t st, call = .conclude commit c t → s.status? t = some st → st.isCompleted = false →
        st.newTransaction = false) →
      (m.called act s call).native.commits = s.native.commits := by
  intro m act s₀ htimes s
  refine ⟨?_, fun call => called_commits call⟩
  have hact : ∀ a s, Steady s (act a s) := DeadlineAct.steady key
  have howned₀ : Owned s₀ := (Owned.ofContexts contexts store).calledAll before hact
  have howned₁ : Owned (act a s₀) := howned₀.steady (hact a s₀)
  have howned : Owned s := howned₁.calledAll later hact
  intro commit c t st hst hopen hown s' commits
  obtain ⟨hnew, hh⟩ := Owned.holder_of_owned hst hown
  obtain ⟨hsp, _⟩ := howned.own t st hst hnew
  have hlt : h < s.holders.size := howned.range hown
  have hx : s.holder? h = some s.holders[h] := Array.getElem?_eq_getElem hlt
  -- the owner of the transaction is the one that it had when it timed out
  obtain ⟨u, hu⟩ := howned₁.each h (marked_lt htimes.marked)
  obtain rfl : u = t := howned.unique u t h (owned?_calledAll hact hu later) hown
  have hforgiven : s.marked h = false ↔ m.Forgiven act h (act a s₀) later :=
    unmarked_iff_forgiven hact (DeadlineAct.keeps_marks key) howned₁ htimes.marked hu later hst hopen
  have hkeeps : keepsWork commit st s = true ↔ commits := by
    rw [keepsWork_of_holder hh hx, hforgiven]
  obtain ⟨r, s₂, hrun, hc⟩ := conclude_spec m commit c hst hopen
  obtain rfl : s' = s₂ := congrArg Prod.snd hrun
  have hcount := hc.commits hst hnew hsp hh hx
  obtain ⟨state, -, hstate, -, hkept, -⟩ := hc.published hst hnew hsp hh hx
  constructor
  · intro hcommits
    rw [hcount, if_pos (hkeeps.2 hcommits)]
  · intro hnot
    have hundone : ¬ keepsWork commit st s = true := fun hk => hnot (hkeeps.1 hk)
    rw [hcount, if_neg hundone]
    exact ⟨rfl, hkept fun hcommitted => hundone (hstate.1 hcommitted).1⟩

/-- By how much the deadline was exceeded, if that is why an access failed. -/
def timedOutBy? {α : Type} : Except StorageError α → Option Duration
  | .error (.transaction (.timedOut late)) => some late
  | _ => none

theorem error_of_timedOutBy? {α : Type} {r : Except StorageError α} {late : Duration}
    (h : timedOutBy? r = some late) : r = .error (.transaction (.timedOut late)) := by
  unfold timedOutBy? at h
  split at h <;> cases h
  rfl

/-- A transaction that may take no time at all has begun, a nested scope is opened in it, and the connection
of the context is asked for. -/
def expiring : List (ManagerCall DeadlineAct) :=
  [.enter 0 { timeout := .after .zero }, .enter 0 { propagation := .nested }]

def expired : Session Store ConnectionId Savepoint :=
  (storeManager ⟨7⟩ .all {}).calledAll (DeadlineAct.perform ⟨7⟩) expiring (Session.ofContexts 1 { key := ⟨7⟩ })

/-- The nested scope is rolled back, and the owner's commit calls the native one. -/
theorem expired_commits_after_nested :
    let late := (DeadlineAct.store (.access 0)).perform ⟨7⟩ expired
    let s := (storeManager ⟨7⟩ .all {}).calledAll (DeadlineAct.perform ⟨7⟩) [.conclude false 0 1] late
    ((storeManager ⟨7⟩ .all {}).conclude true 0 0 s).2.native.commits = s.native.commits + 1 := by
  intro late s
  have hlate : timedOutBy? ((StoreSite.whole ⟨7⟩).access 0 expired).1 = some .zero := by decide +kernel
  have hbound : expired.bound 0 ⟨7⟩ = some 0 := by decide +kernel
  have howner : (s.status? 0).map (fun st => (st.isCompleted, st.newTransaction, st.holder, st.rollbackOnly)) =
      some (false, true, some 0, false) := by decide +kernel
  have hforgiven : (storeManager ⟨7⟩ .all {}).Forgiven (DeadlineAct.perform ⟨7⟩) 0 late [.conclude false 0 1] := by
    refine ⟨[], false, 0, 1, [], rfl, ?_, fun later hlater => ?_⟩
    · have hnested : (late.status? 1).map (fun st => (st.isCompleted, st.holder)) = some (false, some 0) := by
        decide +kernel
      have hback : ((late.status? 1).bind Status.savepoint).map (fun sp => (late.applied (some 0)
          ((storeManager ⟨7⟩ .all {}).backend.rollbackToSavepoint · sp)).1.isOk) = some true := by decide +kernel
      obtain ⟨st, hst, hfields⟩ := Option.map_eq_some_iff.1 hnested
      obtain ⟨hopen, hh⟩ : st.isCompleted = false ∧ st.holder = some 0 := by simpa using hfields
      rw [hst] at hback
      obtain ⟨sp, hsp, hok⟩ := Option.map_eq_some_iff.1 hback
      refine ⟨st, sp, hst, hopen, hh, hsp, rfl, ?_⟩
      show (late.applied (some 0) ((storeManager ⟨7⟩ .all {}).backend.rollbackToSavepoint · sp)).1 = .ok ()
      rcases hop : (late.applied (some 0) ((storeManager ⟨7⟩ .all {}).backend.rollbackToSavepoint · sp)).1 with f | ⟨⟩
      · rw [hop] at hok; cases hok
      · rfl
    · obtain rfl := List.prefix_nil.1 hlater
      decide +kernel
  have htimes : (DeadlineAct.store (.access 0)).TimesOut ⟨7⟩ 0 expired :=
    ⟨hbound, .zero, error_of_timedOutBy? hlate⟩
  obtain ⟨st, hst, hfields⟩ := Option.map_eq_some_iff.1 howner
  obtain ⟨hopen, hnew, hh, hmark⟩ : st.isCompleted = false ∧ st.newTransaction = true ∧ st.holder = some 0 ∧
      st.rollbackOnly = false := by simpa using hfields
  have hown : s.owned? 0 = some 0 := by rw [Owned.owned?_eq hst, hnew, if_pos rfl, hh]
  exact ((expired_commits_iff_forgiven ⟨7⟩ .all {} 1 { key := ⟨7⟩ } expiring (.store (.access 0)) 0
    [.conclude false 0 1] htimes).1 true 0 0 st hst hopen hown).1 ⟨rfl, hmark, hforgiven⟩

/-- The access to the connection fails because the transaction has timed out, and the transaction is
committed natively all the same, after no more than the rollback of the nested scope that was open. -/
theorem expired_commits :
    let late := (DeadlineAct.store (.access 0)).perform ⟨7⟩ expired
    let s := ((storeManager ⟨7⟩ .all {}).conclude false 0 1 late).2
    ((StoreSite.whole ⟨7⟩).access 0 expired).1.isOk = false ∧ late.marked 0 = true ∧
    ((storeManager ⟨7⟩ .all {}).conclude true 0 0 s).1.isOk = true ∧
    ((storeManager ⟨7⟩ .all {}).conclude true 0 0 s).2.native.commits = 1 ∧
    (((storeManager ⟨7⟩ .all {}).conclude true 0 0 s).2.status? 0).bind Status.completion = some .committed := by
  decide +kernel

end Demarcation
