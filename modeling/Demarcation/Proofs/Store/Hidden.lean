/-
Sessions that differ only in what is staged on one connection. What a manager and its client do to
other connections does not depend on it: they do the same in both sessions, which then differ no more
than before.
-/
import Demarcation.Proofs.Store.Connections
import Demarcation.Proofs.Store.Restaging

namespace Demarcation

open Session Manager

variable {α β : Type}

/-! ## Managers that do not see the log -/

namespace Manager

variable {m : Manager Store ConnectionId Savepoint} {c : ContextIndex} {d : Definition} {k : ConnectionId}
  {s s' : Session Store ConnectionId Savepoint} {st : Status Savepoint} {t : StatusId} {commit : Bool}

/-- The manager without the operations that depend on what is staged on a connection. -/
def blind (m : Manager Store ConnectionId Savepoint) (k : ConnectionId) : Manager Store ConnectionId Savepoint :=
  { m with backend := m.backend.blind k }

theorem callOn_congr {h : HolderId} {x : Holder ConnectionId} {op op' : ConnectionId → Native Store β}
    (hx : s.holder? h = some x) (hop : op x.resource = op' x.resource) (fault : Failure → TransactionError) :
    (callOn h op fault : Attempt Store ConnectionId Savepoint _ _) s = callOn h op' fault s := by
  rw [callOn_of_holder hx, callOn_of_holder hx, hop]

/-- Opening a scope looks at what is staged only for a nested one, on the connection of the transaction that is
bound. -/
theorem getTransaction_blind
    (hother : d.propagation = .nested → ∀ h x, s.bound c m.backend.key = some h → s.holder? h = some x →
      x.resource ≠ k) :
    (m.blind k).getTransaction c d s = m.getTransaction c d s := by
  obtain ⟨r, hfind, hlook⟩ := find_spec s c m.backend.kind m.backend.key
  have hcur : m.currentHolder c s = (r.mapError .registry, s.purge c m.backend.key) := by
    unfold currentHolder
    rw [attempt_adapt, hfind]
  have hcur' : (m.blind k).currentHolder c s = (r.mapError .registry, s.purge c m.backend.key) := hcur
  unfold getTransaction
  cases hlook with
  | foreign e => rw [attempt_bind_error hcur, attempt_bind_error hcur']
  | unbound hb =>
    rw [attempt_bind_ok hcur, attempt_bind_ok hcur']
    rfl
  | @live h x hb hx _ _ =>
    rw [attempt_bind_ok hcur, attempt_bind_ok hcur']
    dsimp only
    unfold enterExisting
    cases hp : d.propagation with
    | nested =>
      -- a savepoint is taken of the log of what is bound
      have hne : x.resource ≠ k := by
        have hsame := purge_of_bound hb
        rw [hsame] at hb hx
        exact hother hp h x hb hx
      have hcall := callOn_congr hx (show (m.blind k).backend.createSavepoint x.resource = _ from if_neg hne)
        (.creationFailed "could not create savepoint for nested transaction")
      dsimp only
      rw [show (m.blind k).config = m.config from rfl,
        show (m.blind k).backend.capabilities = m.backend.capabilities from rfl]
      split
      · rfl
      · split
        · rfl
        · rw [attempt_bind, attempt_bind, hcall]
    | _ => rfl

/-! ### Completing scopes of other transactions -/

theorem complete_congr {op op' : ConnectionId → Native Store Unit} (hop : ∀ r, r ≠ k → op r = op' r)
    (hk : s.resource? st.holder ≠ some k) (text : String) : complete st op text s = complete st op' text s := by
  have happ : s.applied st.holder op = s.applied st.holder op' := by
    unfold Session.applied
    unfold Session.resource? at hk
    cases hx : st.holder.bind s.holder? with
    | none => rfl
    | some x =>
      rw [hx] at hk
      exact congrFun (hop x.resource fun heq => hk (congrArg some heq)) s.native
  rw [complete_eq, complete_eq, happ]

theorem conclude_blind (hst : s.status? t = some st) (hopen : st.isCompleted = false)
    (hk : s.resource? st.holder ≠ some k) : (m.blind k).conclude commit c t s = m.conclude commit c t s := by
  -- all operations of the work are on the connection of the scope's own transaction
  have hwork : (m.blind k).work commit st s = m.work commit st s := by
    have hcommit : (m.blind k).commitWork st s = m.commitWork st s := by
      unfold commitWork
      cases st.savepoint with
      | some sp => rfl
      | none =>
        dsimp only
        split
        · have hnative : complete st (m.blind k).backend.commit "could not commit native transaction" s =
              complete st m.backend.commit "could not commit native transaction" s :=
            complete_congr (fun r hr => if_neg hr) hk _
          unfold commitNative
          rw [step_bind, step_bind, hnative]
          rfl
        · rfl
    have hrollback : (m.blind k).rollbackWork st s = m.rollbackWork st s := by
      unfold rollbackWork
      cases st.savepoint with
      | none => rfl
      | some sp =>
        have hnative : complete st ((m.blind k).backend.rollbackToSavepoint · sp) "could not roll back to savepoint" s =
            complete st (m.backend.rollbackToSavepoint · sp) "could not roll back to savepoint" s :=
          complete_congr (fun r hr => if_neg hr) hk _
        show (m.blind k).rollbackToSavepoint st sp s = m.rollbackToSavepoint st sp s
        unfold rollbackToSavepoint
        rw [step_bind, step_bind, hnative]
        rfl
    unfold work
    rw [hcommit, hrollback]
  rw [conclude_open hst hopen, conclude_open hst hopen, hwork]
  rfl

theorem blind_mirrored (key : ResourceKey) (capabilities : Capabilities) (config : ManagerConfig) (k : ConnectionId) :
    ((storeManager key capabilities config).blind k).Mirrored (unstaged k)
      ((storeManager key capabilities config).blind k) := ⟨Store.backend_blind key capabilities k, rfl⟩

end Manager

/-! ## Sessions that differ in what is staged on one connection -/

namespace Session

variable {k : ConnectionId} {s s' : Session Store ConnectionId Savepoint}

theorem holder?_unstaged (s : Session Store ConnectionId Savepoint) (k : ConnectionId) (h : HolderId) :
    (s.seen (unstaged k)).holder? h = s.holder? h := by
  rw [holder?_seen]
  cases s.holder? h <;> rfl

/-- The sessions differ at most in what is staged on a connection. -/
def SameBut (k : ConnectionId) (s s' : Session Store ConnectionId Savepoint) : Prop :=
  s'.seen (unstaged k) = s.seen (unstaged k)

namespace SameBut

theorem restage (s : Session Store ConnectionId Savepoint) (k : ConnectionId) (log : List Write) :
    SameBut k s (s.withNative (s.native.restage k log)) :=
  congrArg (s.seen (unstaged k)).withNative (s.native.restage_restage k log [])

variable (hs : SameBut k s s')
include hs

theorem seen : s'.seen (unstaged k) = s.seen (unstaged k) := hs

theorem holder? (h : HolderId) : s'.holder? h = s.holder? h := by
  rw [← holder?_unstaged s' k, ← holder?_unstaged s k, hs.seen]

theorem status? (t : StatusId) : s'.status? t = s.status? t := by
  show (s'.seen (unstaged k)).status? t = (s.seen (unstaged k)).status? t
  rw [hs.seen]

theorem bound (c : ContextIndex) (key : ResourceKey) : s'.bound c key = s.bound c key := by
  show (s'.seen (unstaged k)).bound c key = (s.seen (unstaged k)).bound c key
  rw [hs.seen]

theorem resource? (h : Option HolderId) : s'.resource? h = s.resource? h := by
  unfold Session.resource?
  cases h with
  | none => rfl
  | some h => rw [Option.bind_some, Option.bind_some, hs.holder?]

theorem withNative (f : Store → Store) (hf : ∀ n, f (n.restage k []) = (f n).restage k []) :
    SameBut k (s.withNative (f s.native)) (s'.withNative (f s'.native)) := by
  have hnative : s'.native.restage k [] = s.native.restage k [] := congrArg Session.native hs.seen
  show (s'.seen (unstaged k)).withNative ((f s'.native).restage k []) =
    (s.seen (unstaged k)).withNative ((f s.native).restage k [])
  rw [hs.seen, ← hf, ← hf, hnative]

/-- What does not see the log, as far as it is called here, does the same in both sessions. -/
theorem of_mirrored {x y : Step Store ConnectionId Savepoint α} (hy : Mirrored (unstaged k) y y)
    (hx : y s = x s) (hx' : y s' = x s') : (x s').1 = (x s).1 ∧ SameBut k (x s).2 (x s').2 := by
  -- `y` does in both sessions what it does in the one that both are seen as
  have hpair := (hy s').symm.trans ((congrArg y hs.seen).trans (hy s))
  rw [hx, hx'] at hpair
  exact Prod.mk.inj hpair

end SameBut

end Session

section Calls

variable {key : ResourceKey} {k : ConnectionId} {s s' : Session Store ConnectionId Savepoint} (hs : SameBut k s s')
  (capabilities : Capabilities) (config : ManagerConfig) (c : ContextIndex)
include hs

theorem Session.SameBut.getTransaction (d : Definition)
    (hother : d.propagation = .nested → ∀ h x, s.bound c key = some h → s.holder? h = some x → x.resource ≠ k) :
    let m := storeManager key capabilities config
    (m.getTransaction c d s').1 = (m.getTransaction c d s).1 ∧
      SameBut k (m.getTransaction c d s).2 (m.getTransaction c d s').2 := by
  refine hs.of_mirrored ((blind_mirrored key capabilities config k).getTransaction c d) (getTransaction_blind hother)
    (getTransaction_blind fun hp h x hb hx => ?_)
  rw [hs.bound] at hb
  rw [hs.holder?] at hx
  exact hother hp h x hb hx

theorem Session.SameBut.conclude {t : StatusId} {st : Status Savepoint} (hst : s.status? t = some st)
    (hopen : st.isCompleted = false) (hk : s.resource? st.holder ≠ some k) (commit : Bool) :
    let m := storeManager key capabilities config
    SameBut k (m.conclude commit c t s).2 (m.conclude commit c t s').2 := by
  refine (hs.of_mirrored ((blind_mirrored key capabilities config k).conclude commit c t)
    (conclude_blind hst hopen hk) (conclude_blind ((hs.status? t).trans hst) hopen ?_)).2
  rw [hs.resource?]
  exact hk

end Calls

/-! ## What a client does -/

namespace StoreSite

variable {key : ResourceKey} {c : ContextIndex} {k : ConnectionId}

theorem timeToLive_mirrored (h : HolderId) : Session.Mirrored (unstaged k)
    (timeToLive h : Attempt Store ConnectionId Savepoint _ _) (timeToLive h) := by
  intro s
  unfold timeToLive
  rw [holder?_unstaged]
  cases s.holder? h with
  | none => rfl
  | some x =>
    have hset : ∀ y : Holder ConnectionId, (s.modifyHolder h fun _ => y).seen (unstaged k) =
        (s.seen (unstaged k)).modifyHolder h fun _ => y := fun y => seen_modifyHolder (unstaged k) s h fun _ => rfl
    exact Prod.ext rfl (hset (x.timeToLive s.now).2).symm

theorem connectAlone_mirrored (key : ResourceKey) (k : ConnectionId) : Session.Mirrored (unstaged k)
    ((whole key).connectAlone : Attempt Store ConnectionId Savepoint _ _) (whole key).connectAlone := by
  intro s
  have hconnect := s.native.restage_connect false true .unspecified k
  show (Except.ok (Access.autoCommit ((s.native.restage k []).connect false true .unspecified).1),
    (s.seen (unstaged k)).withNative ((s.native.restage k []).connect false true .unspecified).2) = _
  rw [hconnect]
  rfl

/-- Which connection a context works on does not depend on what is staged. -/
theorem access_mirrored (key : ResourceKey) (c : ContextIndex) (k : ConnectionId) : Session.Mirrored (unstaged k)
    ((whole key).access c : Attempt Store ConnectionId Savepoint _ _) ((whole key).access c) := by
  unfold access
  refine ((Session.Mirrored.find (unstaged k) c kind key).adapt _).bind fun h => ?_
  cases h with
  | none => exact connectAlone_mirrored key k
  | some h =>
    refine ((timeToLive_mirrored h).adapt _).bind fun _ s => ?_
    rw [attempt_bind, attempt_bind, attempt_get, attempt_get]
    dsimp only
    rw [holder?_unstaged]
    cases s.holder? h with
    | none => exact connectAlone_mirrored key k s
    | some x => rfl

theorem perform_mirrored {op : Store → Except StorageError (α × Store)}
    (hop : ∀ n, op (n.restage k []) = (op n).map fun q => (q.1, q.2.restage k [])) : Session.Mirrored (unstaged k)
    ((whole key).perform op : Attempt Store ConnectionId Savepoint _ _) ((whole key).perform op) := by
  intro s
  unfold perform
  rw [show (whole key).store (s.seen (unstaged k)) = ((whole key).store s).restage k [] from rfl, hop]
  cases op ((whole key).store s) <;> rfl

theorem leave_unstaged (a : Access) (s : Session Store ConnectionId Savepoint) :
    (whole key).leave a (s.seen (unstaged k)) = ((whole key).leave a s).seen (unstaged k) := by
  cases a with
  | transactional h j => rfl
  | autoCommit j => exact congrArg (s.seen (unstaged k)).withNative (s.native.close_restage j k)

/-- An operation on the connection of a context, which is another one. -/
theorem through_sameBut {op : ConnectionId → Store → Except StorageError (α × Store)}
    {s s' : Session Store ConnectionId Savepoint} (hs : SameBut k s s')
    (hop : ∀ j, j ≠ k → ∀ n, op j (n.restage k []) = (op j n).map fun q => (q.1, q.2.restage k []))
    (haccess : ∀ a, ((whole key).access c s).1 = .ok a → a.connection ≠ k) :
    ((whole key).through c op s').1 = ((whole key).through c op s).1 ∧
      SameBut k ((whole key).through c op s).2 ((whole key).through c op s').2 := by
  obtain ⟨hanswer, hasked⟩ := hs.of_mirrored (access_mirrored key c k) rfl rfl
  unfold through
  rw [attempt_bind, attempt_bind]
  rcases hrun : (whole key).access c s with ⟨r, s₁⟩
  rcases hrun' : (whole key).access c s' with ⟨r', s₁'⟩
  rw [hrun, hrun'] at hanswer hasked
  rw [hrun] at haccess
  obtain rfl : r' = r := hanswer
  cases r' with
  | error e => exact ⟨rfl, hasked⟩
  | ok a =>
    have hdone : Session.Mirrored (unstaged k)
        ((whole key).perform (op a.connection) : Attempt Store ConnectionId Savepoint _ _)
        ((whole key).perform (op a.connection)) := perform_mirrored (hop a.connection (haccess a rfl))
    refine hasked.of_mirrored (hdone.observe.bind fun r => ?_) rfl rfl
    refine (Session.Mirrored.modified fun s => (leave_unstaged a s).symm).bind fun _ => ?_
    cases r with
    | ok v => exact .ok v
    | error e => exact .throw e

end StoreSite

theorem StagingAct.sameBut {key : ResourceKey} {c : ContextIndex} {k : ConnectionId}
    {s s' : Session Store ConnectionId Savepoint} (hs : SameBut k s s') (a : StagingAct)
    (hdirect : ∀ d, a ≠ .direct k d)
    (haccess : ∀ a, ((StoreSite.whole key).access c s).1 = .ok a → a.connection ≠ k) :
    SameBut k (a.perform key c s) (a.perform key c s') := by
  cases a with
  | data d => exact (StoreSite.through_sameBut hs (fun j hj n => Store.data_restage hj d) haccess).2
  | direct j d =>
    have hj : j ≠ k := by
      rintro rfl
      exact hdirect d rfl
    have hdone : Session.Mirrored (unstaged k)
        ((StoreSite.whole key).perform (d.run j) : Attempt Store ConnectionId Savepoint _ _)
        ((StoreSite.whole key).perform (d.run j)) := StoreSite.perform_mirrored fun n => Store.data_restage hj d
    exact (hs.of_mirrored hdone rfl rfl).2
  | connect readOnly autoCommit isolation =>
    have hconnect : ∀ n : Store, ((n.restage k []).connect readOnly autoCommit isolation).2 =
        (n.connect readOnly autoCommit isolation).2.restage k [] := by
      intro n
      rw [Store.restage_connect]
    exact hs.withNative (fun n => (n.connect readOnly autoCommit isolation).2) hconnect
  | store step =>
    have hstep : ∀ n : Store, (step.run (n.restage k [])).2 = (step.run n).2.restage k [] := by
      intro n
      cases step <;> rfl
    exact hs.withNative (fun n => (step.run n).2) hstep
  | wait now => exact congrArg (fun s : Session Store ConnectionId Savepoint => { s with now }) hs.seen

end Demarcation
