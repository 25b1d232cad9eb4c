/-
Capabilities as gates. What a backend cannot do, or what nesting needs and the configuration forbids, is never
asked for, however late the scope that would ask for it is completed.
-/
import Demarcation.Proofs.Doomed
import Demarcation.Proofs.Exchanges

namespace Demarcation

open Session Manager

variable {σ ρ ς α : Type}

/-! ## What may be asked for -/

/-- Whether scopes may be nested by savepoints. -/
def Manager.savesWork (m : Manager σ ρ ς) : Bool :=
  m.backend.capabilities.savepoints && m.config.nestedTransactionAllowed

namespace Exchange

/-- A savepoint is taken, returned to or released. -/
def onSavepoint : Exchange ρ ς → Bool
  | createSavepoint _ _ | rollbackToSavepoint _ _ _ | releaseSavepoint _ _ _ => true
  | begin _ _ | suspend _ _ | resume _ _ | commit _ _ | rollback _ _ | cleanup _ _ => false

def isBegin : Exchange ρ ς → Bool
  | begin _ _ => true
  | suspend _ _ | resume _ _ | commit _ _ | rollback _ _ | cleanup _ _ | createSavepoint _ _
  | rollbackToSavepoint _ _ _ | releaseSavepoint _ _ _ => false

/-- The capabilities of the backend and the configuration of the manager allow it. -/
structure Allowed (m : Manager σ ρ ς) (q : Exchange ρ ς) : Prop where
  savepoint : q.onSavepoint = true → m.savesWork = true
  isolation : ∀ d a, q = .begin d a → d.isolation = .unspecified ∨ m.backend.capabilities.isolation = true
  timeout : ∀ d a, q = .begin d a → d.timeout = .unspecified ∨ m.backend.capabilities.timeout = true

end Exchange

def ClientWork.performLogged (a : ClientWork σ) (s : Session (Logged σ ρ ς) ρ ς) : Session (Logged σ ρ ς) ρ ς :=
  { s with native := { s.native with state := a.state }, now := a.now }.markWhere a.marks

theorem ClientWork.seen_logged (a : ClientWork σ) (s : Session (Logged σ ρ ς) ρ ς) :
    a.perform (s.seen unlogged) = (a.performLogged s).seen unlogged :=
  (seen_markWhere unlogged { s with native := { s.native with state := a.state }, now := a.now } a.marks).symm

/-- Nothing goes beyond the capabilities: what was asked for, the savepoints and the deadlines. -/
structure Within (m : Manager σ ρ ς) (s : Session (Logged σ ρ ς) ρ ς) : Prop where
  log : ∀ q ∈ s.native.log, q.Allowed m
  savepoints : ∀ t st, s.status? t = some st → st.savepoint.isSome = true → m.savesWork = true
  deadlines : ∀ h x, s.holder? h = some x → x.deadline.isSome = true → m.backend.capabilities.timeout = true

namespace Within

variable {m : Manager σ ρ ς} {s s' : Session (Logged σ ρ ς) ρ ς} {n : Logged σ ρ ς} {h : HolderId}

/-! ## Changes of a session -/

theorem noted (hs : Within m s) {q : Except Failure α → Exchange ρ ς} {op : Native σ α} {a : Except Failure α}
    (hnote : Logged.note q op s.native = (a, n)) (hq : (q a).Allowed m) : Within m (s.withNative n) := by
  refine ⟨fun q' hq' => ?_, hs.savepoints, hs.deadlines⟩
  change q' ∈ n.log at hq'
  rw [Logged.log_of_note hnote, List.mem_append, List.mem_singleton] at hq'
  rcases hq' with hold | rfl
  · exact hs.log q' hold
  · exact hq

theorem applied (hs : Within m s) {q : ρ → Except Failure Unit → Exchange ρ ς} {op : ρ → Native σ Unit}
    {o : Option HolderId} {a : Except Failure Unit} (hq : ∀ r a, (q r a).Allowed m)
    (happ : s.applied o (fun r => Logged.note (q r) (op r)) = (a, n)) : Within m (s.withNative n) := by
  unfold Session.applied at happ
  split at happ
  · cases happ; exact hs
  · exact hs.noted happ (hq _ _)

theorem modifyHolder (hs : Within m s) (h : HolderId) (f : Holder ρ → Holder ρ)
    (hf : ∀ x, (f x).deadline.isSome = true → x.deadline.isSome = true) : Within m (s.modifyHolder h f) := by
  refine ⟨hs.log, hs.savepoints, fun k x hx => ?_⟩
  rw [holder?_modifyHolder] at hx
  split at hx
  · obtain ⟨y, hy, rfl⟩ := Option.map_eq_some_iff.1 hx
    exact fun hd => hs.deadlines k y hy (hf y hd)
  · exact hs.deadlines k x hx

theorem modifyHolderOf (hs : Within m s) (st : Status ς) (f : Holder ρ → Holder ρ)
    (hf : ∀ x, (f x).deadline.isSome = true → x.deadline.isSome = true) : Within m (s.modifyHolderOf st f) := by
  unfold Session.modifyHolderOf
  split
  · exact hs
  · exact hs.modifyHolder _ f hf

theorem modifyStatus (hs : Within m s) (t : StatusId) {f : Status ς → Status ς}
    (hf : ∀ st, (f st).savepoint.isSome = true → st.savepoint.isSome = true) : Within m (s.modifyStatus t f) := by
  refine ⟨hs.log, fun u st hst => ?_, hs.deadlines⟩
  rw [status?_modifyStatus] at hst
  split at hst
  · obtain ⟨st', hst', rfl⟩ := Option.map_eq_some_iff.1 hst
    exact fun hsp => hs.savepoints u st' hst' (hf st' hsp)
  · exact hs.savepoints u st hst

theorem endStatus (hs : Within m s) (t : StatusId) (state : TransactionState) : Within m (s.endStatus t state) :=
  hs.modifyStatus t fun _ => nofun

theorem addStatus (hs : Within m s) {st : Status ς} (hst : st.savepoint.isSome = true → m.savesWork = true) :
    Within m (s.addStatus st).2 := by
  refine ⟨hs.log, fun u st' hst' => ?_, hs.deadlines⟩
  rw [status?_addStatus] at hst'
  split at hst'
  · obtain rfl := Option.some.inj hst'
    exact hst
  · exact hs.savepoints u st' hst'

theorem addHolder (hs : Within m s) {x : Holder ρ}
    (hx : x.deadline.isSome = true → m.backend.capabilities.timeout = true) : Within m (s.addHolder x).2 := by
  refine ⟨hs.log, hs.savepoints, fun k y hy => ?_⟩
  rw [holder?_addHolder] at hy
  split at hy
  · obtain rfl := Option.some.inj hy
    exact hx
  · exact hs.deadlines k y hy

theorem dropBinding (hs : Within m s) (c : ContextIndex) (key : ResourceKey) : Within m (s.dropBinding c key) :=
  ⟨hs.log, hs.savepoints, hs.deadlines⟩

theorem putBinding (hs : Within m s) (c : ContextIndex) (key : ResourceKey) (h : HolderId) :
    Within m (s.putBinding c key h) := ⟨hs.log, hs.savepoints, hs.deadlines⟩

theorem purge (hs : Within m s) (c : ContextIndex) (key : ResourceKey) : Within m (s.purge c key) := by
  unfold Session.purge
  split
  · exact hs
  · split
    · exact hs.dropBinding c key
    · exact hs

theorem detach (hs : Within m s) (c : ContextIndex) (key : ResourceKey) (h : HolderId) :
    Within m (s.detach c key h) := (hs.dropBinding c key).modifyHolder h _ fun _ => id

theorem attach (hs : Within m s) (c : ContextIndex) (key : ResourceKey) (h : HolderId) :
    Within m (s.attach c key h) := (hs.putBinding c key h).modifyHolder h _ fun _ => id

/-! ## Opening a scope -/

variable {c : ContextIndex} {d : Definition} {t : StatusId} {st : Status ς} {commit : Bool}

/-- A timeout is given, or there is a default, only to a backend that knows timeouts. -/
theorem timeoutOf_ok {timeout : Option Duration} (h : m.timeoutOf d = .ok timeout) :
    (d.timeout = .unspecified ∨ m.backend.capabilities.timeout = true) ∧
      (timeout.isSome = true → m.backend.capabilities.timeout = true) := by
  unfold timeoutOf at h
  cases hd : d.timeout with
  | unspecified =>
    rw [hd] at h
    obtain rfl := Except.ok.inj h
    refine ⟨.inl rfl, fun hsome => ?_⟩
    split at hsome
    · assumption
    · cases hsome
  | after limit =>
    rw [hd] at h
    dsimp only [Timeout.duration?] at h
    split at h
    · exact ⟨.inr ‹_›, fun _ => ‹_›⟩
    · cases h

theorem allowed_begin {timeout : Option Duration}
    (hisolation : d.isolation = .unspecified ∨ m.backend.capabilities.isolation = true)
    (htimeout : m.timeoutOf d = .ok timeout) (a : Except Failure ρ) : (Exchange.begin (ς := ς) d a).Allowed m := by
  refine ⟨nofun, ?_, ?_⟩
  · rintro _ _ ⟨⟩
    exact hisolation
  · rintro _ _ ⟨⟩
    exact (timeoutOf_ok htimeout).1

theorem allowed_of_savepoint {q : Exchange ρ ς} (hsaves : q.onSavepoint = true → m.savesWork = true)
    (hbegin : q.isBegin = false) : q.Allowed m := by
  refine ⟨hsaves, ?_, ?_⟩
  · rintro d a rfl
    cases hbegin
  · rintro d a rfl
    cases hbegin

theorem allowed_of_plain {q : Exchange ρ ς} (hplain : q.onSavepoint = false) (hbegin : q.isBegin = false) :
    q.Allowed m := allowed_of_savepoint (fun h => absurd (hplain.symm.trans h) Bool.false_ne_true) hbegin

theorem beginning (hs : Within m s) {r : Except TransactionError HolderId}
    (hb : Beginning m.logged c d s r s') : Within m s' := by
  cases hb with
  | refused => exact hs
  | failed hstart hisolation htimeout => exact hs.noted hstart (allowed_begin (m := m) hisolation htimeout _)
  | @begun timeout r n hisolation htimeout hstart =>
    have hdeadline : (m.logged.newHolder d r timeout s.now).deadline.isSome = true →
        m.backend.capabilities.timeout = true := by
      intro hsome
      cases timeout with
      | none => cases hsome
      | some limit => exact (timeoutOf_ok htimeout).2 rfl
    exact ((hs.noted hstart (allowed_begin (m := m) hisolation htimeout _)).addHolder hdeadline).putBinding c _ _

theorem resume (hs : Within m s) (c : ContextIndex) (h : HolderId) : Within m (m.logged.resume c h s).2 := by
  rcases resume_spec m.logged c h s with ⟨_, _, hrun⟩ | ⟨_, hrun⟩
  · rw [hrun]; exact hs
  · rw [hrun]
    exact (hs.attach c _ h).applied (fun r a => allowed_of_plain rfl rfl) rfl

theorem opening (hs : Within m s) {r : Except TransactionError StatusId} (ho : Opening m.logged c d s r s') :
    Within m s' := by
  have hsuspend : ∀ {x : Holder ρ} {a : Except Failure Unit} {n : Logged σ ρ ς},
      m.logged.backend.suspend x.resource s.native = (a, n) → Within m (s.withNative n) :=
    fun hn => hs.noted hn (allowed_of_plain rfl rfl)
  cases ho with
  | refused => exact hs
  | untransacted => exact hs.addStatus nofun
  | beginFailed _ hbegin => exact hs.beginning hbegin
  | begun _ _ hbegin => exact (hs.beginning hbegin).addStatus nofun
  | suspendFailed _ _ _ _ _ hn => exact hsuspend hn
  | detached _ _ _ _ _ hn => exact ((hsuspend hn).detach c _ _).addStatus nofun
  | renewed _ _ _ _ _ hn hbegin => exact (((hsuspend hn).detach c _ _).beginning hbegin).addStatus nofun
  | @renewFailed h x n e s₁ s₂ r _ _ _ _ _ hn hbegin hres =>
    have hresumed := (((hsuspend hn).detach c _ _).beginning hbegin).resume c h
    rw [hres] at hresumed
    exact hresumed
  | savepointFailed _ _ _ _ _ hnests hsaves hn =>
    exact hs.noted hn (allowed_of_savepoint (fun _ => Bool.and_eq_true_iff.2 ⟨hsaves, hnests⟩) rfl)
  | nested _ _ _ _ _ hnests hsaves hn =>
    have hboth : m.savesWork = true := Bool.and_eq_true_iff.2 ⟨hsaves, hnests⟩
    exact ((hs.noted hn (allowed_of_savepoint (fun _ => hboth) rfl)).modifyHolder _ Holder.requested fun _ => id).addStatus fun _ => hboth
  | joined => exact (hs.modifyHolder _ Holder.requested fun _ => id).addStatus nofun

/-! ## Completing a scope -/

theorem working (hs : Within m s) {state : TransactionState} {outcome : Except TransactionError Unit}
    (hsaved : st.savepoint.isSome = true → m.savesWork = true)
    (hw : Working m.logged commit st s state outcome s') : Within m s' := by
  have hplain : ∀ {q : Exchange ρ ς}, q.onSavepoint = false → q.isBegin = false → q.Allowed m :=
    allowed_of_plain
  have hsave : ∀ {q : Exchange ρ ς} {sp : ς}, st.savepoint = some sp → q.isBegin = false → q.Allowed m :=
    fun hsp => allowed_of_savepoint fun _ => hsaved (by rw [hsp]; rfl)
  cases hw with
  | kept | unmarked => exact hs
  | savepointReleased _ hsp happ => exact hs.applied (fun r a => hsave hsp rfl) happ
  | committed _ _ _ happ | commitFailed _ _ _ happ => exact hs.applied (fun r a => hplain rfl rfl) happ
  | commitUndone _ _ _ happ _ hundo =>
    exact (hs.applied (fun r a => hplain rfl rfl) happ).applied (fun r a => hplain rfl rfl) hundo
  | returnFailed _ hsp happ => exact hs.applied (fun r a => hsave hsp rfl) happ
  | returned _ hsp happ hrel =>
    exact ((hs.applied (fun r a => hsave hsp rfl) happ).modifyHolderOf st Holder.resetRollbackOnly fun _ => id).applied
      (fun r a => hsave hsp rfl) hrel
  | undone _ _ _ happ => exact hs.applied (fun r a => hplain rfl rfl) happ
  | marked => exact hs.modifyHolderOf st Holder.setRollbackOnly fun _ => id

theorem releasing (hs : Within m s) {r : Except TransactionError Unit} (hr : Releasing m.logged c st s r s') :
    Within m s' := by
  cases hr with
  | nothing => exact hs
  | reference => exact hs.modifyHolder _ Holder.released fun _ => id
  | @transaction h r₁ s₁ r₂ n _ _ hun happ =>
    have hunbound : Within m s₁ := by
      cases hun with
      | unbound | other | foreign => exact hs.purge c _
      | removed => exact (hs.purge c _).dropBinding c _
    exact (hunbound.modifyHolder h giveUp fun _ => nofun).applied (fun r a => allowed_of_plain rfl rfl) happ

theorem resuming (hs : Within m s) {r : Except TransactionError Unit} (hr : Resuming m.logged c t st s r s') :
    Within m s' := by
  have htaken : Within m (s.takeSuspended t) := hs.modifyStatus t fun _ => id
  cases hr with
  | nothing => exact hs
  | refused => exact htaken
  | resumed _ happ => exact (htaken.attach c _ _).applied (fun r a => allowed_of_plain rfl rfl) happ

theorem concluding (hs : Within m s) {r : Except TransactionError Unit} (hst : s.status? t = some st)
    (hc : Concluding m.logged commit c t st s r s') : Within m s' := by
  cases hc with
  | mk hwork hrel hres =>
    exact (((hs.working (hs.savepoints t st hst) hwork).endStatus t _).releasing hrel).resuming hres

/-! ## Runs -/

theorem called (hs : Within m s) (call : ManagerCall (ClientWork σ)) :
    Within m (m.logged.called ClientWork.performLogged s call) := by
  cases call with
  | enter c d =>
    obtain ⟨r, s', hrun, hopen⟩ := getTransaction_spec m.logged c d s
    show Within m (m.logged.getTransaction c d s).2
    rw [hrun]
    exact (hs.purge c _).opening hopen
  | conclude commit c t =>
    show Within m (m.logged.conclude commit c t s).2
    rcases conclude_cases m.logged commit c t s with ⟨hrefused, -⟩ | ⟨st, r, s', hst, -, hrun, hc⟩
    · rw [hrefused]; exact hs
    · rw [hrun]; exact hs.concluding hst hc
  | mark t => exact hs.modifyStatus t fun _ => id
  | act a =>
    refine ⟨hs.log, hs.savepoints, fun h x hx => ?_⟩
    have hmarked : (s.holder? h).map (fun x => if a.marks h then x.setRollbackOnly else x) = some x :=
      (holder?_markWhere _ a.marks h).symm.trans hx
    obtain ⟨y, hy, rfl⟩ := Option.map_eq_some_iff.1 hmarked
    intro hd
    refine hs.deadlines h y hy ?_
    split at hd
    · exact hd
    · exact hd

theorem calledAll (hs : Within m s) (calls : List (ManagerCall (ClientWork σ))) :
    Within m (m.logged.calledAll ClientWork.performLogged calls s) := by
  induction calls generalizing s with
  | nil => exact hs
  | cons call calls ih => exact ih (hs.called call)

theorem start (m : Manager σ ρ ς) (contexts : Nat) (state : σ) :
    Within m (Session.ofContexts contexts { state }) := by
  refine ⟨nofun, ?_, ?_⟩
  · intro t st hst
    cases hst
  · intro h x hx
    cases hx

end Within

/-- Nesting in a transaction takes a savepoint on it, or fails and has changed nothing but the native state. -/
theorem nested_spec {m : Manager σ ρ ς} {c : ContextIndex} {d : Definition} {s : Session σ ρ ς} {h : HolderId}
    (hnested : d.propagation = .nested) (hfound : (m.currentHolder c s).1 = .ok (some h)) :
    (∃ sp n, m.savesWork = true ∧ m.getTransaction c d s =
      (.ok s.statuses.size, (((s.withNative n).modifyHolder h Holder.requested).addStatus
        { definition := d, holder := some h, savepoint := some sp }).2)) ∨
    ∃ text cause n, m.getTransaction c d s = (.error (.creation text cause), s.withNative n) := by
  obtain ⟨r, hfind, hlook⟩ := find_spec s c m.backend.kind m.backend.key
  have hcur : m.currentHolder c s = (r.mapError .registry, s.purge c m.backend.key) := by
    unfold currentHolder
    rw [attempt_adapt, hfind]
  rw [hcur] at hfound
  cases hlook with
  | unbound => cases hfound
  | foreign => cases hfound
  | @live h' x hb hx =>
    obtain rfl : h' = h := Option.some.inj (Except.ok.inj hfound)
    rw [purge_of_bound hb] at hcur hx
    have hrun : m.getTransaction c d s = m.enterExisting c d h' s := attempt_bind_ok hcur
    rw [hrun]
    unfold enterExisting
    rw [hnested]
    dsimp only
    cases hnests : m.config.nestedTransactionAllowed with
    | false => exact .inr ⟨_, _, s.native, rfl⟩
    | true =>
      cases hsaves : m.backend.capabilities.savepoints with
      | false => exact .inr ⟨_, _, s.native, rfl⟩
      | true =>
        have hcall := callOn_of_holder hx m.backend.createSavepoint
          (.creationFailed "could not create savepoint for nested transaction")
        rcases hn : m.backend.createSavepoint x.resource s.native with ⟨f | sp, n⟩ <;> rw [hn] at hcall
        · exact .inr ⟨_, _, n, attempt_bind_error hcall⟩
        · exact .inl ⟨sp, n, Bool.and_eq_true_iff.2 ⟨hsaves, hnests⟩, attempt_bind_ok hcall⟩

/-- Capabilities gate what is asked for natively, for every manager, any calls in any contexts, and whatever the
backend answers. Without the log the run is that of the manager itself. Where the backend has no savepoints, or
nesting is not allowed, no savepoint is ever taken, returned to or released, and no status has one; without
isolation levels every transaction is begun with the default one; without timeouts none is begun with a timeout,
and no holder has a deadline, whatever the default timeout is. Nesting in a transaction opens a scope that has a
savepoint, or it fails in creating one and leaves all bindings, holders and statuses as they were. -/
theorem capabilities_gate (m : Manager σ ρ ς) (contexts : Nat) (state : σ) (calls : List (ManagerCall (ClientWork σ))) :
    let s := m.logged.calledAll ClientWork.performLogged calls (Session.ofContexts contexts { state })
    s.seen unlogged = m.calledAll ClientWork.perform calls (Session.ofContexts contexts state) ∧
    (m.backend.capabilities.savepoints = false ∨ m.config.nestedTransactionAllowed = false →
      (∀ q ∈ s.native.log, q.onSavepoint = false) ∧ ∀ t st, s.status? t = some st → st.savepoint = none) ∧
    (m.backend.capabilities.isolation = false → ∀ d a, .begin d a ∈ s.native.log → d.isolation = .unspecified) ∧
    (m.backend.capabilities.timeout = false →
      (∀ d a, .begin d a ∈ s.native.log → d.timeout = .unspecified) ∧
      ∀ h x, s.holder? h = some x → x.deadline = none) ∧
    ∀ c d h, d.propagation = .nested → (m.logged.currentHolder c s).1 = .ok (some h) →
      (∃ sp n, m.logged.getTransaction c d s =
        (.ok s.statuses.size, (((s.withNative n).modifyHolder h Holder.requested).addStatus
          { definition := d, holder := some h, savepoint := some sp }).2)) ∨
      ∃ text cause n, m.logged.getTransaction c d s = (.error (.creation text cause), s.withNative n) := by
  intro s
  have hs : Within m s := (Within.start m contexts state).calledAll calls
  refine ⟨?_, fun hgated => ?_, fun hgated => ?_, fun hgated => ⟨?_, ?_⟩, fun c d h hnested hfound => ?_⟩
  · have hrun := (logged_mirrored m).calledAll ClientWork.seen_logged
      (Session.ofContexts contexts { state }) calls
    rw [ofContexts_seen] at hrun
    exact hrun.symm
  · have hsaves : m.savesWork = false := by
      unfold savesWork
      rcases hgated with hoff | hoff
      · rw [hoff, Bool.false_and]
      · rw [hoff, Bool.and_false]
    refine ⟨fun q hq => ?_, fun t st hst => ?_⟩
    · cases hsp : q.onSavepoint with
      | false => rfl
      | true => exact absurd (hsaves.symm.trans ((hs.log q hq).savepoint hsp)) Bool.false_ne_true
    · cases hsp : st.savepoint with
      | none => rfl
      | some sp =>
        have hsome : st.savepoint.isSome = true := by rw [hsp]; rfl
        exact absurd (hsaves.symm.trans (hs.savepoints t st hst hsome)) Bool.false_ne_true
  · intro d a hq
    rcases (hs.log _ hq).isolation d a rfl with hplain | hcapable
    · exact hplain
    · exact absurd (hgated.symm.trans hcapable) Bool.false_ne_true
  · intro d a hq
    rcases (hs.log _ hq).timeout d a rfl with hplain | hcapable
    · exact hplain
    · exact absurd (hgated.symm.trans hcapable) Bool.false_ne_true
  · intro h x hx
    cases hd : x.deadline with
    | none => rfl
    | some limit =>
      have hsome : x.deadline.isSome = true := by rw [hd]; rfl
      exact absurd (hgated.symm.trans (hs.deadlines h x hx hsome)) Bool.false_ne_true
  · rcases nested_spec hnested hfound with ⟨sp, n, -, hrun⟩ | hfailed
    · exact .inl ⟨sp, n, hrun⟩
    · exact .inr hfailed

end Demarcation
