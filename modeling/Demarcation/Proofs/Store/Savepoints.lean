/-
Nested scopes are transactions of their own over the log of a connection. As long as the scopes of each
transaction are completed from the inside out, whatever happens inside a nested scope leaves alone what
was staged before it, so that returning to its savepoint gives back the log that there was.
-/
import Demarcation.Proofs.InsideOut
import Demarcation.Proofs.Store.Connections

namespace Demarcation

open Session Manager

variable {α : Type}

/-! ## Savepoints that a store honours -/

/-- A store refused a savepoint for the savepoint's sake: the log does not reach it any more, or it is
another connection's. -/
def Failure.refusesSavepoint : Failure → Bool
  | .storage (.invalidSavepoint _) => true
  | .storage (.foreignSavepoint _ _) => true
  | _ => false

namespace Store

variable {key : ResourceKey} {capabilities : Capabilities} {s s' : Store} {c : ConnectionId} {sp : Savepoint}
  {f : Failure}

/-- Completing a nested scope is not refused for the sake of its savepoint. -/
structure Honours (b : Backend Store ConnectionId Savepoint) (c : ConnectionId) (sp : Savepoint) (s : Store) :
    Prop where
  release : ∀ f s', b.releaseSavepoint c sp s = (.error f, s') → f.refusesSavepoint = false
  rollback : ∀ f s', b.rollbackToSavepoint c sp s = (.error f, s') → f.refusesSavepoint = false
  released : ∀ s' f s'', b.rollbackToSavepoint c sp s = (.ok (), s') →
    b.releaseSavepoint c sp s' = (.error f, s'') → f.refusesSavepoint = false

theorem usable_error {e : StorageError} (h : s.usable c = .error e) :
    (Failure.storage e).refusesSavepoint = false := by
  unfold usable at h
  split at h
  · cases h; rfl
  · split at h
    · cases h; rfl
    · split at h <;> cases h
      rfl

theorem checkOwner_own (hown : sp.connection = ConnectionId.number c) : checkOwner c sp = .ok () := by
  unfold checkOwner
  rw [if_pos hown]

/-- A primitive fails by plan, or its operation fails. -/
theorem primitive_refused {δ : Type} {p : Primitive} {op : Native Store δ} (h : primitive p op s = (.error f, s'))
    (hop : op (s.counted p) = (.error f, s') → f.refusesSavepoint = false) : f.refusesSavepoint = false := by
  rcases primitive_cases p op s with hp | hp
  · cases hp.symm.trans h; rfl
  · exact hop (hp.symm.trans h)

theorem changing_refused {op : Store → Except StorageError Store} (h : changing op s = (.error f, s'))
    (hop : ∀ e, op s = .error e → (Failure.storage e).refusesSavepoint = false) : f.refusesSavepoint = false := by
  unfold changing at h
  cases hrun : op s with
  | error e =>
    rw [hrun] at h
    cases h
    exact hop e hrun
  | ok s'' => rw [hrun] at h; cases h

theorem createSavepoint_refused (h : (backend key capabilities).createSavepoint c s = (.error f, s')) :
    f.refusesSavepoint = false := by
  refine primitive_refused h fun h => ?_
  unfold savepoint at h
  cases hu : Store.usable _ c with
  | error e =>
    rw [hu] at h
    cases h
    exact usable_error hu
  | ok conn => rw [hu] at h; cases h

theorem releaseSavepoint_refused (hown : sp.connection = ConnectionId.number c)
    (h : (backend key capabilities).releaseSavepoint c sp s = (.error f, s')) : f.refusesSavepoint = false := by
  refine primitive_refused h fun h => ?_
  unfold release at h
  rw [checkOwner_own hown] at h
  cases hu : Store.usable _ c with
  | error e =>
    rw [hu] at h
    cases h
    exact usable_error hu
  | ok conn => rw [hu] at h; cases h

theorem rollbackTo_refused {e : StorageError} (hown : sp.connection = ConnectionId.number c)
    (hmark : sp.mark ≤ (s.log c).length) (h : s.rollbackTo c sp = .error e) :
    (Failure.storage e).refusesSavepoint = false := by
  unfold rollbackTo at h
  rw [checkOwner_own hown] at h
  dsimp only [Bind.bind, Except.bind] at h
  cases hu : s.usable c with
  | error e' =>
    rw [hu] at h
    cases h
    exact usable_error hu
  | ok conn =>
    -- the log reaches the savepoint
    rw [log_of_connection (usable_ok hu).1] at hmark
    rw [hu] at h
    dsimp only at h
    rw [if_neg (Nat.not_lt.2 hmark)] at h
    cases h

theorem rollbackToSavepoint_refused (hown : sp.connection = ConnectionId.number c)
    (hmark : sp.mark ≤ (s.log c).length)
    (h : (backend key capabilities).rollbackToSavepoint c sp s = (.error f, s')) : f.refusesSavepoint = false := by
  have hcounted : sp.mark ≤ ((s.counted .rollbackToSavepoint).log c).length := hmark
  exact primitive_refused h fun h => changing_refused h fun _ hback => rollbackTo_refused hown hcounted hback

/-- A savepoint of the connection is honoured while the log reaches it. -/
theorem honours (hown : sp.connection = ConnectionId.number c) (hmark : sp.mark ≤ (s.log c).length) :
    s.Honours (backend key capabilities) c sp :=
  ⟨fun _ _ h => releaseSavepoint_refused hown h, fun _ _ h => rollbackToSavepoint_refused hown hmark h,
    fun _ _ _ _ h => releaseSavepoint_refused hown h⟩

end Store

/-! ## What is kept for an open nested scope -/

/-- What holds while the nested scope `t` is open, which took its savepoint in the transaction of `h`, on
the connection `k`, when `log` was staged there. -/
structure Kept (t : StatusId) (h : HolderId) (k : ConnectionId) (log : List Write)
    (s : Session Store ConnectionId Savepoint) : Prop where
  status : ∃ st sp, s.status? t = some st ∧ st.completion = none ∧ st.newTransaction = false ∧
    st.holder = some h ∧ st.savepoint = some sp ∧ sp.mark = log.length ∧ sp.connection = ConnectionId.number k
  holder : ∃ x, s.holder? h = some x ∧ x.resource = k
  /-- The owner's scope is around the nested one. -/
  owner : ∃ u, u < t ∧ s.owned? u = some h
  staged : log <+: s.native.log k
  /-- The savepoints that were taken later are behind what was staged then. -/
  later : ∀ u st sp, t < u → s.status? u = some st → st.holder = some h → st.savepoint = some sp →
    log.length ≤ sp.mark

section Calls

variable {key : ResourceKey} {capabilities : Capabilities} {config : ManagerConfig}
  {s s' : Session Store ConnectionId Savepoint} {t : StatusId} {h : HolderId} {k : ConnectionId} {log : List Write}
  {act : α → Session Store ConnectionId Savepoint → Session Store ConnectionId Savepoint}

/-- Completing another scope leaves what was staged before the nested one. -/
theorem Kept.staged_concluding (hk : Kept t h k log s) (hs : Housed s) (ho : Owned s) {commit : Bool}
    {c : ContextIndex} {u : StatusId} {st : Status Savepoint} {r : Except TransactionError Unit}
    (hst : s.status? u = some st) (hopen : st.isCompleted = false) (hne : u ≠ t) (hinner : s.Innermost u)
    (hc : Concluding (storeManager key capabilities config) commit c u st s r s') : log <+: s'.native.log k := by
  obtain ⟨x, hx, rfl⟩ := hk.holder
  obtain ⟨stₜ, _, hstₜ, hopenₜ, _, hhₜ, _⟩ := hk.status
  obtain ⟨u₀, hlt₀, hown⟩ := hk.owner
  by_cases hh : st.holder = some h
  · -- a scope of the same transaction, which is inside the nested one
    have hlt : t < u := by
      rcases Nat.lt_or_gt_of_ne hne with hlt | hlt
      · exact absurd hhₜ (hinner st h t stₜ hst hopen hh hlt hstₜ (Status.isCompleted_of_none hopenₜ))
      · exact hlt
    have hnew : st.newTransaction = false := by
      cases hnew : st.newTransaction with
      | false => rfl
      | true =>
        have hown' : s.owned? u = some h := by rw [Owned.owned?_eq hst, hnew, if_pos rfl, hh]
        obtain rfl := ho.unique u u₀ h hown' hown
        exact absurd hlt₀ (Nat.lt_asymm hlt)
    rcases hc.returns_or_stays hst hnew hh hx with ⟨hsame, _⟩ | ⟨sp, hsp, _, _, hlog⟩
    · rw [hsame]; exact hk.staged
    · rw [hlog, if_pos rfl]
      exact List.prefix_take_iff.2 ⟨hk.staged, hk.later u st sp hlt hst hh hsp⟩
  · rw [hc.log_other hst ?_]
    · exact hk.staged
    · -- another transaction, which has another connection
      intro hsame
      obtain ⟨y, hy, hres⟩ := Option.map_eq_some_iff.1 hsame
      obtain ⟨h', hh', hy⟩ := Option.bind_eq_some_iff.1 hy
      obtain rfl := hs.apart h' h y x hy hx hres
      exact hh hh'

/-- Whatever is called, what was staged before the nested scope stays. -/
theorem Kept.staged_called (hk : Kept t h k log s) (hs : Housed s) (ho : Owned s) (call : ManagerCall α)
    (hact : ∀ a, call = .act a → Spares s (act a s))
    (hinner : ∀ commit c u, call = .conclude commit c u → s.Innermost u)
    (hother : ∀ commit c, call ≠ .conclude commit c t) :
    log <+: ((storeManager key capabilities config).called act s call).native.log k := by
  cases call with
  | enter c d =>
    show log <+: ((storeManager key capabilities config).getTransaction c d s).2.native.log k
    rw [getTransaction_log _ rfl]
    exact hk.staged
  | conclude commit c u =>
    show log <+: ((storeManager key capabilities config).conclude commit c u s).2.native.log k
    rcases conclude_cases (storeManager key capabilities config) commit c u s with
      ⟨hrefused, _⟩ | ⟨st, r, s', hst, hopen, hrun, hc⟩
    · rw [hrefused]; exact hk.staged
    · rw [hrun]
      refine hk.staged_concluding hs ho hst hopen ?_ (hinner commit c u rfl) hc
      rintro rfl
      exact hother commit c rfl
  | mark u => exact hk.staged
  | act a =>
    obtain ⟨x, hx, rfl⟩ := hk.holder
    exact hk.staged.trans ((hact a rfl).logs h x hx)

/-- A savepoint that is there after a call was there before, or was taken by the call. -/
theorem Kept.later_called (hk : Kept t h k log s) (call : ManagerCall α)
    (hact : ∀ a, call = .act a → Spares s (act a s)) {u : StatusId} {st : Status Savepoint} {sp : Savepoint}
    (hlt : t < u) (hst : ((storeManager key capabilities config).called act s call).status? u = some st)
    (hh : st.holder = some h) (hsp : st.savepoint = some sp) : log.length ≤ sp.mark := by
  have hsteady : ∀ a, call = .act a → Steady s (act a s) := fun a ha => (hact a ha).steady
  cases hbefore : s.status? u with
  | none =>
    obtain ⟨_, _, h', x, n, hh', hx, hn⟩ := called_savepoint_new _ call hsteady hbefore hst hsp
    obtain rfl := Option.some.inj (hh.symm.trans hh')
    obtain ⟨y, hy, rfl⟩ := hk.holder
    obtain rfl := Option.some.inj (hx.symm.trans hy)
    have htook : (Store.backend key capabilities).createSavepoint x.resource s.native = (.ok sp, n) := hn
    rw [Store.backend_createSavepoint htook]
    exact hk.staged.length_le
  | some st₀ =>
    rcases called_status_cases (storeManager key capabilities config) call hsteady hbefore with
      ⟨st', hst', hsame⟩ | ⟨_, _, state, _, _, hst'⟩
    · obtain ⟨on, rfl⟩ := Status.eq_of_unmarked hsame
      obtain rfl := Option.some.inj (hst'.symm.trans hst)
      exact hk.later u st₀ sp hlt hbefore hh hsp
    · obtain rfl := Option.some.inj (hst'.symm.trans hst)
      cases hsp

/-- A call completes the nested scope, or all is kept for it. -/
theorem Kept.called (hk : Kept t h k log s) (hs : Housed s) (ho : Owned s) (call : ManagerCall α)
    (hact : ∀ a, call = .act a → Spares s (act a s))
    (hinner : ∀ commit c u, call = .conclude commit c u → s.Innermost u) :
    Kept t h k log ((storeManager key capabilities config).called act s call) ∨
    ∃ st, ((storeManager key capabilities config).called act s call).status? t = some st ∧ st.savepoint = none := by
  have hsteady : ∀ a, call = .act a → Steady s (act a s) := fun a ha => (hact a ha).steady
  obtain ⟨st, sp, hst, hopen, hnew, hh, hsp, hmark, hown⟩ := hk.status
  rcases called_status_cases (storeManager key capabilities config) call hsteady hst with
    ⟨st', hst', hsame⟩ | ⟨_, _, state, _, _, hst'⟩
  · obtain ⟨on, rfl⟩ := Status.eq_of_unmarked hsame
    left
    obtain ⟨x, hx, hres⟩ := hk.holder
    obtain ⟨x', hx', hres'⟩ := called_holder (storeManager key capabilities config) call hsteady hx
    obtain ⟨u, hlt, howned⟩ := hk.owner
    refine ⟨⟨_, sp, hst', hopen, hnew, hh, hsp, hmark, hown⟩, ⟨x', hx', hres'.trans hres⟩,
      ⟨u, hlt, owned?_called _ call hsteady howned⟩, ?_, fun u stᵤ spᵤ hlt hstᵤ hhᵤ hspᵤ => ?_⟩
    · refine hk.staged_called hs ho call hact hinner fun commit c hcall => ?_
      -- completing the scope itself would have ended it
      subst hcall
      obtain ⟨state, hended⟩ := conclude_completes (storeManager key capabilities config) commit c hst
        (Status.isCompleted_of_none hopen)
      obtain heq := Option.some.inj (hst'.symm.trans hended)
      have hnone : (none : Option TransactionState) = some state := hopen.symm.trans (congrArg Status.completion heq)
      cases hnone
    · exact hk.later_called call hact hlt hstᵤ hhᵤ hspᵤ
  · exact .inr ⟨_, hst', rfl⟩

/-- A status without a savepoint never has one again. -/
theorem savepoint_none_calledAll {m : Manager Store ConnectionId Savepoint} (hact : ∀ a s, Spares s (act a s))
    (calls : List (ManagerCall α)) {st : Status Savepoint} (hst : s.status? t = some st) (hsp : st.savepoint = none) :
    ∃ st', (m.calledAll act calls s).status? t = some st' ∧ st'.savepoint = none := by
  induction calls generalizing s st with
  | nil => exact ⟨st, hst, hsp⟩
  | cons call calls ih =>
    rcases called_status_cases m call (fun a _ => (hact a s).steady) hst with
      ⟨st', hst', hsame⟩ | ⟨_, _, state, _, _, hst'⟩
    · obtain ⟨on, rfl⟩ := Status.eq_of_unmarked hsame
      exact ih hst' hsp
    · exact ih hst' rfl

theorem Kept.calledAll (hk : Kept t h k log s) (hs : Housed s) (ho : Owned s) (hact : ∀ a s, Spares s (act a s))
    (calls : List (ManagerCall α)) (hinside : (storeManager key capabilities config).InsideOut act calls s) :
    Kept t h k log ((storeManager key capabilities config).calledAll act calls s) ∨
    ∃ st, ((storeManager key capabilities config).calledAll act calls s).status? t = some st ∧
      st.savepoint = none := by
  induction calls generalizing s with
  | nil => exact .inl hk
  | cons call calls ih =>
    obtain ⟨hinner, hrest⟩ := hinside
    have hact' : ∀ a, call = .act a → Spares s (act a s) := fun a _ => hact a s
    rcases hk.called hs ho call hact' hinner with hkept | ⟨st, hst, hsp⟩
    · exact ih hkept (hs.called call hact') (ho.called call fun a ha => (hact' a ha).steady) hrest
    · exact .inr (savepoint_none_calledAll hact calls hst hsp)

/-- A nested scope has been opened and has taken its savepoint. -/
theorem Kept.opened (hs : Housed s) (ho : Owned s) {c : ContextIndex} {d : Definition} {st : Status Savepoint}
    {sp : Savepoint} (hrun : (storeManager key capabilities config).getTransaction c d s = (.ok t, s'))
    (hst : s'.status? t = some st) (hsp : st.savepoint = some sp) :
    ∃ h k, Kept t h k (s.native.log k) s' := by
  let act : Unit → Session Store ConnectionId Savepoint → Session Store ConnectionId Savepoint := fun _ s => s
  have hcalled : (storeManager key capabilities config).called act s (.enter c d) = s' := congrArg Prod.snd hrun
  have hsteady : ∀ a, ManagerCall.enter c d = .act a → Steady s (act a s) := fun a ha => by cases ha
  have hlast := getTransaction_status hrun
  have hnone : s.status? t = none := by
    rw [hlast.1]
    exact Array.getElem?_eq_none (Nat.le_refl _)
  rw [← hcalled] at hst
  obtain ⟨hopen, hnew, h, x, n, hh, hx, hn⟩ := called_savepoint_new _ _ hsteady hnone hst hsp
  have htook : (Store.backend key capabilities).createSavepoint x.resource s.native = (.ok sp, n) := hn
  obtain ⟨u, hown⟩ := ho.each h (holder?_lt hx)
  refine ⟨h, x.resource, ?_⟩
  obtain ⟨x', hx', hres⟩ := called_holder (storeManager key capabilities config) (.enter c d) hsteady hx
  rw [← hcalled]
  refine ⟨⟨st, sp, hst, hopen, hnew, hh, hsp, ?_, ?_⟩, ⟨x', hx', hres⟩, ⟨u, ?_, owned?_called _ _ hsteady hown⟩, ?_,
    fun u stᵤ spᵤ hlt hstᵤ => ?_⟩
  · exact Store.backend_createSavepoint htook
  · have hid := Store.backend_createSavepoint_id? htook
    exact Option.some.inj (hid.symm.trans (hs.numbered h x hx))
  · rw [hlast.1]
    exact Owned.owned?_lt hown
  · have hlog := congrFun (getTransaction_log (storeManager key capabilities config) rfl c d s) x.resource
    exact hlog ▸ List.prefix_refl _
  · -- there is no later status yet
    have hle := status?_lt hstᵤ
    rw [hcalled, hlast.2] at hle
    exact absurd hlt (Nat.not_lt.2 (Nat.lt_succ_iff.1 hle))

/-- Nothing that is called from the inside out takes the savepoint of a nested scope away but its own completion, so as
long as it has the savepoint, all is kept for it. -/
theorem Kept.of_opened (hs : Housed s) (ho : Owned s) (hact : ∀ a s, Spares s (act a s)) {c : ContextIndex}
    {d : Definition} (hrun : (storeManager key capabilities config).getTransaction c d s = (.ok t, s'))
    {after : List (ManagerCall α)} (hinside : (storeManager key capabilities config).InsideOut act after s')
    {st : Status Savepoint} {sp : Savepoint}
    (hst : ((storeManager key capabilities config).calledAll act after s').status? t = some st)
    (hsp : st.savepoint = some sp) :
    ∃ h k, Kept t h k (s.native.log k) ((storeManager key capabilities config).calledAll act after s') := by
  have hcalled : (storeManager key capabilities config).called act s (.enter c d) = s' := congrArg Prod.snd hrun
  have hs' : Housed ((storeManager key capabilities config).called act s (.enter c d)) := hs.called _ nofun
  have ho' : Owned ((storeManager key capabilities config).called act s (.enter c d)) := ho.called _ nofun
  rw [hcalled] at hs' ho'
  obtain ⟨st₁, hst₁⟩ : ∃ st₁, s'.status? t = some st₁ := by
    have hlt : t < s'.statuses.size := (getTransaction_status hrun).2 ▸ Nat.lt_succ_self t
    exact ⟨s'.statuses[t], Array.getElem?_eq_getElem hlt⟩
  have hkept : ¬ ∃ st', ((storeManager key capabilities config).calledAll act after s').status? t = some st' ∧
      st'.savepoint = none := by
    rintro ⟨st', hst', hnone⟩
    obtain rfl := Option.some.inj (hst'.symm.trans hst)
    cases hnone.symm.trans hsp
  -- the scope has had the savepoint from the beginning
  cases hsp₁ : st₁.savepoint with
  | none => exact absurd (savepoint_none_calledAll hact after hst₁ hsp₁) hkept
  | some sp₁ =>
    obtain ⟨h, k, hopened⟩ := Kept.opened hs ho hrun hst₁ hsp₁
    exact ⟨h, k, (hopened.calledAll hs' ho' hact after hinside).resolve_right hkept⟩

/-- Completing the nested scope gives back the log that is kept for it, or leaves the log alone. -/
theorem Kept.concluded (hk : Kept t h k log s) (key : ResourceKey) (capabilities : Capabilities)
    (config : ManagerConfig) {st : Status Savepoint} {sp : Savepoint} (hst : s.status? t = some st)
    (hsp : st.savepoint = some sp) :
    st.holder = some h ∧ s.native.Honours (Store.backend key capabilities) k sp ∧
      ∀ commit c, let s' := ((storeManager key capabilities config).conclude commit c t s).2
        (∀ k', k' ≠ k → s'.native.log k' = s.native.log k') ∧
        s'.native.log k =
          if keepsWork commit st s = false ∧
              ((Store.backend key capabilities).rollbackToSavepoint k sp s.native).1.isOk = true then log
          else s.native.log k := by
  obtain ⟨st', sp', hst', hopen, hnew, hh, hsp', hmark, hown⟩ := hk.status
  obtain rfl := Option.some.inj (hst'.symm.trans hst)
  obtain rfl := Option.some.inj (hsp'.symm.trans hsp)
  obtain ⟨x, hx, rfl⟩ := hk.holder
  refine ⟨hh, Store.honours hown (hmark ▸ hk.staged.length_le), fun commit c => ?_⟩
  obtain ⟨r, s', hrun, hc⟩ := conclude_spec (storeManager key capabilities config) commit c hst
    (Status.isCompleted_of_none hopen)
  rw [hrun]
  refine ⟨fun k' hk' => hc.log_other hst ?_, ?_⟩
  · rw [hh, resource?_of_holder hx]
    exact fun heq => hk' (Option.some.inj heq).symm
  · rcases hc.returns_or_stays hst hnew hh hx with ⟨hsame, hfailed⟩ | ⟨sp', hsp', hundo, hok, hlog⟩
    · rw [if_neg, hsame]
      rintro ⟨hundo, hok⟩
      cases (hfailed _ hsp hundo).symm.trans hok
    · obtain rfl := Option.some.inj (hsp'.symm.trans hsp)
      rw [if_pos ⟨hundo, hok⟩, hlog, if_pos rfl, hmark]
      exact (List.prefix_iff_eq_take.1 hk.staged).symm

end Calls

/-- Nested scopes are transactions of their own over the log, for every configuration, whatever is called in
any contexts before a nested scope is opened, and any calls from then on that complete the scopes of each
transaction from the inside out, if the client itself only adds to the logs of transactions. Completing
the nested scope with its work kept leaves its log alone; undoing its work gives back the log of the moment
the savepoint was taken if the store returns to the savepoint, and leaves the log alone otherwise. No
other log changes, and no operation on the savepoint is ever refused for the savepoint's sake. A client that
nests its scopes makes such calls (`Nest.Enclosing.insideOut`), see `Nest.leave_returns_log`. -/
theorem nested_returns_log (key : ResourceKey) (capabilities : Capabilities) (config : ManagerConfig)
    (act : α → Session Store ConnectionId Savepoint → Session Store ConnectionId Savepoint)
    (hact : ∀ a s, Spares s (act a s)) (contexts : Nat) (store : Store) (before after : List (ManagerCall α))
    (c : ContextIndex) (d : Definition) (t : StatusId) (s₁ : Session Store ConnectionId Savepoint) :
    let m := storeManager key capabilities config
    let s₀ := m.calledAll act before (Session.ofContexts contexts store)
    let s := m.calledAll act after s₁
    m.getTransaction c d s₀ = (.ok t, s₁) → m.InsideOut act after s₁ →
    (∀ k n f n', m.backend.createSavepoint k n = (.error f, n') → f.refusesSavepoint = false) ∧
    ∀ st sp, s.status? t = some st → st.savepoint = some sp →
      ∃ h x, st.holder = some h ∧ s.holder? h = some x ∧ s.native.Honours m.backend x.resource sp ∧
        ∀ commit c', let s' := (m.conclude commit c' t s).2
          (∀ k, k ≠ x.resource → s'.native.log k = s.native.log k) ∧
          s'.native.log x.resource =
            if keepsWork commit st s = false ∧
                (m.backend.rollbackToSavepoint x.resource sp s.native).1.isOk = true then
              s₀.native.log x.resource
            else s.native.log x.resource := by
  intro m s₀ s hrun hinside
  refine ⟨fun k n f n' h => Store.createSavepoint_refused h, fun st sp hst hsp => ?_⟩
  have hs₀ : Housed s₀ := (Housed.ofContexts contexts store).calledAll before hact
  have ho₀ : Owned s₀ := (Owned.ofContexts contexts store).calledAll before fun a s => (hact a s).steady
  obtain ⟨h, k, hkept⟩ := Kept.of_opened hs₀ ho₀ hact hrun hinside hst hsp
  obtain ⟨hh, hhonours, hconclude⟩ := hkept.concluded key capabilities config hst hsp
  obtain ⟨x, hx, rfl⟩ := hkept.holder
  exact ⟨h, x, hh, hx, hhonours, hconclude⟩

/-- Inside a nested scope, another one returns to its savepoint and a transaction of its own is committed:
rolling the nested scope back drops what was staged inside it, and nothing else. -/
theorem nested_returns_over_inner :
    let m := storeManager ⟨7⟩ .all {}
    let act := fun (p : ContextIndex × StagingAct) s => p.2.perform ⟨7⟩ p.1 s
    let s₀ := m.calledAll act [.enter 0 {}, .act (0, .data (.put "a" .null))] (Session.ofContexts 1 { key := ⟨7⟩ })
    let inside := [.act (0, .data (.put "b" .null)), .enter 0 { propagation := .nested },
      .act (0, .data (.put "c" .null)), .conclude false 0 2, .enter 0 { propagation := .requiresNew },
      .act (0, .data (.put "d" .null)), .conclude true 0 3]
    let s := m.calledAll act inside (m.getTransaction 0 { propagation := .nested } s₀).2
    (s.native.log 0).map Write.key = ["a", "b"] ∧ (s₀.native.log 0).map Write.key = ["a"] ∧
      (m.conclude false 0 1 s).2.native.log 0 = s₀.native.log 0 := by
  intro m act s₀ inside s
  have hlogs : (s.native.log 0).map Write.key = ["a", "b"] ∧ (s₀.native.log 0).map Write.key = ["a"] := by
    decide +kernel
  have hnested : (s.status? 1).map (fun st => (st.savepoint.isSome, st.holder)) = some (true, some 0) := by
    decide +kernel
  have hback : ((s.status? 1).bind Status.savepoint).map (fun sp =>
      (m.backend.rollbackToSavepoint 0 sp s.native).1.isOk) = some true := by decide +kernel
  have hresource : (s.holder? 0).map Holder.resource = some 0 := by decide +kernel
  have hrun : m.getTransaction 0 { propagation := .nested } s₀ =
      (.ok 1, (m.getTransaction 0 { propagation := .nested } s₀).2) := by
    have hopened : (m.getTransaction 0 { propagation := .nested } s₀).1.toOption = some 1 := by decide +kernel
    rcases hr : m.getTransaction 0 { propagation := .nested } s₀ with ⟨_ | t, s₁⟩ <;> rw [hr] at hopened <;>
      cases hopened
    rfl
  have hinside : m.InsideOut act inside (m.getTransaction 0 { propagation := .nested } s₀).2 := by
    refine ⟨nofun, nofun, nofun, ?_, nofun, nofun, ?_, trivial⟩
    · rintro _ _ _ ⟨⟩
      exact .last (by decide +kernel)
    · rintro _ _ _ ⟨⟩
      exact .last (by decide +kernel)
  have hreturns : ∀ st sp, s.status? 1 = some st → st.savepoint = some sp → ∃ h x, st.holder = some h ∧
      s.holder? h = some x ∧ s.native.Honours m.backend x.resource sp ∧ ∀ commit c,
        let s' := (m.conclude commit c 1 s).2
        (∀ k, k ≠ x.resource → s'.native.log k = s.native.log k) ∧ s'.native.log x.resource =
          if keepsWork commit st s = false ∧ (m.backend.rollbackToSavepoint x.resource sp s.native).1.isOk = true then
            s₀.native.log x.resource
          else s.native.log x.resource :=
    (nested_returns_log ⟨7⟩ .all {} act (fun p s => p.2.spares ⟨7⟩ p.1 s) 1 { key := ⟨7⟩ } _ inside 0 _ 1 _ hrun
      hinside).2
  refine ⟨hlogs.1, hlogs.2, ?_⟩
  clear_value s s₀
  obtain ⟨st, hst, hfields⟩ := Option.map_eq_some_iff.1 hnested
  obtain ⟨hsome, hh⟩ := Prod.mk.inj hfields
  obtain ⟨sp, hsp⟩ := Option.isSome_iff_exists.1 hsome
  obtain ⟨h, x, hh', hx, -, hconclude⟩ := hreturns st sp hst hsp
  obtain rfl : 0 = h := Option.some.inj (hh.symm.trans hh')
  obtain ⟨y, hy, hresource⟩ := Option.map_eq_some_iff.1 hresource
  obtain rfl := Option.some.inj (hy.symm.trans hx)
  rw [hst, Option.bind_some, hsp] at hback
  obtain ⟨-, hlog⟩ := hconclude false 0
  rw [hresource] at hlog
  exact hlog.trans (if_pos ⟨rfl, Option.some.inj hback⟩)

/-- The same of a client that nests its scopes in one context. Leaving the innermost scope, if it took a savepoint,
gives back the log of the session in which the scope was opened, or leaves the log alone. -/
theorem Nest.leave_returns_log (key : ResourceKey) (capabilities : Capabilities) (config : ManagerConfig)
    (act : α → Session Store ConnectionId Savepoint → Session Store ConnectionId Savepoint)
    (hact : ∀ a s, Spares s (act a s)) (contexts : Nat) (store : Store) (c : ContextIndex)
    (calls : List (ScopeCall α)) :
    let m := storeManager key capabilities config
    let n₀ : Nest Store ConnectionId Savepoint := ⟨Session.ofContexts contexts store, []⟩
    let n := n₀.run m c act calls
    ∀ x rest st sp, n.scopes = x :: rest → n.session.status? x.status = some st → st.savepoint = some sp →
      ∃ k, n.session.resource? st.holder = some k ∧ n.session.native.Honours m.backend k sp ∧
        ∀ commit, let n' := n.step m c act (.leave commit)
          (∀ k', k' ≠ k → n'.session.native.log k' = n.session.native.log k') ∧
          n'.session.native.log k =
            if keepsWork commit st n.session = false ∧
                (m.backend.rollbackToSavepoint k sp n.session.native).1.isOk = true then
              x.origin.native.log k
            else n.session.native.log k := by
  intro m n₀ n x rest st sp hscopes hst hsp
  have hsteady : ∀ a s, Steady s (act a s) := fun a s => (hact a s).steady
  have hx : x ∈ n.scopes := hscopes ▸ List.mem_cons_self
  obtain hnone | ⟨before, d, after, rfl, horigin, hopened⟩ := Nest.opened_of_mem hx
  · cases hnone
  · have hbefore : m.calledAll act (Nest.calls m c act before n₀) n₀.session = x.origin :=
      (Nest.calledAll_calls before n₀).trans horigin.symm
    have hs : Housed x.origin := hbefore ▸ (Housed.ofContexts contexts store).calledAll _ hact
    have ho : Owned x.origin := hbefore ▸ (Owned.ofContexts contexts store).calledAll _ hsteady
    have hrun : m.getTransaction c d x.origin = (.ok x.status, (m.getTransaction c d x.origin).2) :=
      Prod.ext hopened rfl
    -- from the opening on, the client is one that makes its calls from the inside out
    let n₁ := (n₀.run m c act before).step m c act (.enter d)
    have hn₁ : n₁.Enclosing := ((Nest.Enclosing.start rfl).run hsteady before).step hsteady (.enter d)
    have hinside : m.InsideOut act (Nest.calls m c act after n₁) n₁.session := hn₁.insideOut hsteady after
    have hafter : m.calledAll act (Nest.calls m c act after n₁) n₁.session = n.session := by
      rw [Nest.calledAll_calls]
      exact congrArg Nest.session (Nest.run_append m c act n₀ before (.enter d :: after)).symm
    have hopening : n₁.session = (m.getTransaction c d x.origin).2 := by
      rw [horigin]
      exact Nest.session_enter m c act _ d
    rw [hopening] at hinside hafter
    obtain ⟨h, k, hkept⟩ := Kept.of_opened hs ho hact hrun hinside (hafter ▸ hst) hsp
    rw [hafter] at hkept
    obtain ⟨hh, hhonours, hconclude⟩ := hkept.concluded key capabilities config hst hsp
    obtain ⟨y, hy, rfl⟩ := hkept.holder
    refine ⟨y.resource, hh ▸ resource?_of_holder hy, hhonours, fun commit => ?_⟩
    rw [Nest.step_leave_cons hscopes]
    exact hconclude commit c

end Demarcation
