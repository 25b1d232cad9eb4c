/-
The connections of transactions. Every transaction has a connection of its own, which shows its own
number, and completing a scope touches no other connection.
-/
import Demarcation.Proofs.Store.Leaving
import Demarcation.Proofs.Store.Staging

namespace Demarcation

open Session Manager

variable {α β : Type}

namespace Store

variable {s s' s'' : Store} {c k : ConnectionId} {conn : Connection} {p : Primitive}

/-! ## The numbers of connections -/

/-- The number that a connection shows. -/
def id? (s : Store) (c : ConnectionId) : Option UInt64 := (s.connection? c).map Connection.id

theorem id?_setConnection (h : s.connection? c = some conn) (conn' : Connection) (hid : conn'.id = conn.id) :
    (s.setConnection c conn').id? = s.id? := by
  funext k
  unfold id?
  rw [connection?_setConnection]
  split
  · rename_i hk
    rw [hk, h]
    exact congrArg some hid
  · rfl

theorem id?_connect (s : Store) (readOnly autoCommit : Bool) (isolation : Isolation) (k : ConnectionId) :
    (s.connect readOnly autoCommit isolation).2.id? k =
      if k = s.connections.size then some k.number else s.id? k := by
  unfold id? connection? connect
  dsimp only
  rw [Array.getElem?_push]
  split
  · rename_i hk
    rw [hk]; rfl
  · rfl

/-- The connection that is opened next shows no number yet. -/
theorem id?_next (s : Store) : s.id? s.connections.size = none := by
  unfold id? connection?
  rw [Array.getElem?_eq_none (Nat.le_refl _)]; rfl

theorem id?_connect_old {i : UInt64} (h : s.id? k = some i) (readOnly autoCommit : Bool) (isolation : Isolation) :
    (s.connect readOnly autoCommit isolation).2.id? k = some i := by
  rw [id?_connect, if_neg ?_]
  · exact h
  · rintro rfl
    rw [id?_next] at h
    cases h

theorem id?_lt {i : UInt64} (h : s.id? c = some i) : c < s.connections.size := by
  obtain ⟨conn, hconn, -⟩ := Option.map_eq_some_iff.1 h
  exact (Array.getElem?_eq_some_iff.1 hconn).1

theorem id?_primitive {op : Native Store α} (hop : ∀ s, (op s).2.id? = s.id?) (s : Store) :
    (primitive p op s).2.id? = s.id? := by
  rcases primitive_cases p op s with h | h
  · rw [h]; rfl
  · rw [h, hop]; rfl

theorem id?_changing {op : Store → Except StorageError Store} (hop : ∀ s s', op s = .ok s' → s'.id? = s.id?)
    (s : Store) : (changing op s).2.id? = s.id? := by
  unfold changing
  cases h : op s with
  | error e => rfl
  | ok s' => exact hop s s' h

theorem id?_close (s : Store) (c : ConnectionId) : (s.close c).id? = s.id? := by
  unfold close
  split
  · rfl
  · rename_i conn hconn
    split
    · rfl
    · exact id?_setConnection hconn { conn with closed := true, log := [] } rfl

theorem id?_write {w : Write} (h : s.write c w = .ok s') : s'.id? = s.id? := by
  unfold write at h
  split at h
  · cases h
  · obtain ⟨conn, hu, h⟩ := except_bind_ok h
    split at h
    · cases h; rfl
    · cases h
      exact id?_setConnection (usable_ok hu).1 _ rfl

end Store

/-- An observation of the native state that only the beginning of a transaction changes. -/
structure Backend.Constant {σ ρ ς : Type} (b : Backend σ ρ ς) (φ : σ → β) : Prop extends b.Unmoved φ where
  commit : ∀ r n, φ (b.commit r n).2 = φ n
  rollback : ∀ r n, φ (b.rollback r n).2 = φ n
  cleanup : ∀ r n, φ (b.cleanup r n).2 = φ n

section Constant

variable {σ ρ ς : Type} {m : Manager σ ρ ς} {c : ContextIndex} {t : StatusId} {st : Status ς} {commit : Bool}
  {s s' : Session σ ρ ς} {state : TransactionState} {outcome r : Except TransactionError Unit} {φ : σ → β}

theorem Manager.Working.constant (hw : Working m commit st s state outcome s') (hφ : m.backend.Constant φ) :
    φ s'.native = φ s.native := by
  cases hw with
  | kept | unmarked => rfl
  | savepointReleased _ _ happ => exact observed_of_applied happ fun r n => hφ.releaseSavepoint r _ n
  | committed _ _ _ happ | commitFailed _ _ _ happ => exact observed_of_applied happ hφ.commit
  | commitUndone _ _ _ happ _ hundo =>
    exact (observed_of_applied hundo hφ.rollback).trans (observed_of_applied happ hφ.commit)
  | returnFailed _ _ happ => exact observed_of_applied happ fun r n => hφ.rollbackToSavepoint r _ n
  | returned _ _ happ hrel =>
    refine (observed_of_applied hrel fun r n => hφ.releaseSavepoint r _ n).trans ?_
    rw [native_modifyHolderOf]
    exact observed_of_applied happ fun r n => hφ.rollbackToSavepoint r _ n
  | undone _ _ _ happ => exact observed_of_applied happ hφ.rollback
  | marked => rw [native_modifyHolderOf]

theorem Manager.Concluding.constant (hst : s.status? t = some st) (hc : Concluding m commit c t st s r s')
    (hφ : m.backend.Constant φ) : φ s'.native = φ s.native := by
  obtain ⟨_, _, s₁, _, s₂, hwork, hrel, hn, -⟩ := hc.outline hst hφ.toUntouched
  have hreleased : φ s₂.native = φ s₁.native := hrel.observed hφ.cleanup
  exact (hn.trans hreleased).trans (hwork.constant hφ)

/-- What a call of the manager comes to for the resources of transactions and what is constant of the native
state: nothing, or one transaction more. -/
inductive Manager.Resourced (m : Manager σ ρ ς) (φ : σ → β) (s : Session σ ρ ς) : Session σ ρ ς → Prop
  | kept {s' : Session σ ρ ς} : (∀ h, (s'.holder? h).map Holder.resource = (s.holder? h).map Holder.resource) →
    φ s'.native = φ s.native → Resourced m φ s s'
  | begun {s₁ : Session σ ρ ς} {c : ContextIndex} {d : Definition} {x : Holder ρ} {n : σ} {st : Status ς} :
    (∀ h, (s₁.holder? h).map Holder.resource = (s.holder? h).map Holder.resource) → φ s₁.native = φ s.native →
    m.backend.start d s₁.native = (.ok x.resource, n) →
    Resourced m φ s ((s₁.started c m.backend.key x n).addStatus st).2

theorem Manager.called_resourced (m : Manager σ ρ ς) (hφ : m.backend.Constant φ)
    {act : α → Session σ ρ ς → Session σ ρ ς} (call : ManagerCall α) (hcall : ∀ a, call ≠ .act a) :
    m.Resourced φ s (m.called act s call) := by
  cases call with
  | enter c d =>
    obtain ⟨r, s', hrun, houtline⟩ := getTransaction_outline m c d s hφ.toUntouched
    show m.Resourced φ s (m.getTransaction c d s).2
    rw [hrun]
    cases houtline with
    | failed halike hn => exact .kept halike.steady.holders hn
    | entered halike hn => exact .kept halike.steady.holders hn
    | begun halike hn hstart => exact .begun halike.steady.holders hn hstart
  | conclude commit c t =>
    show m.Resourced φ s (m.conclude commit c t s).2
    rcases conclude_cases m commit c t s with ⟨hrefused, _⟩ | ⟨st, r, s', hst, _, hrun, hc⟩
    · rw [hrefused]
      exact .kept (fun _ => rfl) rfl
    · rw [hrun]
      exact .kept (hc.resources hst) (hc.constant hst hφ)
  | mark t => exact .kept (fun _ => rfl) rfl
  | act a => exact absurd rfl (hcall a)

end Constant

namespace Store

variable {key : ResourceKey} {capabilities : Capabilities} {s s' : Store} {c : ConnectionId}

theorem backend_start_id? {d : Definition} (h : (backend key capabilities).start d s = (.ok c, s'))
    (k : ConnectionId) : s'.id? k = if k = c then some k.number else s.id? k := by
  cases primitive_ok h
  exact id?_connect _ _ _ _ k

/-- No primitive changes the number of a connection. -/
theorem backend_constant (key : ResourceKey) (capabilities : Capabilities) :
    (backend key capabilities).Constant id? := by
  refine ⟨⟨⟨?_, fun r => id?_primitive fun _ => rfl, fun r => id?_primitive fun _ => rfl, fun r => ?_⟩,
    fun r sp => ?_, fun r sp => ?_⟩, fun r => ?_, fun r => ?_, fun r => ?_⟩
  · intro d s f s' h
    rcases primitive_cases .begin (fun s : Store => (.ok (s.connect d.readOnly false d.isolation).1,
      (s.connect d.readOnly false d.isolation).2)) s with hp | hp
    · cases hp.symm.trans h; rfl
    · cases hp.symm.trans h
  · refine id?_primitive fun s => ?_
    cases h : s.savepoint r with
    | error e => rfl
    | ok q =>
      obtain ⟨conn, hu, hq⟩ := except_bind_ok h
      cases hq
      exact id?_setConnection (usable_ok hu).1 _ rfl
  · refine id?_primitive (id?_changing fun s s' h => ?_)
    obtain ⟨_, _, h⟩ := except_bind_ok h
    obtain ⟨conn, hu, h⟩ := except_bind_ok h
    split at h <;> cases h
    exact id?_setConnection (usable_ok hu).1 _ rfl
  · refine id?_primitive fun s => ?_
    cases s.release r sp <;> rfl
  · refine id?_primitive (id?_changing fun s s' h => ?_)
    obtain ⟨conn, hu, hs⟩ := except_bind_ok h
    cases hs
    exact id?_setConnection (usable_ok hu).1 { conn with log := [] } rfl
  · refine id?_primitive (id?_changing fun s s' h => ?_)
    obtain ⟨conn, hu, hs⟩ := except_bind_ok h
    cases hs
    exact id?_setConnection (usable_ok hu).1 { conn with log := [] } rfl
  · exact id?_primitive fun s => id?_close s r

/-- A savepoint carries the number of its connection. -/
theorem backend_createSavepoint_id? {sp : Savepoint}
    (h : (backend key capabilities).createSavepoint c s = (.ok sp, s')) : s.id? c = some sp.connection := by
  obtain ⟨conn, hconn, hid, -⟩ := createSavepoint_ok h
  unfold id?
  rw [hconn, hid]
  rfl

end Store

/-! ## What a client may do to the connections of transactions -/

/-- A change of a session that leaves every transaction its connection and takes nothing from its log. -/
structure Session.Spares (s s' : Session Store ConnectionId Savepoint) : Prop where
  steady : Steady s s'
  logs : ∀ h x, s.holder? h = some x → s.native.log x.resource <+: s'.native.log x.resource
  ids : ∀ h x i, s.holder? h = some x → s.native.id? x.resource = some i → s'.native.id? x.resource = some i

theorem StoreSite.perform_steady {key : ResourceKey} (op : Store → Except StorageError (α × Store))
    (s : Session Store ConnectionId Savepoint) : Steady s ((whole key).perform op s).2 := by
  unfold perform
  cases op ((whole key).store s) with
  | error e => exact .refl s
  | ok q => exact .withNative s q.2

theorem StoreSite.through_steady {op : ConnectionId → Store → Except StorageError (α × Store)} (key : ResourceKey)
    (c : ContextIndex) (s : Session Store ConnectionId Savepoint) : Steady s ((whole key).through c op s).2 := by
  obtain ⟨r, s₁, haccess, hrun⟩ := through_spec key c op s
  have hasked : Steady s s₁ := (Alike.purge s c key).trans (haccess.alike fun _ => rfl)
  rw [hrun]
  cases r with
  | error e => exact hasked
  | ok a =>
    have hdone : Steady s ((whole key).perform (op a.connection) s₁).2 :=
      hasked.trans (perform_steady (op a.connection) s₁)
    cases a with
    | transactional h k => exact hdone
    | autoCommit k => exact hdone.trans (.withNative _ _)

section Ids

variable {key : ResourceKey} {c : ContextIndex} {s : Session Store ConnectionId Savepoint} {k : ConnectionId}
  {i : UInt64}

theorem StoreSite.perform_id? {op : Store → Except StorageError (α × Store)}
    (hop : ∀ n a n', op n = .ok (a, n') → n'.id? = n.id?) :
    ((whole key).perform op s).2.native.id? = s.native.id? := by
  unfold perform
  cases hrun : op ((whole key).store s) with
  | error e => rfl
  | ok q => exact hop _ _ _ hrun

theorem StoreSite.through_id? {op : ConnectionId → Store → Except StorageError (α × Store)}
    (hop : ∀ k n a n', op k n = .ok (a, n') → n'.id? = n.id?) (hid : s.native.id? k = some i) :
    ((whole key).through c op s).2.native.id? k = some i := by
  obtain ⟨r, s₁, haccess, hrun⟩ := through_spec key c op s
  rw [← native_purge s c key] at hid
  have hasked : s₁.native.id? k = some i := by
    cases haccess with
    | refused | timedOut | bound => exact hid
    | alone => exact Store.id?_connect_old hid false true .unspecified
  rw [hrun]
  cases r with
  | error e => exact hasked
  | ok a =>
    have hdone : ((whole key).perform (op a.connection) s₁).2.native.id? = s₁.native.id? :=
      perform_id? (hop a.connection)
    rw [← hdone] at hasked
    cases a with
    | transactional h k => exact hasked
    | autoCommit k' =>
      show (Store.close _ k').id? k = some i
      rw [Store.id?_close]
      exact hasked

theorem Store.id?_data {d : Script.DataStep} {j : ConnectionId} {n n' : Store} {a : Script.Answer}
    (h : d.run j n = .ok (a, n')) : n'.id? = n.id? := by
  rcases data_written h with rfl | ⟨w, hw⟩
  · rfl
  · exact id?_write hw

theorem StagingAct.id? (a : StagingAct) (hid : s.native.id? k = some i) :
    (a.perform key c s).native.id? k = some i := by
  cases a with
  | data d => exact StoreSite.through_id? (fun _ _ _ _ => Store.id?_data) hid
  | direct j d =>
    have hdone : ((StoreSite.whole key).perform (d.run j) s).2.native.id? = s.native.id? :=
      StoreSite.perform_id? fun _ _ _ => Store.id?_data
    exact (congrFun hdone k).trans hid
  | connect readOnly autoCommit isolation => exact Store.id?_connect_old hid readOnly autoCommit isolation
  | store step => cases step <;> exact hid
  | wait now => exact hid

end Ids

theorem StagingAct.steady (key : ResourceKey) (c : ContextIndex) (a : StagingAct)
    (s : Session Store ConnectionId Savepoint) : Steady s (a.perform key c s) := by
  cases a with
  | data d => exact StoreSite.through_steady key c s
  | direct k d => exact StoreSite.perform_steady (d.run k) s
  | connect | store => exact .withNative s _
  | wait now => exact ⟨rfl, fun _ => rfl⟩

theorem StagingAct.spares (key : ResourceKey) (c : ContextIndex) (a : StagingAct)
    (s : Session Store ConnectionId Savepoint) : s.Spares (a.perform key c s) :=
  ⟨a.steady key c s, fun _ x _ => (a.grows key c s).logs x.resource, fun _ _ _ _ => a.id?⟩

/-! ## A connection for every transaction -/

/-- Every transaction has a connection of its own, which shows its own number. -/
structure Housed (s : Session Store ConnectionId Savepoint) : Prop where
  numbered : ∀ h x, s.holder? h = some x → s.native.id? x.resource = some (ConnectionId.number x.resource)
  apart : ∀ h h' x x', s.holder? h = some x → s.holder? h' = some x' → x.resource = x'.resource → h = h'

section Calls

variable {key : ResourceKey} {capabilities : Capabilities} {config : ManagerConfig}
  {s s' : Session Store ConnectionId Savepoint}
  {act : α → Session Store ConnectionId Savepoint → Session Store ConnectionId Savepoint}

theorem Housed.congr (hs : Housed s)
    (hresources : ∀ h, (s'.holder? h).map Holder.resource = (s.holder? h).map Holder.resource)
    (hids : ∀ h x i, s.holder? h = some x → s.native.id? x.resource = some i → s'.native.id? x.resource = some i) :
    Housed s' := by
  have hbefore : ∀ h x', s'.holder? h = some x' → ∃ x, s.holder? h = some x ∧ x.resource = x'.resource := by
    intro h x' hx'
    have heq := hresources h
    rw [hx'] at heq
    exact Option.map_eq_some_iff.1 heq.symm
  constructor
  · intro h x' hx'
    obtain ⟨x, hx, hsame⟩ := hbefore h x' hx'
    rw [← hsame]
    exact hids h x _ hx (hs.numbered h x hx)
  · intro h k x' y' hx' hy' heq
    obtain ⟨x, hx, hsame⟩ := hbefore h x' hx'
    obtain ⟨y, hy, hsame'⟩ := hbefore k y' hy'
    exact hs.apart h k x y hx hy ((hsame.trans heq).trans hsame'.symm)

theorem Housed.started (hs : Housed s) (c : ContextIndex) {d : Definition} {x : Holder ConnectionId} {n : Store}
    (hstart : (Store.backend key capabilities).start d s.native = (.ok x.resource, n)) :
    Housed (s.started c key x n) := by
  have hid := Store.backend_start_id? hstart
  have hnext : s.native.id? x.resource = none := by
    rw [(Store.backend_start hstart).1, Store.id?_next]
  -- the new connection is none of those that there were
  have hfresh : ∀ h y, s.holder? h = some y → y.resource ≠ x.resource := by
    intro h y hy heq
    have hnumber := hs.numbered h y hy
    rw [heq, hnext] at hnumber
    cases hnumber
  constructor
  · intro h y hy
    rw [holder?_started] at hy
    show n.id? y.resource = _
    rw [hid]
    split at hy
    · obtain rfl := Option.some.inj hy
      rw [if_pos rfl]
    · rw [if_neg (hfresh h y hy)]
      exact hs.numbered h y hy
  · intro h k y z hy hz heq
    rw [holder?_started] at hy hz
    split at hy
    · rename_i hh
      obtain rfl := Option.some.inj hy
      split at hz
      · rename_i hk
        exact hh.trans hk.symm
      · exact absurd heq.symm (hfresh k z hz)
    · split at hz
      · obtain rfl := Option.some.inj hz
        exact absurd heq (hfresh h y hy)
      · exact hs.apart h k y z hy hz heq

theorem Housed.resourced (hs : Housed s) (hr : (storeManager key capabilities config).Resourced Store.id? s s') :
    Housed s' := by
  have hkept : ∀ {s₁ : Session Store ConnectionId Savepoint},
      (∀ h, (s₁.holder? h).map Holder.resource = (s.holder? h).map Holder.resource) → s₁.native.id? = s.native.id? →
      Housed s₁ := by
    intro s₁ hresources hid
    refine hs.congr hresources fun h x i _ hnumber => ?_
    rw [hid]
    exact hnumber
  cases hr with
  | kept hresources hid => exact hkept hresources hid
  | @begun s₁ c _ _ _ _ hresources hid hstart =>
    obtain ⟨hnumbered, hapart⟩ := (hkept hresources hid).started c hstart
    exact ⟨hnumbered, hapart⟩

theorem Housed.called (hs : Housed s) (call : ManagerCall α) (hact : ∀ a, call = .act a → Spares s (act a s)) :
    Housed ((storeManager key capabilities config).called act s call) := by
  have hconstant := Store.backend_constant key capabilities
  cases call with
  | enter | conclude | mark =>
    exact hs.resourced (called_resourced (storeManager key capabilities config) hconstant _ nofun)
  | act a => exact hs.congr (hact a rfl).steady.holders (hact a rfl).ids

theorem Housed.calledAll (hs : Housed s) (calls : List (ManagerCall α)) (hact : ∀ a s, Spares s (act a s)) :
    Housed ((storeManager key capabilities config).calledAll act calls s) := by
  induction calls generalizing s with
  | nil => exact hs
  | cons call calls ih => exact ih (hs.called call fun a _ => hact a s)

theorem Housed.ofContexts (contexts : Nat) (store : Store) : Housed (Session.ofContexts contexts store) := by
  constructor
  · intro h x hx
    cases hx
  · intro h k x y hx
    cases hx

end Calls

/-! ## What opening and completing a scope does to logs -/

section Opening

variable {key : ResourceKey} {capabilities : Capabilities}

/-- Opening a scope stages nothing. -/
theorem getTransaction_log (m : Manager Store ConnectionId Savepoint) (hm : m.backend = Store.backend key capabilities)
    (c : ContextIndex) (d : Definition) (s : Session Store ConnectionId Savepoint) :
    (m.getTransaction c d s).2.native.log = s.native.log := by
  obtain ⟨r, s', hrun, houtline⟩ := getTransaction_outline m c d s (by rw [hm]; exact Store.backend_untouched)
  rw [hrun]
  cases houtline with
  | failed _ hn => exact congrArg Prod.fst hn
  | entered _ hn => exact congrArg Prod.fst hn
  | begun _ hn hstart =>
    rw [hm] at hstart
    exact (Store.backend_start hstart).2.2.trans (congrArg Prod.fst hn)

end Opening

/-- The resource of a holder, if there is one. -/
def Session.resource? {σ ρ ς : Type} (s : Session σ ρ ς) (h : Option HolderId) : Option ρ :=
  (h.bind s.holder?).map Holder.resource

theorem Session.resource?_of_holder {σ ρ ς : Type} {s : Session σ ρ ς} {h : HolderId} {x : Holder ρ}
    (hx : s.holder? h = some x) : s.resource? (some h) = some x.resource := by
  unfold resource?
  rw [Option.bind_some, hx]; rfl

theorem Session.Alike.resource? {σ ρ ς : Type} {s s' : Session σ ρ ς} (hs : Steady s s') (h : Option HolderId) :
    s'.resource? h = s.resource? h := by
  unfold Session.resource?
  cases h with
  | none => rfl
  | some h => exact hs.holders h

section Completing

variable {key : ResourceKey} {capabilities : Capabilities} {config : ManagerConfig} {c : ContextIndex}
  {s s' s₁ : Session Store ConnectionId Savepoint} {commit : Bool} {t : StatusId} {st : Status Savepoint}
  {state : TransactionState} {outcome r : Except TransactionError Unit} {h : HolderId}
  {x : Holder ConnectionId} {k : ConnectionId}

theorem Session.log_of_applied {op : ConnectionId → Native Store Unit} {q : Except Failure Unit} {n : Store}
    {h : Option HolderId} (happ : s.applied h op = (q, n)) (hop : ∀ c n, Store.Only c n (op c n).2)
    (hk : s.resource? h ≠ some k) : n.log k = s.native.log k := by
  unfold applied at happ
  unfold Session.resource? at hk
  cases hx : h.bind s.holder? with
  | none =>
    rw [hx] at happ
    cases happ; rfl
  | some x =>
    rw [hx] at happ hk
    have honly := hop x.resource s.native
    rw [show op x.resource s.native = (q, n) from happ] at honly
    refine honly.others k ?_
    rintro rfl
    exact hk rfl

theorem Store.only_rollbackToSavepoint (key : ResourceKey) (capabilities : Capabilities) (sp : Savepoint)
    (c : ConnectionId) (s : Store) : Store.Only c s ((backend key capabilities).rollbackToSavepoint c sp s).2 := by
  rcases backend_rollbackToSavepoint c sp s with
    ⟨f, s', hrun, hsame⟩ | ⟨s', hrun, hsize, hlog⟩
  · rw [hrun]
    exact (Only.refl c s).of_staging hsame
  · rw [hrun]
    refine ⟨hsize, fun k hk => (hlog k).trans (if_neg hk), ?_⟩
    rw [hlog, if_pos rfl]
    exact List.take_prefix _ _

theorem Store.only_releaseSavepoint (key : ResourceKey) (capabilities : Capabilities) (sp : Savepoint)
    (c : ConnectionId) (s : Store) : Store.Only c s ((backend key capabilities).releaseSavepoint c sp s).2 :=
  (Only.refl c s).of_staging (backend_releaseSavepoint c sp s)

theorem Manager.Working.log_other (hw : Working (storeManager key capabilities config) commit st s state outcome s₁)
    (hk : s.resource? st.holder ≠ some k) : s₁.native.log k = s.native.log k := by
  cases hw with
  | kept | unmarked => rfl
  | marked => rw [native_modifyHolderOf]
  | savepointReleased _ _ happ =>
    exact log_of_applied happ (Store.only_releaseSavepoint key capabilities _) hk
  | committed _ _ _ happ | commitFailed _ _ _ happ =>
    exact log_of_applied happ (Store.only_commit key capabilities) hk
  | commitUndone _ _ _ happ _ hundo =>
    exact (log_of_applied hundo (Store.only_rollback key capabilities) hk).trans
      (log_of_applied happ (Store.only_commit key capabilities) hk)
  | undone _ _ _ happ => exact log_of_applied happ (Store.only_rollback key capabilities) hk
  | returnFailed _ _ happ =>
    exact log_of_applied happ (Store.only_rollbackToSavepoint key capabilities _) hk
  | @returned sp n _ _ _ _ happ hrel =>
    have hreset : Steady (s.withNative n) ((s.withNative n).modifyHolderOf st Holder.resetRollbackOnly) :=
      .modifyHolderOf _ st fun _ => rfl
    have hk' : ((s.withNative n).modifyHolderOf st Holder.resetRollbackOnly).resource? st.holder ≠ some k := by
      rw [hreset.resource?]
      exact hk
    refine (log_of_applied hrel (Store.only_releaseSavepoint key capabilities sp) hk').trans ?_
    rw [native_modifyHolderOf]
    exact log_of_applied happ (Store.only_rollbackToSavepoint key capabilities sp) hk

theorem Manager.Releasing.log_other (hr : Releasing (storeManager key capabilities config) c st s r s')
    (hk : s.resource? st.holder ≠ some k) : s'.native.log k = s.native.log k := by
  cases hr with
  | nothing | reference => rfl
  | @transaction h _ s₁ _ n hh _ hun happ =>
    have hgave : Steady s (s₁.modifyHolder h giveUp) :=
      ((Alike.purge s c _).trans hun.alike).trans (.modifyHolder s₁ h fun _ => rfl)
    have hnative : s₁.native = s.native := hun.native.trans (native_purge s c _)
    rw [hh] at hk
    have hk' : (s₁.modifyHolder h giveUp).resource? (some h) ≠ some k := by
      rw [hgave.resource?]
      exact hk
    exact (log_of_applied happ (Store.only_cleanup key capabilities) hk').trans
      (congrArg (fun n : Store => n.log k) hnative)

/-- Completing a scope leaves alone what is staged on every connection but that of its transaction. -/
theorem Manager.Concluding.log_other (hst : s.status? t = some st)
    (hc : Concluding (storeManager key capabilities config) commit c t st s r s')
    (hk : s.resource? st.holder ≠ some k) : s'.native.log k = s.native.log k := by
  obtain ⟨state, _, s₁, _, s₂, hwork, hrel, hn, -⟩ := hc.outline hst Store.backend_untouched
  have hk' : s₁.resource? st.holder ≠ some k := by
    rw [hwork.steady.resource?]
    exact hk
  have hreleased := hrel.log_other (s := s₁.endStatus t state) hk'
  exact ((congrFun (congrArg Prod.fst hn) k).trans hreleased).trans (hwork.log_other hk)

/-- A scope that did not begin its transaction returns to its savepoint if its work is undone and the store
does not refuse that, and otherwise leaves alone what is staged. -/
theorem Manager.Concluding.returns_or_stays (hst : s.status? t = some st)
    (hc : Concluding (storeManager key capabilities config) commit c t st s r s') (hnew : st.newTransaction = false)
    (hh : st.holder = some h) (hx : s.holder? h = some x) :
    (s'.native.log = s.native.log ∧ ∀ sp, st.savepoint = some sp → keepsWork commit st s = false →
      ((Store.backend key capabilities).rollbackToSavepoint x.resource sp s.native).1.isOk = false) ∨
    (∃ sp, st.savepoint = some sp ∧ keepsWork commit st s = false ∧
      ((Store.backend key capabilities).rollbackToSavepoint x.resource sp s.native).1.isOk = true ∧
      ∀ k, s'.native.log k = if k = x.resource then (s.native.log k).take sp.mark else s.native.log k) := by
  obtain ⟨state, _, s₁, _, s₂, hwork, hrel, hn, -⟩ := hc.outline hst Store.backend_untouched
  have hrest : s'.native.log = s₁.native.log := by
    rw [show s'.native.log = s₂.native.log from congrArg Prod.fst hn, hrel.participant hnew]; rfl
  rw [hrest]
  clear hrest hn hrel
  cases hwork with
  | committed _ _ hnew' | commitFailed _ _ hnew' | commitUndone _ _ hnew' | undone _ _ hnew' =>
    rw [hnew] at hnew'; cases hnew'
  | kept hk hsp | marked hk hsp | unmarked hk hsp =>
    refine .inl ⟨by simp, fun sp hsp' => ?_⟩
    rw [hsp] at hsp'; cases hsp'
  | savepointReleased hk _ happ =>
    refine .inl ⟨?_, fun sp _ hk' => ?_⟩
    · exact congrArg Prod.fst (staging_of_applied happ fun k => Store.backend_releaseSavepoint k _)
    · rw [hk] at hk'; cases hk'
  | @returnFailed sp f n hk hsp happ =>
    rw [hh, applied_of_holder hx] at happ
    have happ' : (Store.backend key capabilities).rollbackToSavepoint x.resource sp s.native = (.error f, n) := happ
    refine .inl ⟨?_, fun sp' hsp' _ => ?_⟩
    · rcases Store.backend_rollbackToSavepoint x.resource sp s.native with
        ⟨_, _, hrun, hsame⟩ | ⟨_, hrun, _⟩
      · obtain ⟨-, rfl⟩ := Prod.mk.inj (hrun.symm.trans happ')
        exact congrArg Prod.fst hsame
      · cases (Prod.mk.inj (hrun.symm.trans happ')).1
    · obtain rfl := Option.some.inj (hsp.symm.trans hsp')
      rw [happ']; rfl
  | @returned sp n q n' hk hsp happ hreleased =>
    have hlast := staging_of_applied hreleased fun k => Store.backend_releaseSavepoint k sp
    rw [native_modifyHolderOf] at hlast
    rw [hh, applied_of_holder hx] at happ
    have happ' : (Store.backend key capabilities).rollbackToSavepoint x.resource sp s.native = (.ok (), n) := happ
    refine .inr ⟨sp, hsp, hk, by rw [happ']; rfl, fun k => ?_⟩
    show n'.log k = _
    rw [show n'.log = n.log from congrArg Prod.fst hlast]
    rcases Store.backend_rollbackToSavepoint x.resource sp s.native with
      ⟨_, _, hrun, _⟩ | ⟨_, hrun, _, hlog⟩
    · cases (Prod.mk.inj (hrun.symm.trans happ')).1
    · obtain ⟨-, rfl⟩ := Prod.mk.inj (hrun.symm.trans happ')
      exact hlog k

end Completing

end Demarcation
