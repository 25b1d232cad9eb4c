/-
A transaction that is suspended for a scope is left alone until the scope is completed. Nothing that is
called inside the scope finds its holder or its connection, so that afterwards both are what they were
before, and nothing that is read inside the scope depends on what is staged on that connection.
-/
import Demarcation.Proofs.Placement
import Demarcation.Proofs.Sidelined
import Demarcation.Proofs.Store.Hidden
import Mathlib.Data.List.Induction

namespace Demarcation

open Session Manager

variable {α : Type}

/-! ## Transactions that have begun since -/

/-- The connection has been opened since, and its transaction, if it has one, has begun since. -/
def Access.Since (s : Session Store ConnectionId Savepoint) : Access → Prop
  | .transactional h k => s.holders.size ≤ h ∧ s.native.connections.size ≤ k
  | .autoCommit k => s.native.connections.size ≤ k

theorem Access.Since.connection_le {s : Session Store ConnectionId Savepoint} {a : Access} (ha : a.Since s) :
    s.native.connections.size ≤ a.connection := by
  cases a with
  | transactional h k => exact ha.2
  | autoCommit k => exact ha

/-- In the session `s'`, the transactions that have begun since `s` have connections that were opened since. -/
structure Session.Since (s s' : Session Store ConnectionId Savepoint) : Prop where
  holders : s.holders.size ≤ s'.holders.size
  connections : s.native.connections.size ≤ s'.native.connections.size
  resources : ∀ h x, s'.holder? h = some x → s.holders.size ≤ h → s.native.connections.size ≤ x.resource

/-- No primitive but the beginning of a transaction opens a connection. -/
theorem Store.backend_size (key : ResourceKey) (capabilities : Capabilities) :
    (backend key capabilities).Constant fun n => n.connections.size := by
  have huntouched : (backend key capabilities).Untouched staging := backend_untouched
  refine ⟨⟨⟨fun h => congrArg Prod.snd (huntouched.failed h), fun r n => congrArg Prod.snd (huntouched.suspend r n),
    fun r n => congrArg Prod.snd (huntouched.resume r n),
    fun r n => congrArg Prod.snd (huntouched.createSavepoint r n)⟩, fun r sp n => ?_, fun r sp n => ?_⟩,
    fun r n => ?_, fun r n => ?_, fun r n => ?_⟩
  · exact (only_rollbackToSavepoint key capabilities sp r n).size
  · exact (only_releaseSavepoint key capabilities sp r n).size
  · exact (only_commit key capabilities r n).size
  · exact (only_rollback key capabilities r n).size
  · exact (only_cleanup key capabilities r n).size

namespace Session.Since

variable {key : ResourceKey} {capabilities : Capabilities} {config : ManagerConfig}
  {s s₁ s₂ : Session Store ConnectionId Savepoint}
  {act : α → Session Store ConnectionId Savepoint → Session Store ConnectionId Savepoint}

theorem refl (s : Session Store ConnectionId Savepoint) : Since s s :=
  ⟨Nat.le_refl _, Nat.le_refl _, fun _ _ hx hle => absurd (holder?_lt hx) (Nat.not_lt.2 hle)⟩

theorem congr (hs : Since s s₁)
    (hresources : ∀ h, (s₂.holder? h).map Holder.resource = (s₁.holder? h).map Holder.resource)
    (hsize : s₁.native.connections.size ≤ s₂.native.connections.size) : Since s s₂ := by
  refine ⟨?_, Nat.le_trans hs.connections hsize, fun h x hx hle => ?_⟩
  · rw [holders_size_of_alike hresources]
    exact hs.holders
  have heq := hresources h
  rw [hx] at heq
  obtain ⟨x', hx', hres⟩ := Option.map_eq_some_iff.1 heq.symm
  exact hres ▸ hs.resources h x' hx' hle

theorem started (hs : Since s s₁) (c : ContextIndex) {d : Definition} {x : Holder ConnectionId} {n : Store}
    (hstart : (Store.backend key capabilities).start d s₁.native = (.ok x.resource, n)) :
    Since s (s₁.started c key x n) := by
  obtain ⟨hnext, hsize, -⟩ := Store.backend_start hstart
  refine ⟨?_, ?_, fun h y hy hle => ?_⟩
  · rw [started_size]
    exact Nat.le_succ_of_le hs.holders
  · show _ ≤ n.connections.size
    rw [hsize]
    exact Nat.le_succ_of_le hs.connections
  · rw [holder?_started] at hy
    split at hy
    · obtain rfl := Option.some.inj hy
      rw [hnext]
      exact hs.connections
    · exact hs.resources h y hy hle

theorem resourced (hs : Since s s₁)
    (hr : (storeManager key capabilities config).Resourced (fun n => n.connections.size) s₁ s₂) : Since s s₂ := by
  cases hr with
  | kept hresources hn => exact hs.congr hresources (Nat.le_of_eq hn.symm)
  | @begun _ c _ _ _ _ hresources hn hstart =>
    -- both the holder and its connection are new
    have hbegun := (hs.congr hresources (Nat.le_of_eq hn.symm)).started c hstart
    exact ⟨hbegun.holders, hbegun.connections, hbegun.resources⟩

theorem called (hs : Since s s₁) (call : ManagerCall α)
    (hact : ∀ a, call = .act a → Steady s₁ (act a s₁) ∧
      s₁.native.connections.size ≤ (act a s₁).native.connections.size) :
    Since s ((storeManager key capabilities config).called act s₁ call) := by
  have hconstant := Store.backend_size key capabilities
  cases call with
  | enter | conclude | mark =>
    exact hs.resourced (called_resourced (storeManager key capabilities config) hconstant _ nofun)
  | act a => exact hs.congr (hact a rfl).1.holders (hact a rfl).2

theorem calledAll (hs : Since s s₁) (calls : List (ManagerCall α))
    (hact : ∀ a s, Steady s (act a s) ∧ s.native.connections.size ≤ (act a s).native.connections.size) :
    Since s ((storeManager key capabilities config).calledAll act calls s₁) := by
  induction calls generalizing s₁ with
  | nil => exact hs
  | cons call calls ih => exact ih (hs.called call fun a _ => hact a s₁)

end Session.Since

/-! ## What a client does in a context -/

section Acts

variable {key : ResourceKey} {capabilities : Capabilities} {config : ManagerConfig} {c : ContextIndex}
  {s s' : Session Store ConnectionId Savepoint} {n : Nest Store ConnectionId Savepoint}
  {s₀ : Session Store ConnectionId Savepoint} {base : Option HolderId} {h : HolderId} {k j : ConnectionId}

/-- Behind the look-up of the connection, no holder changes. -/
theorem StoreSite.holder?_through {op : ConnectionId → Store → Except StorageError (α × Store)} (h : HolderId) :
    ((whole key).through c op s).2.holder? h = ((whole key).access c s).2.holder? h := by
  rw [through_eq]
  rcases (whole key).access c s with ⟨_ | a, s₁⟩
  · rfl
  · have hdone : ((whole key).perform (op a.connection) s₁).2.holder? h = s₁.holder? h := by
      unfold perform
      cases op a.connection ((whole key).store s₁) <;> rfl
    cases a <;> exact hdone

theorem Store.log_data_other {d : Script.DataStep} {a : Script.Answer} {n n' : Store} (hd : d.run j n = .ok (a, n'))
    (hk : k ≠ j) : n'.log k = n.log k := by
  rcases data_written hd with rfl | ⟨w, hw⟩
  · rfl
  · unfold write at hw
    split at hw
    · cases hw
    · obtain ⟨conn, hu, hw⟩ := except_bind_ok hw
      split at hw <;> cases hw
      · rfl
      · rw [log_setConnection (usable_ok hu).1, if_neg hk]

theorem StoreSite.perform_log {d : Script.DataStep} (hk : k ≠ j) :
    ((whole key).perform (d.run j) s).2.native.log k = s.native.log k := by
  unfold perform
  cases hd : d.run j ((whole key).store s) with
  | error e => rfl
  | ok q => exact Store.log_data_other hd hk

theorem StoreSite.Accessing.log {r : Except StorageError Access} (ha : Accessing s r s') :
    s'.native.log = s.native.log := by
  cases ha with
  | refused | timedOut | bound => rfl
  | alone => exact funext fun k => Store.log_connect s.native false true .unspecified k

/-- Working on one connection leaves alone what is staged on the others. -/
theorem StoreSite.through_log {d : Script.DataStep}
    (haccess : ∀ a, ((whole key).access c s).1 = .ok a → a.connection ≠ k) :
    ((whole key).through c d.run s).2.native.log k = s.native.log k := by
  obtain ⟨r, s₁, hrun, hasked⟩ := access_spec key c s
  have hlog : s₁.native.log k = s.native.log k := by
    rw [hasked.log, native_purge]
  rw [hrun] at haccess
  rw [through_eq, hrun]
  cases r with
  | error e => exact hlog
  | ok a =>
    have hne : k ≠ a.connection := (haccess a rfl).symm
    have hdone : ((whole key).perform (d.run a.connection) s₁).2.native.log k = s.native.log k :=
      (perform_log hne).trans hlog
    cases a with
    | transactional => exact hdone
    -- what is closed is the connection that was worked on
    | autoCommit j => exact ((Store.Only.close _ j).others k hne).trans hdone

/-- A context works on the connection of the transaction that is bound there, or on a fresh one. -/
theorem NestedOn.access (hn : NestedOn (storeManager key capabilities config) c base s₀ n) :
    (n.session.bound c key = none ∧ (StoreSite.whole key).access c n.session =
      (.ok (.autoCommit n.session.native.connections.size),
        n.session.withNative (n.session.native.connect false true .unspecified).2)) ∨
    ∃ h x r y, n.session.bound c key = some h ∧ n.session.holder? h = some x ∧
      (StoreSite.whole key).access c n.session = (r, n.session.modifyHolder h fun _ => y) ∧
      ∀ a, r = .ok a → a = .transactional h x.resource := by
  obtain ⟨r, hfind, hlook⟩ := find_spec n.session c StoreSite.kind key
  have hpurge : n.session.purge c key = n.session := hn.purge_eq
  rw [hpurge] at hfind hlook
  cases hlook with
  | unbound hb => exact .inl ⟨hb, StoreSite.access_alone hfind⟩
  | live hb hx =>
    obtain ⟨r, y, hrun, -, hanswer⟩ := StoreSite.access_bound hfind hx
    exact .inr ⟨_, _, r, y, hb, hx, hrun, hanswer⟩
  | foreign _ hb hx _ hk =>
    -- what nested scopes bind is of the manager's kind
    obtain ⟨y, hy, -, hkind⟩ := hn.stacked.live hb
    obtain rfl := Option.some.inj (hy.symm.trans hx)
    exact absurd hkind hk

/-- Working through a context touches no holder but the bound one. -/
theorem StagingAct.holder?_unbound (hn : NestedOn (storeManager key capabilities config) c base s₀ n)
    (hb : n.session.bound c key ≠ some h) (a : StagingAct) :
    (a.perform key c n.session).holder? h = n.session.holder? h := by
  cases a with
  | data d =>
    show ((StoreSite.whole key).through c d.run n.session).2.holder? h = _
    rw [StoreSite.holder?_through]
    rcases hn.access with ⟨-, hrun⟩ | ⟨j, _, _, _, hj, -, hrun, -⟩
    · rw [hrun]; rfl
    · rw [hrun]
      refine holder?_modifyHolder_ne ?_ _ _
      rintro rfl
      exact hb hj
  | direct j d =>
    unfold perform StoreSite.perform
    dsimp only
    cases d.run j ((StoreSite.whole key).store n.session) <;> rfl
  | connect => rfl
  | store step => rfl
  | wait now => rfl

theorem StagingAct.log_other (a : StagingAct) (hdirect : ∀ d, a ≠ .direct k d)
    (haccess : ∀ a, ((StoreSite.whole key).access c s).1 = .ok a → a.connection ≠ k) :
    (a.perform key c s).native.log k = s.native.log k := by
  cases a with
  | data d => exact StoreSite.through_log haccess
  | direct j d =>
    refine StoreSite.perform_log ?_
    rintro rfl
    exact hdirect d rfl
  | connect readOnly autoCommit isolation => exact Store.log_connect s.native readOnly autoCommit isolation k
  | store step => cases step <;> rfl
  | wait now => rfl

/-- Working through a context binds and suspends nothing. -/
theorem StagingAct.eased (key : ResourceKey) (c : ContextIndex) (a : StagingAct)
    (s : Session Store ConnectionId Savepoint) : Eased key s (a.perform key c s) := by
  cases a with
  | data d => exact (Eased.purge s c).trans (.of_quiet (data_onward key c d s).quiet)
  | direct k d => exact .of_quiet (StoreSite.perform_onward (fun _ _ _ => .data) s).quiet
  | connect | store | wait => exact .of_quiet ⟨rfl, fun _ => rfl, fun _ => rfl⟩

theorem Session.Since.staged {s : Session Store ConnectionId Savepoint} (hs : s.Since n.session)
    (call : ScopeCall StagingAct) :
    s.Since (n.step (storeManager key capabilities config) c (StagingAct.perform key c) call).session := by
  rw [← n.calledAll_step]
  exact hs.calledAll _ fun a s => ⟨a.steady key c s, (a.grows key c s).size⟩

theorem NestedOn.staged (hn : NestedOn (storeManager key capabilities config) c base s₀ n)
    (call : ScopeCall StagingAct) : NestedOn (storeManager key capabilities config) c base s₀
      (n.step (storeManager key capabilities config) c (StagingAct.perform key c) call) :=
  hn.step _ call fun a _ => (a.onward hn.purge_eq).quiet

end Acts

/-! ## Inside a scope that suspends a transaction -/

/-- What holds inside a scope `t` that suspended what was bound in the session `s`: what is bound, and what
will be bound again as long as the scope is open, has begun since. -/
structure Nest.Aside (m : Manager Store ConnectionId Savepoint) (c : ContextIndex)
    (s : Session Store ConnectionId Savepoint) (t : StatusId) (n : Nest Store ConnectionId Savepoint) : Prop where
  nested : NestedOn m c (s.bound c m.backend.key) s n
  since : s.Since n.session
  bound : ∀ h, n.session.bound c m.backend.key = some h → s.holders.size ≤ h
  scopes : ∃ inner, n.scopes = inner ++ [⟨t, s⟩] ∧ ∀ x ∈ inner, ∀ h, x.before m c = some h → s.holders.size ≤ h

namespace Nest.Aside

variable {key : ResourceKey} {capabilities : Capabilities} {config : ManagerConfig} {c : ContextIndex}
  {s s' : Session Store ConnectionId Savepoint} {t : StatusId} {n : Nest Store ConnectionId Savepoint} {h : HolderId}
  {k : ConnectionId}

/-- A scope that suspends a live transaction has nothing inside yet. -/
theorem start {d : Definition} (hd : d.propagation = .requiresNew ∨ d.propagation = .notSupported)
    (hplaced : Placed key s) (hb : s.bound c key = some h) {x : Holder ConnectionId} (hx : s.holder? h = some x)
    (hl : x.cleared = false) (hrun : (storeManager key capabilities config).getTransaction c d s = (.ok t, s')) :
    Nest.Aside (storeManager key capabilities config) c s t ⟨s', [⟨t, s⟩]⟩ ∧
      (s'.holder? h).map Holder.resumed = (s.holder? h).map Holder.resumed := by
  have hc : c < s.registries.size :=
    registries_lt (show s.bound c (storeManager key capabilities config).backend.key = some h from hb)
  obtain ⟨r, s₁, hrun', hopen⟩ := getTransaction_spec (storeManager key capabilities config) c d s
  obtain ⟨rfl, rfl⟩ := Prod.mk.inj (hrun'.symm.trans hrun)
  rw [show s.purge c (storeManager key capabilities config).backend.key = s from purge_of_live hb hx hl] at hopen
  obtain ⟨hlive, hbound, hholder⟩ := hopen.suspends hc hb hd
  -- the nest starts on top of what is bound, not from nothing
  have hnested : NestedOn (storeManager key capabilities config) c (s.bound c key) s ⟨s, []⟩ := by
    refine .start hc (fun k hk => ?_) fun k y hk hy => hplaced.attached c k y hk hy
    obtain rfl := Option.some.inj (hb.symm.trans hk)
    exact hlive
  have hopened : Nest.step (storeManager key capabilities config) c (StagingAct.perform key c) ⟨s, []⟩ (.enter d) =
      ⟨s₁, [⟨t, s⟩]⟩ := congrArg (Nest.entered ⟨s, []⟩) hrun
  have hfirst := hnested.staged (.enter d)
  have hsince : s.Since (Nest.step (storeManager key capabilities config) c (StagingAct.perform key c) ⟨s, []⟩
      (.enter d)).session := (Since.refl s).staged (.enter d)
  rw [hopened] at hfirst hsince
  exact ⟨⟨hfirst, hsince, fun k hk => Nat.le_of_eq (hbound k hk).symm, [], rfl, nofun⟩, hholder⟩

section Calls

variable (ha : n.Aside (storeManager key capabilities config) c s t)
include ha

theorem access {a : Access} (hanswer : ((StoreSite.whole key).access c n.session).1 = .ok a) : a.Since s := by
  rcases ha.nested.access with ⟨-, hrun⟩ | ⟨h, x, r, y, hb, hx, hrun, honly⟩
  · rw [hrun] at hanswer
    cases hanswer
    exact ha.since.connections
  · rw [hrun] at hanswer
    obtain rfl := honly a hanswer
    exact ⟨ha.bound h hb, ha.since.resources h x hx (ha.bound h hb)⟩

/-- The connection that a context works on has been opened since. -/
theorem access_ne (hk : k < s.native.connections.size) (a : Access)
    (hanswer : ((StoreSite.whole key).access c n.session).1 = .ok a) : a.connection ≠ k := by
  rintro rfl
  exact absurd (ha.access hanswer).connection_le (Nat.not_le.2 hk)

theorem resource_ne (hk : k < s.native.connections.size) (j : HolderId) (x : Holder ConnectionId)
    (hj : n.session.bound c key = some j) (hx : n.session.holder? j = some x) : x.resource ≠ k := by
  rintro rfl
  exact absurd (ha.since.resources j x hx (ha.bound j hj)) (Nat.not_le.2 hk)

/-- The innermost scope has no transaction on an older connection. -/
theorem innermost (hk : k < s.native.connections.size) {x : OpenScope Store ConnectionId Savepoint}
    {rest : List (OpenScope Store ConnectionId Savepoint)} (hscopes : n.scopes = x :: rest) :
    ∃ st, n.session.status? x.status = some st ∧ st.isCompleted = false ∧
      n.session.resource? st.holder ≠ some k := by
  obtain ⟨st, hst, hopen, hbound⟩ := ha.nested.innermost hscopes
  refine ⟨st, hst, hopen, fun hres => ?_⟩
  obtain ⟨y, hy, hres⟩ := Option.map_eq_some_iff.1 hres
  obtain ⟨j, hj, hy⟩ := Option.bind_eq_some_iff.1 hy
  exact ha.resource_ne hk j y (hbound j hj) hy hres

/-! ### What one call keeps -/

theorem holder (hlt : h < s.holders.size) (call : ScopeCall StagingAct) :
    ((n.step (storeManager key capabilities config) c (StagingAct.perform key c) call).session.holder? h).map
      Holder.resumed = (n.session.holder? h).map Holder.resumed := by
  have hb : n.session.bound c key ≠ some h := fun hb => absurd (ha.bound h hb) (Nat.not_le.2 hlt)
  exact ha.nested.resumed_unbound call (fun a _ => StagingAct.holder?_unbound ha.nested hb a) hb
    (Nat.lt_of_lt_of_le hlt ha.since.holders)

theorem log (hk : k < s.native.connections.size) (call : ScopeCall StagingAct)
    (hdirect : ∀ d, call ≠ .act (.direct k d)) :
    (n.step (storeManager key capabilities config) c (StagingAct.perform key c) call).session.native.log k =
      n.session.native.log k := by
  cases call with
  | enter d => rw [Nest.session_enter, getTransaction_log _ rfl]
  | leave commit =>
    cases hscopes : n.scopes with
    | nil => rw [Nest.step_leave_nil hscopes]
    | cons x rest =>
      obtain ⟨st, hst, hopen, hres⟩ := ha.innermost hk hscopes
      obtain ⟨r, s', hrun, hc⟩ := conclude_spec (storeManager key capabilities config) commit c hst hopen
      rw [Nest.step_leave_cons hscopes]
      dsimp only
      rw [hrun]
      exact hc.log_other hst hres
  | mark t => rfl
  | act a =>
    refine a.log_other ?_ (ha.access_ne hk)
    rintro d rfl
    exact hdirect d rfl

/-- A call that does not leave the scope is one inside it. -/
theorem step (call : ScopeCall StagingAct)
    (hin : (n.step (storeManager key capabilities config) c (StagingAct.perform key c) call).scopes ≠ []) :
    (n.step (storeManager key capabilities config) c (StagingAct.perform key c) call).Aside
      (storeManager key capabilities config) c s t := by
  have hnested := ha.nested.staged call
  have hsince : s.Since
      (n.step (storeManager key capabilities config) c (StagingAct.perform key c) call).session :=
    ha.since.staged call
  obtain ⟨inner, hinner, hbefore⟩ := ha.scopes
  cases call with
  | enter d =>
    obtain ⟨r, s', hrun, hopen⟩ := getTransaction_spec (storeManager key capabilities config) c d n.session
    rw [ha.nested.purge_eq] at hopen
    refine ⟨hnested, hsince, fun h hb => ?_, ?_⟩
    · have hb' : s'.bound c key = some h := by
        rw [← hb, Nest.session_enter, hrun]
        rfl
      rcases hopen.bound_new ha.nested.context hb' with hold | rfl
      · exact ha.bound h hold
      · exact ha.since.holders
    · show ∃ inner, (n.entered ((storeManager key capabilities config).getTransaction c d n.session)).scopes = _ ∧ _
      rw [hrun]
      cases r with
      | error e => exact ⟨inner, hinner, hbefore⟩
      | ok u =>
        refine ⟨⟨u, n.session⟩ :: inner, congrArg (List.cons _) hinner, fun x hx h hb => ?_⟩
        rcases List.mem_cons.1 hx with rfl | hx
        · exact ha.bound h hb
        · exact hbefore x hx h hb
  | leave commit =>
    rcases n with ⟨s₁, _ | ⟨x, rest⟩⟩
    · exact ha
    · cases inner with
      | nil =>
        -- the scope itself would be left
        exact absurd (List.cons.inj hinner).2 hin
      | cons z inner =>
        obtain ⟨rfl, hrest⟩ := List.cons.inj hinner
        have hback := (ha.nested.closed commit).bound c key
        rw [if_pos ⟨rfl, rfl⟩] at hback
        refine ⟨hnested, hsince, fun h hb => ?_, inner, hrest, fun y hy => hbefore y (List.mem_cons_of_mem _ hy)⟩
        exact hbefore x (List.mem_cons_self ..) h (hback.symm.trans hb)
  | mark t => exact ⟨hnested, hsince, ha.bound, inner, hinner, hbefore⟩
  | act a =>
    refine ⟨hnested, hsince, fun h hb => ?_, inner, hinner, hbefore⟩
    have hquiet : Quiet n.session (a.perform key c n.session) := (a.onward ha.nested.purge_eq).quiet
    exact ha.bound h ((hquiet.bound c key).symm.trans hb)

/-- Leaving the scope binds again what was bound before it was opened. -/
theorem bound_leave (hlength : n.scopes.length = 1) (commit : Bool) :
    (n.step (storeManager key capabilities config) c (StagingAct.perform key c) (.leave commit)).session.bound c key =
      s.bound c key := by
  obtain ⟨inner, hinner, -⟩ := ha.scopes
  obtain rfl : inner = [] := by
    rw [hinner, List.length_append, List.length_singleton] at hlength
    exact List.eq_nil_of_length_eq_zero (Nat.succ.inj hlength)
  rcases n with ⟨s₁, scopes⟩
  obtain rfl : scopes = [⟨t, s⟩] := hinner
  exact ((ha.nested.closed commit).bound c key).trans (if_pos ⟨rfl, rfl⟩)

end Calls

end Nest.Aside

/-! ## Runs -/

/-- Along the calls there is always an open scope. -/
def Nest.Inside {σ ρ ς : Type} (m : Manager σ ρ ς) (c : ContextIndex) (act : α → Session σ ρ ς → Session σ ρ ς)
    (n : Nest σ ρ ς) (calls : List (ScopeCall α)) : Prop :=
  ∀ calls', calls' <+: calls → (n.run m c act calls').scopes ≠ []

/-- The same scopes are open, in sessions that differ at most in what is staged on a connection. -/
structure Nest.SameBut (k : ConnectionId) (n n' : Nest Store ConnectionId Savepoint) : Prop where
  session : n.session.SameBut k n'.session
  scopes : n'.scopes.map OpenScope.status = n.scopes.map OpenScope.status

section Runs

variable {key : ResourceKey} {capabilities : Capabilities} {config : ManagerConfig} {c : ContextIndex}
  {s : Session Store ConnectionId Savepoint} {t : StatusId} {n n' : Nest Store ConnectionId Savepoint} {h : HolderId}
  {k : ConnectionId}

theorem Nest.SameBut.entered (hs : n.SameBut k n')
    {r r' : Except TransactionError StatusId × Session Store ConnectionId Savepoint} (hanswer : r'.1 = r.1)
    (hsession : r.2.SameBut k r'.2) : (n.entered r).SameBut k (n'.entered r') := by
  rcases r with ⟨r, s₁⟩
  rcases r' with ⟨r', s₁'⟩
  obtain rfl : r' = r := hanswer
  cases r' with
  | error e => exact ⟨hsession, hs.scopes⟩
  | ok t => exact ⟨hsession, congrArg (List.cons t) hs.scopes⟩

/-- Inside the scope, two runs that differ in what is staged on an older connection differ in nothing else. -/
theorem Nest.Aside.sameBut (ha : n.Aside (storeManager key capabilities config) c s t)
    (hk : k < s.native.connections.size) (hs : n.SameBut k n') (call : ScopeCall StagingAct)
    (hdirect : ∀ d, call ≠ .act (.direct k d)) :
    (n.step (storeManager key capabilities config) c (StagingAct.perform key c) call).SameBut k
      (n'.step (storeManager key capabilities config) c (StagingAct.perform key c) call) := by
  cases call with
  | enter d =>
    obtain ⟨hanswer, hsession⟩ := hs.session.getTransaction capabilities config c d
      fun _ h x hb hx => ha.resource_ne hk h x hb hx
    exact hs.entered hanswer hsession
  | leave commit =>
    cases hscopes : n.scopes with
    | nil =>
      have hscopes' : n'.scopes = [] := by simpa [hscopes] using hs.scopes
      rw [Nest.step_leave_nil hscopes, Nest.step_leave_nil hscopes']
      exact hs
    | cons x rest =>
      obtain ⟨st, hst, hopen, hres⟩ := ha.innermost hk hscopes
      obtain ⟨x', rest', hscopes', hx', hrest'⟩ := List.map_eq_cons_iff.1 (hs.scopes.trans (congrArg _ hscopes))
      rw [Nest.step_leave_cons hscopes, Nest.step_leave_cons hscopes', hx']
      exact ⟨hs.session.conclude capabilities config c hst hopen hres commit, hrest'⟩
  | mark t => exact ⟨congrArg (Session.setRollbackOnly · t) hs.session.seen, hs.scopes⟩
  | act a =>
    refine ⟨StagingAct.sameBut hs.session a ?_ (ha.access_ne hk), hs.scopes⟩
    rintro d rfl
    exact hdirect d rfl

theorem Nest.Inside.of_prefix {m : Manager Store ConnectionId Savepoint}
    {act : α → Session Store ConnectionId Savepoint → Session Store ConnectionId Savepoint}
    {calls calls' : List (ScopeCall α)} (hin : n.Inside m c act calls) (hcut : calls' <+: calls) :
    n.Inside m c act calls' := fun _ h => hin _ (h.trans hcut)

/-- Runs inside the scope leave alone the holders and the connections that there were before, and do not
depend on what is staged there. -/
theorem Nest.Aside.run (ha : n.Aside (storeManager key capabilities config) c s t)
    (hlt : h < s.holders.size) (hk : k < s.native.connections.size) (hs : n.SameBut k n')
    (calls : List (ScopeCall StagingAct))
    (hin : n.Inside (storeManager key capabilities config) c (StagingAct.perform key c) calls)
    (hdirect : ∀ d, .act (.direct k d) ∉ calls) :
    let last := n.run (storeManager key capabilities config) c (StagingAct.perform key c) calls
    let last' := n'.run (storeManager key capabilities config) c (StagingAct.perform key c) calls
    last.Aside (storeManager key capabilities config) c s t ∧
      (last.session.holder? h).map Holder.resumed = (n.session.holder? h).map Holder.resumed ∧
      last.session.native.log k = n.session.native.log k ∧ last.SameBut k last' := by
  -- on the last call, since a prefix of calls inside the scope is inside it too
  induction calls using List.reverseRecOn with
  | nil => exact ⟨ha, rfl, rfl, hs⟩
  | append_singleton calls call ih =>
    have hin' := hin _ (List.prefix_refl _)
    have hother : ∀ d, call ≠ .act (.direct k d) := by
      rintro d rfl
      exact hdirect d (List.mem_append_right _ (List.mem_singleton_self _))
    obtain ⟨haside, hholder, hlog, hsame⟩ := ih (hin.of_prefix (List.prefix_append ..))
      fun d hd => hdirect d (List.mem_append_left _ hd)
    unfold Nest.run at hin' haside hholder hlog hsame ⊢
    rw [List.foldl_append] at hin' ⊢
    rw [List.foldl_append]
    exact ⟨haside.step call hin', (haside.holder hlt call).trans hholder, (haside.log hk call hother).trans hlog,
      haside.sameBut hk hsame call hother⟩

end Runs

/-- Suspension is transparent, for every configuration of a manager, whatever is called in any contexts before
a scope suspends the live transaction of a context, and any run of nested scopes inside that scope, whatever
fails, if the client does not itself work on the connection of the suspended transaction. Completing the scope
binds the transaction again, with its holder and its log as they were just before the scope was opened. At any
time inside the scope, an access to data through the context goes to a connection that was opened since, for a
transaction that began since if for any, and answers the same for any log of the suspended transaction. -/
theorem suspension_transparent (key : ResourceKey) (capabilities : Capabilities) (config : ManagerConfig)
    (contexts : Nat) (store : Store) (before : List (ManagerCall (ContextIndex × StagingAct))) (c : ContextIndex)
    (h : HolderId) (x : Holder ConnectionId) (d : Definition)
    (hd : d.propagation = .requiresNew ∨ d.propagation = .notSupported) (inside : List (ScopeCall StagingAct)) :
    let m := storeManager key capabilities config
    let act := StagingAct.perform key c
    let s := m.calledAll (fun p s => p.2.perform key p.1 s) before (Session.ofContexts contexts store)
    let n := Nest.step m c act ⟨s, []⟩ (.enter d)
    s.bound c key = some h → s.holder? h = some x → x.cleared = false → n.Inside m c act inside →
    (∀ e, .act (.direct x.resource e) ∉ inside) →
    ((n.run m c act inside).scopes.length = 1 → ∀ commit,
      let s' := ((n.run m c act inside).step m c act (.leave commit)).session
      s'.bound c key = some h ∧ s'.holder? h = some x ∧ s'.native.log x.resource = s.native.log x.resource) ∧
    ∀ calls, calls <+: inside → ∀ log,
      let s₁ := (n.run m c act calls).session
      let n' := Nest.step m c act ⟨s.withNative (s.native.restage x.resource log), []⟩ (.enter d)
      let s₂ := (n'.run m c act calls).session
      (∀ a, ((StoreSite.whole key).access c s₁).1 = .ok a → a.Since s) ∧
        ∀ e : Script.DataStep,
          ((StoreSite.whole key).through c e.run s₂).1 = ((StoreSite.whole key).through c e.run s₁).1 := by
  intro m act s n hb hx hl hin hdirect
  have hspares : ∀ (p : ContextIndex × StagingAct) s, Spares s (p.2.perform key p.1 s) :=
    fun p s => p.2.spares key p.1 s
  have hplaced : Placed key s :=
    (Placed.start (fun c => bound_ofContexts contexts store c key) fun _ => rfl).calledAll (m := m) before
      fun p s => p.2.eased key p.1 s
  have hhoused : Housed s := (Housed.ofContexts contexts store).calledAll before hspares
  have hlt : h < s.holders.size := holder?_lt hx
  have hk : x.resource < s.native.connections.size := Store.id?_lt (hhoused.numbered h x hx)
  have hattached : x.suspended = false := hplaced.attached c h x hb hx
  clear_value s
  -- a scope is open inside, so that the opening has succeeded
  obtain ⟨t, s₁, hrun⟩ : ∃ t s₁, m.getTransaction c d s = (.ok t, s₁) := by
    have hopen : (Nest.entered ⟨s, []⟩ (m.getTransaction c d s)).scopes ≠ [] := hin [] List.nil_prefix
    rcases hrun : m.getTransaction c d s with ⟨e | t, s₁⟩
    · rw [hrun] at hopen
      exact absurd rfl hopen
    · exact ⟨t, s₁, rfl⟩
  have hn : n = ⟨s₁, [⟨t, s⟩]⟩ := congrArg (Nest.entered ⟨s, []⟩) hrun
  obtain ⟨haside, hholder⟩ := Nest.Aside.start hd hplaced hb hx hl hrun
  have hlog : s₁.native.log x.resource = s.native.log x.resource := by
    rw [show s₁ = (m.getTransaction c d s).2 from (congrArg Prod.snd hrun).symm, getTransaction_log _ rfl]
  -- nor does the opening depend on the log
  have hopened : ∀ log, n.SameBut x.resource
      (Nest.step m c act ⟨s.withNative (s.native.restage x.resource log), []⟩ (.enter d)) := by
    intro log
    have hsame : SameBut x.resource s (s.withNative (s.native.restage x.resource log)) := .restage s x.resource log
    obtain ⟨hanswer, hsession⟩ := hsame.getTransaction capabilities config c d
      fun hp => by rcases hd with hd | hd <;> cases hd.symm.trans hp
    have hnests : Nest.SameBut x.resource ⟨s, []⟩ ⟨s.withNative (s.native.restage x.resource log), []⟩ := ⟨hsame, rfl⟩
    exact hnests.entered hanswer hsession
  clear_value n
  subst hn
  constructor
  · intro hlength commit
    obtain ⟨hinside, hholder', hlog', -⟩ := haside.run hlt hk (hopened []) inside hin hdirect
    have hcompleted := (hinside.holder hlt (.leave commit)).trans (hholder'.trans hholder)
    have hstays := (hinside.log hk (.leave commit) nofun).trans (hlog'.trans hlog)
    have hback := (hinside.bound_leave hlength commit).trans hb
    rw [hx] at hcompleted
    obtain ⟨y, hy, hresumed⟩ := Option.map_eq_some_iff.1 hcompleted
    -- attached before and after, the holder is the same
    have hattached' := (hinside.nested.staged (.leave commit)).attached h y hback hy
    rw [Holder.resumed_of_attached hattached', Holder.resumed_of_attached hattached] at hresumed
    exact ⟨hback, hresumed ▸ hy, hstays⟩
  · intro calls hcut log
    obtain ⟨hinside, -, -, hsame⟩ := haside.run hlt hk (hopened log) calls (hin.of_prefix hcut)
      fun e he => hdirect e (hcut.subset he)
    exact ⟨fun a => hinside.access, fun e =>
      (StoreSite.through_sameBut hsame.session (fun j hj n => Store.data_restage hj e) (hinside.access_ne hk)).1⟩

/-- Inside a new transaction, a nested scope and a joined one are rolled back. The suspended transaction keeps
what it has staged, which is not seen inside. -/
theorem suspension_transparent_over_failures :
    let m := storeManager ⟨7⟩ .all {}
    let act := StagingAct.perform ⟨7⟩ 0
    let s := m.calledAll (fun (p : ContextIndex × StagingAct) s => p.2.perform ⟨7⟩ p.1 s)
      [.enter 0 {}, .act (0, .data (.put "a" .null))] (Session.ofContexts 1 { key := ⟨7⟩ })
    let inside := [.act (.data (.put "b" .null)), .enter { propagation := .nested },
      .act (.data (.put "c" .null)), .leave false, .enter {}, .leave false]
    let n := Nest.step m 0 act ⟨s, []⟩ (.enter { propagation := .requiresNew })
    let n' := Nest.step m 0 act ⟨s.withNative (s.native.restage 0 []), []⟩ (.enter { propagation := .requiresNew })
    let s' := ((n.run m 0 act inside).step m 0 act (.leave true)).session
    (s.native.log 0).map Write.key = ["a"] ∧ s'.holder? 0 = s.holder? 0 ∧ s'.native.log 0 = s.native.log 0 ∧
      ((StoreSite.whole ⟨7⟩).through 0 (Script.DataStep.get "a").run (n'.run m 0 act inside).session).1 =
        ((StoreSite.whole ⟨7⟩).through 0 (Script.DataStep.get "a").run (n.run m 0 act inside).session).1 := by
  intro m act s inside n n' s'
  have hstaged : (s.native.log 0).map Write.key = ["a"] := by decide +kernel
  have hbound : s.bound 0 ⟨7⟩ = some 0 := by decide +kernel
  have hfields : (s.holder? 0).map (fun x => (x.cleared, x.resource)) = some (false, 0) := by decide +kernel
  have hlength : (n.run m 0 act inside).scopes.length = 1 := by decide +kernel
  have hin : n.Inside m 0 act inside := by
    have hopen : ∀ i ≤ inside.length, (n.run m 0 act (inside.take i)).scopes.isEmpty = false := by decide +kernel
    intro calls hcut hnone
    have hlast := hopen calls.length hcut.length_le
    rw [← List.prefix_iff_eq_take.1 hcut, hnone] at hlast
    cases hlast
  obtain ⟨x, hx, hfields⟩ := Option.map_eq_some_iff.1 hfields
  obtain ⟨hl, hresource⟩ := Prod.mk.inj hfields
  have hdirect : ∀ e, .act (.direct x.resource e) ∉ inside := by
    intro e he
    simp [inside] at he
  have htransparent := suspension_transparent ⟨7⟩ .all {} 1 { key := ⟨7⟩ }
    [.enter 0 {}, .act (0, .data (.put "a" .null))] 0 0 x { propagation := .requiresNew } (.inl rfl) inside
  extract_lets at htransparent
  obtain ⟨hback, hanswers⟩ := htransparent hbound hx hl hin hdirect
  obtain ⟨-, hholder, hlog⟩ := hback hlength true
  have hanswer := (hanswers inside (List.prefix_refl _) []).2 (.get "a")
  rw [hresource] at hlog hanswer
  exact ⟨hstaged, hholder.trans hx.symm, hlog, hanswer⟩

end Demarcation
