/-
A transaction that was completed is not used again. Where scopes are completed in any order, its holder may
still be suspended for a scope, and it is bound again when that scope is completed. But it is void, and stays
void: every look-up passes over it, and whatever is bound next takes its place.
-/
import Demarcation.Proofs.Sidelined
import Demarcation.Store.Access

namespace Demarcation

open Session Manager

variable {σ ρ ς α γ : Type}

/-- A holder is given up. -/
def Session.Void (s : Session σ ρ ς) (h : HolderId) : Prop := ∃ x, s.holder? h = some x ∧ x.cleared = true

/-- The scope that began a holder's transaction has been completed. -/
def Session.Finished (s : Session σ ρ ς) (h : HolderId) : Prop :=
  ∃ t st, s.status? t = some st ∧ st.isCompleted = true ∧ s.owned? t = some h

/-! ## Void holders stay void -/

namespace Session.Void

variable {s s' : Session σ ρ ς} {h : HolderId}

theorem congr {φ : Holder ρ → γ} (hv : s.Void h) (heq : (s'.holder? h).map φ = (s.holder? h).map φ)
    (hφ : ∀ x y : Holder ρ, φ x = φ y → x.cleared = y.cleared) : s'.Void h := by
  obtain ⟨x, hx, hcleared⟩ := hv
  rw [hx] at heq
  obtain ⟨y, hy, hsame⟩ := Option.map_eq_some_iff.1 heq
  exact ⟨y, hy, (hφ y x hsame).trans hcleared⟩

theorem of_fate (hv : s.Void h) (heq : (s'.holder? h).map Holder.fate = (s.holder? h).map Holder.fate) : s'.Void h :=
  hv.congr heq fun _ _ hxy => congrArg (·.2.1) hxy

theorem of_quiet (hv : s.Void h) (hq : Quiet s s') : s'.Void h := by
  refine hv.congr (hq.holders h) fun x y hxy => ?_
  injection hxy

theorem of_eq (hv : s.Void h) (heq : s'.holder? h = s.holder? h) : s'.Void h := by
  obtain ⟨x, hx, hcleared⟩ := hv
  exact ⟨x, heq.trans hx, hcleared⟩

theorem modifyHolder (hv : s.Void h) (k : HolderId) {f : Holder ρ → Holder ρ}
    (hf : ∀ x, x.cleared = true → (f x).cleared = true) : (s.modifyHolder k f).Void h := by
  obtain ⟨x, hx, hcleared⟩ := hv
  by_cases hk : h = k
  · exact ⟨f x, by rw [holder?_modifyHolder, if_pos hk, hx]; rfl, hf x hcleared⟩
  · exact ⟨x, by rw [holder?_modifyHolder, if_neg hk, hx], hcleared⟩

theorem lt (hv : s.Void h) : h < s.holders.size := by
  obtain ⟨x, hx, -⟩ := hv
  exact holder?_lt hx

theorem isVoid (hv : s.Void h) : s.view.isVoid h = true := by
  obtain ⟨x, hx, hcleared⟩ := hv
  rw [isVoid_of_holder hx, hcleared]

theorem ne_live (hv : s.Void h) {k : HolderId} {x : Holder ρ} (hx : s.holder? k = some x) (hl : x.cleared = false) :
    k ≠ h := by
  rintro rfl
  obtain ⟨y, hy, hcleared⟩ := hv
  rw [Option.some.inj (hx.symm.trans hy), hcleared] at hl
  cases hl

/-- A look-up does not leave a void holder bound. -/
theorem unbound_purge (hv : s.Void h) (c : ContextIndex) (key : ResourceKey) :
    (s.purge c key).bound c key ≠ some h := by
  intro hb
  have hsame := purge_of_bound hb
  rw [hsame] at hb
  have hdropped : (s.purge c key).bound c key = none := by
    rw [purge_of_void hb hv.isVoid, bound_dropBinding, if_pos ⟨rfl, rfl⟩]
  rw [hsame, hb] at hdropped
  cases hdropped

end Session.Void

section Completing

variable {m : Manager σ ρ ς} {c : ContextIndex} {commit : Bool} {t : StatusId} {st : Status ς}
  {s s' : Session σ ρ ς} {h : HolderId} {r : Except TransactionError Unit}

theorem Session.void_giveUp {x : Holder ρ} (hx : s.holder? h = some x) : (s.modifyHolder h giveUp).Void h :=
  ⟨giveUp x, by rw [holder?_modifyHolder, if_pos rfl, hx]; rfl, rfl⟩

theorem Manager.Releasing.void (hr : Releasing m c st s r s') (hv : s.Void h) : s'.Void h := by
  cases hr with
  | nothing => exact hv
  | reference => exact hv.modifyHolder _ fun _ => id
  | transaction _ _ hun =>
    have hbefore := (hv.of_eq (holder?_purge s c _ h)).of_eq (hun.holder? h)
    exact hbefore.modifyHolder _ fun _ _ => rfl

/-- What an owner releases is void. -/
theorem Manager.Releasing.voids (hr : Releasing m c st s r s') (hnew : st.newTransaction = true)
    (hh : st.holder = some h) {x : Holder ρ} (hx : s.holder? h = some x) : s'.Void h := by
  cases hr with
  | nothing hnone => rw [hh] at hnone; cases hnone
  | reference _ hnot => rw [hnew] at hnot; cases hnot
  | transaction hk _ hun =>
    obtain rfl := Option.some.inj (hh.symm.trans hk)
    exact void_giveUp ((hun.holder? h).trans ((holder?_purge s c _ h).trans hx))

theorem Manager.Concluding.void (hst : s.status? t = some st) (hc : Concluding m commit c t st s r s')
    (hv : s.Void h) : s'.Void h := by
  obtain ⟨state, _, s₁, _, s₂, hwork, hrel, -, -, hfates, -⟩ := hc.outline hst (.const m.backend)
  have hended : (s₁.endStatus t state).Void h := (hv.of_quiet hwork.quiet).of_eq rfl
  exact (hrel.void hended).of_fate (hfates h)

/-- The holder of an owner that is completed is void, whatever failed. -/
theorem Manager.Concluding.voids (hst : s.status? t = some st) (hc : Concluding m commit c t st s r s')
    (hnew : st.newTransaction = true) (hh : st.holder = some h) (hlt : h < s.holders.size) : s'.Void h := by
  obtain ⟨state, _, s₁, _, s₂, hwork, hrel, -, -, hfates, -⟩ := hc.outline hst (.const m.backend)
  have hx : s.holder? h = some s.holders[h] := Array.getElem?_eq_getElem hlt
  obtain ⟨x, hworked, -⟩ := hwork.quiet.holder hx
  exact (hrel.voids hnew hh hworked).of_fate (hfates h)

end Completing

/-! ## Between the calls -/

/-- What becomes of a session between two calls of a manager, whoever does it: anything, but that the scopes,
and which resource a holder has, are not touched, and that nothing voids what is void. -/
structure Meantime (σ ρ : Type) where
  native : σ
  now : Instant
  registries : Array (Registry HolderId)
  holders : HolderId → Holder ρ → Holder ρ

def Meantime.pass (a : Meantime σ ρ) (s : Session σ ρ ς) : Session σ ρ ς where
  native := a.native
  now := a.now
  registries := a.registries
  holders := s.holders.mapIdx fun h x =>
    { a.holders h x with resource := x.resource, cleared := x.cleared || (a.holders h x).cleared }
  statuses := s.statuses

section Calls

variable {m : Manager σ ρ ς} {s : Session σ ρ ς} {h : HolderId}

theorem Meantime.holder?_pass (a : Meantime σ ρ) (s : Session σ ρ ς) (h : HolderId) :
    (a.pass s).holder? h = (s.holder? h).map fun x =>
      { a.holders h x with resource := x.resource, cleared := x.cleared || (a.holders h x).cleared } :=
  Array.getElem?_mapIdx

theorem Meantime.steady (a : Meantime σ ρ) (s : Session σ ρ ς) : Steady s (a.pass s) := by
  refine ⟨rfl, fun h => ?_⟩
  rw [a.holder?_pass, Option.map_map]
  rfl

theorem Session.Void.pass (hv : s.Void h) (a : Meantime σ ρ) : (a.pass s).Void h := by
  obtain ⟨x, hx, hcleared⟩ := hv
  refine ⟨_, by rw [a.holder?_pass, hx]; rfl, ?_⟩
  show (x.cleared || _) = true
  rw [hcleared, Bool.true_or]

theorem Session.Void.called (hv : s.Void h) (call : ManagerCall (Meantime σ ρ)) :
    (m.called Meantime.pass s call).Void h := by
  cases call with
  | enter c d =>
    obtain ⟨r, s', hrun, houtline⟩ := getTransaction_outline m c d s (.const m.backend)
    show (m.getTransaction c d s).2.Void h
    rw [hrun]
    cases houtline with
    | failed hs => exact hv.of_fate (hs.holders h)
    | entered hs => exact hv.of_fate (hs.holders h)
    | begun hs =>
      have hbefore := hv.of_fate (hs.holders h)
      refine hbefore.of_eq ?_
      rw [holder?_addStatus, holder?_started, if_neg (Nat.ne_of_lt hbefore.lt)]
  | conclude commit c t =>
    show (m.conclude commit c t s).2.Void h
    rcases conclude_cases m commit c t s with ⟨hrefused, _⟩ | ⟨st, r, s', hst, _, hrun, hc⟩
    · rw [hrefused]
      exact hv
    · rw [hrun]
      exact hc.void hst hv
  | mark t => exact hv
  | act a => exact hv.pass a

theorem Session.Void.calledAll (hv : s.Void h) (calls : List (ManagerCall (Meantime σ ρ))) :
    (m.calledAll Meantime.pass calls s).Void h := by
  induction calls generalizing s with
  | nil => exact hv
  | cons call calls ih => exact ih (hv.called call)

/-- A transaction that a call finished has given up its holder. -/
theorem finished_called (howned : Owned s) (hspent : ∀ k, s.Finished k → s.Void k)
    (call : ManagerCall (Meantime σ ρ)) (hfinished : (m.called Meantime.pass s call).Finished h) :
    (m.called Meantime.pass s call).Void h := by
  have hact : ∀ a, call = .act a → Steady s (a.pass s) := fun a _ => a.steady s
  obtain ⟨t, st', hst', hended, hown⟩ := hfinished
  cases hst : s.status? t with
  | none =>
    obtain ⟨-, -, -, hopen, -⟩ := called_status_new m call hact hst hst'
    rw [Status.isCompleted_of_none hopen] at hended
    cases hended
  | some st =>
    rcases called_status_cases m call hact hst with ⟨st'', hst'', hsame⟩ | ⟨commit, c, state, rfl, hopen, hst''⟩
    · -- it was finished before
      obtain rfl := Option.some.inj (hst'.symm.trans hst'')
      obtain ⟨on, rfl⟩ := Status.eq_of_unmarked hsame
      refine (hspent h ⟨t, st, hst, hended, ?_⟩).called call
      rw [Owned.owned?_eq hst'] at hown
      rw [Owned.owned?_eq hst]
      exact hown
    · obtain rfl := Option.some.inj (hst'.symm.trans hst'')
      obtain ⟨hnew, hh⟩ := Owned.holder_of_owned hst' hown
      have howns : s.owned? t = some h := by
        rw [Owned.owned?_eq hst, show st.newTransaction = true from hnew]
        exact hh
      obtain ⟨r, s', hrun, hc⟩ := conclude_spec m commit c hst hopen
      show (m.conclude commit c t s).2.Void h
      rw [hrun]
      exact hc.voids hst hnew hh (howned.range howns)

theorem finished_calledAll (howned : Owned s) (hspent : ∀ k, s.Finished k → s.Void k)
    (calls : List (ManagerCall (Meantime σ ρ))) (hfinished : (m.calledAll Meantime.pass calls s).Finished h) :
    (m.calledAll Meantime.pass calls s).Void h := by
  induction calls generalizing s with
  | nil => exact hspent h hfinished
  | cons call calls ih =>
    refine ih (howned.called call fun a _ => a.steady s) (fun k hk => ?_) hfinished
    exact finished_called howned hspent call hk

end Calls

/-! ## Looking up and binding over a void holder -/

section Looking

variable {m : Manager σ ρ ς} {c : ContextIndex} {d : Definition} {s s' : Session σ ρ ς} {h : HolderId}

theorem find_ne_void (hv : s.Void h) (c : ContextIndex) (kind : HolderKind) (key : ResourceKey) :
    (find c kind key s).1 ≠ .ok (some h) := by
  obtain ⟨r, hrun, hlook⟩ := find_spec s c kind key
  rw [hrun]
  cases hlook with
  | unbound | foreign => exact nofun
  | live _ hx hl =>
    rintro ⟨⟩
    exact (hv.of_eq (holder?_purge s c key h)).ne_live hx hl rfl

/-- Binding takes the place of a void holder. -/
theorem bind_over_void (hv : s.Void h) {key : ResourceKey} (hb : s.bound c key = some h) (k : HolderId) :
    bind c key k s = (.ok (), s.putBinding c key k) := by
  have hfree : (s.registry c).has s.view key = false := by
    unfold Registry.has
    rw [show (s.registry c).binding? key = some h from hb]
    dsimp only
    rw [hv.isVoid]
    rfl
  unfold Session.bind
  rw [Registry.bind_of_not_has _ _ hfree]
  rfl

theorem getTransaction_over_void (hv : s.Void h) (hb : s.bound c m.backend.key = some h) :
    m.getTransaction c d s = m.getTransaction c d (s.dropBinding c m.backend.key) := by
  have hlook : m.currentHolder c s = m.currentHolder c (s.dropBinding c m.backend.key) := by
    have hvoid : find c m.backend.kind m.backend.key s = (.ok none, s.dropBinding c m.backend.key) := by
      unfold find
      rw [Registry.get_void _ _ hb hv.isVoid]
      rfl
    have hnone : (s.dropBinding c m.backend.key).bound c m.backend.key = none := by
      rw [bound_dropBinding, if_pos ⟨rfl, rfl⟩]
    unfold currentHolder
    rw [attempt_adapt, attempt_adapt, hvoid]
    unfold find
    rw [Registry.get_unbound _ _ hnone]
    simp only [setRegistry_registry]
  unfold Manager.getTransaction
  rw [attempt_bind, attempt_bind, hlook]

theorem begin_over_void (hv : s.Void h) (hb : s.bound c m.backend.key = some h) :
    (m.begin c d s).1 = (m.begin c d (s.dropBinding c m.backend.key)).1 ∧
      ∀ k, (m.begin c d s).1 = .ok k → (m.begin c d s).2 = (m.begin c d (s.dropBinding c m.backend.key)).2 := by
  -- only what binds the new holder comes upon the void one
  have hover : ∀ (n : σ) (x : Holder ρ), bind c m.backend.key s.holders.size ((s.withNative n).addHolder x).2 =
      (.ok (), ((s.withNative n).addHolder x).2.putBinding c m.backend.key s.holders.size) := by
    intro n x
    have hv' : ((s.withNative n).addHolder x).2.Void h := by
      refine hv.of_eq ?_
      rw [holder?_addHolder]
      exact if_neg (Nat.ne_of_lt hv.lt)
    exact bind_over_void hv' hb _
  have hfree : ∀ (n : σ) (x : Holder ρ),
      bind c m.backend.key s.holders.size (((s.dropBinding c m.backend.key).withNative n).addHolder x).2 =
        (.ok (), (((s.dropBinding c m.backend.key).withNative n).addHolder x).2.putBinding c m.backend.key
          s.holders.size) := by
    intro n x
    apply bind_unbound
    rw [bound_addHolder, bound_withNative, bound_dropBinding, if_pos ⟨rfl, rfl⟩]
  rw [begin_eq hover, begin_eq (s := s.dropBinding c m.backend.key) hfree]
  split
  · exact ⟨rfl, nofun⟩
  · cases m.timeoutOf d with
    | error e => exact ⟨rfl, nofun⟩
    | ok timeout =>
      dsimp only
      rw [show (s.dropBinding c m.backend.key).native = s.native from rfl]
      rcases m.backend.start d s.native with ⟨f | r, n⟩
      · exact ⟨rfl, nofun⟩
      · refine ⟨rfl, fun _ _ => ?_⟩
        exact (putBinding_dropBinding ((s.withNative n).addHolder _).2 c m.backend.key _).symm

end Looking

/-- A context with a void holder asks for a connection as one without. -/
theorem access_ne_void {s : Session σ ρ ς} {h : HolderId} (hv : s.Void h) (site : StoreSite σ ρ)
    (c : ContextIndex) : (∀ conn, (site.access c s).1 ≠ .ok (.transactional h conn)) ∧
      (site.access c s).2.holder? h = s.holder? h := by
  obtain ⟨r, hrun, hlook⟩ := find_spec s c StoreSite.kind site.key
  have hfound : ((find c StoreSite.kind site.key).adapt
      (StorageErrorFrom.transaction ∘ TransactionErrorFrom.registry) : Attempt σ ρ ς StorageError _) s =
      (r.mapError (StorageErrorFrom.transaction ∘ TransactionErrorFrom.registry), s.purge c site.key) := by
    rw [attempt_adapt, hrun]
  have hkept := holder?_purge s c site.key h
  have halone : ∀ s' : Session σ ρ ς, (site.connectAlone s').2.holder? h = s'.holder? h := fun _ => rfl
  cases hlook with
  | foreign e =>
    rw [show site.access c s = (.error _, s.purge c site.key) from attempt_bind_error hfound]
    exact ⟨fun _ => nofun, hkept⟩
  | unbound hb =>
    rw [show site.access c s = site.connectAlone (s.purge c site.key) from attempt_bind_ok hfound]
    exact ⟨fun _ => nofun, hkept⟩
  | @live k x hb hx hl =>
    have hne : k ≠ h := (hv.of_eq hkept).ne_live hx hl
    -- looking at the deadline touches the bound holder only
    obtain ⟨q, s₁, htime, hsame⟩ : ∃ q s₁, StoreSite.timeToLive k (s.purge c site.key) = (q, s₁) ∧
        s₁.holder? h = s.holder? h := by
      refine ⟨_, _, by unfold StoreSite.timeToLive; rw [hx], ?_⟩
      exact (holder?_modifyHolder_ne hne.symm _ _).trans hkept
    have hadapt : ((StoreSite.timeToLive k).adapt StorageErrorFrom.transaction : Attempt σ ρ ς StorageError _)
        (s.purge c site.key) = (q.mapError .transaction, s₁) := by
      rw [attempt_adapt, htime]
    unfold StoreSite.access
    rw [attempt_bind_ok hfound]
    dsimp only
    cases q with
    | error e =>
      rw [attempt_bind_error hadapt]
      exact ⟨fun _ => nofun, hsame⟩
    | ok left =>
      rw [attempt_bind_ok hadapt, attempt_bind, attempt_get]
      dsimp only
      cases (s₁.holder? k).bind fun x => site.resource.unwrap x.resource with
      | none => exact ⟨fun _ => nofun, (halone s₁).trans hsame⟩
      | some conn =>
        refine ⟨fun conn' => ?_, hsame⟩
        rintro ⟨⟩
        exact hne rfl

/-! ## Finished transactions -/

/-- What it means that a transaction is not used in any context. -/
structure Unused (m : Manager σ ρ ς) (s : Session σ ρ ς) (h : HolderId) : Prop where
  /-- No look-up finds the holder. -/
  current (c : ContextIndex) : (m.currentHolder c s).1 ≠ .ok (some h)
  /-- No store works on its connection, or looks at its deadline. -/
  connection (site : StoreSite σ ρ) (c : ContextIndex) :
    (∀ conn, (site.access c s).1 ≠ .ok (.transactional h conn)) ∧ (site.access c s).2.holder? h = s.holder? h
  /-- No scope that is opened joins it, nests in it or suspends it, and nothing is done to it on the way. -/
  opening (c : ContextIndex) (d : Definition) : (m.getTransaction c d s).2.holder? h = s.holder? h ∧
    ∀ t st, (m.getTransaction c d s).1 = .ok t → (m.getTransaction c d s).2.status? t = some st →
      st.holder ≠ some h ∧ st.suspended ≠ some h
  /-- Where the holder is still bound, a scope is opened as if nothing were. -/
  leftover (c : ContextIndex) (d : Definition) : s.bound c m.backend.key = some h →
    m.getTransaction c d s = m.getTransaction c d (s.dropBinding c m.backend.key)
  /-- A transaction begins there as if nothing were bound, and takes the place of the holder. -/
  begins (c : ContextIndex) (d : Definition) : s.bound c m.backend.key = some h →
    (m.begin c d s).1 = (m.begin c d (s.dropBinding c m.backend.key)).1 ∧
    ∀ k, (m.begin c d s).1 = .ok k → (m.begin c d s).2 = (m.begin c d (s.dropBinding c m.backend.key)).2
  /-- Any holder can be bound in its place, under any key. -/
  binds (c : ContextIndex) (key : ResourceKey) (k : HolderId) : s.bound c key = some h →
    bind c key k s = (.ok (), s.putBinding c key k)

theorem Session.Void.unused {s : Session σ ρ ς} {h : HolderId} (hv : s.Void h) (m : Manager σ ρ ς) :
    Unused m s h := by
  constructor
  case current =>
    intro c hfound
    have hnot := find_ne_void hv c m.backend.kind m.backend.key
    unfold currentHolder at hfound
    rw [attempt_adapt] at hfound
    dsimp only at hfound
    cases hfind : (find c m.backend.kind m.backend.key s).1 with
    | error e =>
      rw [hfind] at hfound
      cases hfound
    | ok k =>
      rw [hfind, mapError_ok] at hfound
      exact hnot (hfind.trans (congrArg Except.ok (Except.ok.inj hfound)))
  case connection => exact fun site c => access_ne_void hv site c
  case opening =>
    intro c d
    obtain ⟨r, s', hrun, hopen⟩ := getTransaction_spec m c d s
    have hbefore := hv.of_eq (holder?_purge s c m.backend.key h)
    have hnot := hv.unbound_purge c m.backend.key
    rw [hrun]
    refine ⟨(hopen.holder?_unbound hnot hbefore.lt).trans (holder?_purge s c m.backend.key h), ?_⟩
    rintro t st rfl hst
    obtain ⟨hholder, hsuspended⟩ := hopen.refers hst
    refine ⟨fun hh => ?_, fun hs => hnot (hsuspended h hs)⟩
    rcases hholder h hh with hb | hnew
    · exact hnot hb
    · exact Nat.ne_of_lt hbefore.lt hnew
  case leftover => exact fun c d hb => getTransaction_over_void hv hb
  case begins => exact fun c d hb => begin_over_void hv hb
  case binds => exact fun c key k hb => bind_over_void hv hb k

/-- A transaction whose owner has been completed is not used again, for every manager, every order of calls, in
any contexts, and whatever fails or becomes of the session between the calls. That is so from the completion on,
behind whatever calls come later, and where the holder is bound once more because a scope had suspended it, the
binding is in nobody's way. -/
theorem finished_unused (m : Manager σ ρ ς) (contexts : Nat) (native : σ)
    (calls later : List (ManagerCall (Meantime σ ρ))) {h : HolderId} :
    let s := m.calledAll Meantime.pass calls (Session.ofContexts contexts native)
    s.Finished h → Unused m (m.calledAll Meantime.pass later s) h := by
  intro s hfinished
  have hspent : ∀ k, (Session.ofContexts contexts native : Session σ ρ ς).Finished k →
      (Session.ofContexts contexts native : Session σ ρ ς).Void k := by
    rintro k ⟨t, st, hst, -⟩
    cases hst
  have hvoid : s.Void h := finished_calledAll (.ofContexts contexts native) hspent calls hfinished
  exact (hvoid.calledAll later).unused m

/-- An owner is committed while it is suspended, in another context, and then the scope that suspended it is
completed: the void holder is bound again. -/
theorem finished_unused_rebound :
    let m : Manager Store ConnectionId Savepoint := { backend := Store.backend ⟨7⟩ .all }
    let calls : List (ManagerCall (Meantime Store ConnectionId)) :=
      [.enter 0 { propagation := .required }, .enter 0 { propagation := .requiresNew }, .conclude true 1 0]
    let s := m.calledAll Meantime.pass calls (Session.ofContexts 2 { key := ⟨7⟩ })
    let s' := m.calledAll Meantime.pass [.conclude true 0 1] s
    s.Finished 0 ∧ s'.bound 0 ⟨7⟩ = some 0 ∧ Unused m s' 0 := by
  intro m calls s s'
  have hended : (s.status? 0).map (fun st => (st.isCompleted, st.newTransaction, st.holder)) =
      some (true, true, some 0) := by decide +kernel
  have hfinished : s.Finished 0 := by
    obtain ⟨st, hst, hparts⟩ := Option.map_eq_some_iff.1 hended
    injection hparts with hcompleted hparts
    injection hparts with hnew hholder
    exact ⟨0, st, hst, hcompleted, by rw [Owned.owned?_eq hst, if_pos hnew, hholder]⟩
  refine ⟨hfinished, by decide +kernel, ?_⟩
  exact finished_unused m 2 { key := ⟨7⟩ } calls [.conclude true 0 1] hfinished

end Demarcation
