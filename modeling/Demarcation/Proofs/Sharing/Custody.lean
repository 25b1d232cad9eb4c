/-
Who is answerable for the connections of a store. A transaction has a connection until it is cleaned up, and clients
keep those that contexts answer. At any time the open connections are those that were neither cleaned up nor closed
and that something refers to.
-/
import Demarcation.Proofs.Sharing.Abandonment

namespace Demarcation

open Session Manager

/-! ## Sessions on one store -/

/-- What holds of the connections of a session on one store: the counter counts them, and the connections of
transactions are those of the holders, each of which has its own. -/
structure Connected (s : SystemsSession) : Prop where
  one : s.native.stores.size = 1
  tallied : (s.native.store 0).Tallied
  resource : ∀ h x, s.holder? h = some x →
    ∃ c, x.resource = .connection 0 c ∧ (s.native.store 0).alone? c = some false
  distinct : ∀ h h' x x', s.holder? h = some x → s.holder? h' = some x' → x.resource = x'.resource → h = h'
  holder : ∀ c, (s.native.store 0).alone? c = some false → ∃ h x, s.holder? h = some x ∧ x.resource = .connection 0 c

namespace Connected

variable {s s' : SystemsSession}

/-- No connection was opened. -/
theorem congr (hs : Connected s) (hone : s'.native.stores.size = 1) (htallied : (s'.native.store 0).Tallied)
    (halone : ∀ c, (s'.native.store 0).alone? c = (s.native.store 0).alone? c)
    (hholders : ∀ h, (s'.holder? h).map Holder.resource = (s.holder? h).map Holder.resource) : Connected s' := by
  have hback : ∀ h x', s'.holder? h = some x' → ∃ x, s.holder? h = some x ∧ x.resource = x'.resource := by
    intro h x' hx'
    have hsame := hholders h
    rw [hx'] at hsame
    exact Option.map_eq_some_iff.1 hsame.symm
  refine ⟨hone, htallied, fun h x' hx' => ?_, fun h h' x x' hx hx' heq => ?_, fun c hc => ?_⟩
  · obtain ⟨x, hx, hsame⟩ := hback h x' hx'
    obtain ⟨c, hresource, hc⟩ := hs.resource h x hx
    exact ⟨c, hsame ▸ hresource, (halone c).trans hc⟩
  · obtain ⟨y, hy, hsame⟩ := hback h x hx
    obtain ⟨y', hy', hsame'⟩ := hback h' x' hx'
    exact hs.distinct h h' y y' hy hy' (hsame.trans (heq.trans hsame'.symm))
  · obtain ⟨h, x, hx, hresource⟩ := hs.holder c ((halone c).symm.trans hc)
    have hsame := hholders h
    rw [hx] at hsame
    obtain ⟨x', hx', hsame⟩ := Option.map_eq_some_iff.1 hsame
    exact ⟨h, x', hx', hsame.trans hresource⟩

theorem of_roster (hs : Connected s) (hroster : s'.native.roster 0 = s.native.roster 0)
    (hholders : ∀ h, (s'.holder? h).map Holder.resource = (s.holder? h).map Holder.resource) : Connected s' :=
  hs.congr ((congrArg Prod.fst hroster).trans hs.one) (Store.tallied_of_roster (congrArg Prod.snd hroster) hs.tallied)
    (Store.alone?_of_roster (congrArg Prod.snd hroster)) hholders

/-- The next connection is of no holder yet. -/
theorem fresh (hs : Connected s) {h : HolderId} {x : Holder Resource} (hx : s.holder? h = some x) :
    x.resource ≠ .connection 0 (s.native.store 0).connections.size := by
  obtain ⟨c, hresource, hc⟩ := hs.resource h x hx
  rw [hresource]
  rintro ⟨⟩
  exact Nat.lt_irrefl _ (Store.alone?_lt hc)

/-- A connection was opened for the holder that was added. -/
theorem begun (hs : Connected s) (hone : s'.native.stores.size = 1) {readOnly : Bool} {isolation : Isolation}
    (hroster : (s'.native.store 0).roster = ((s.native.store 0).connect readOnly false isolation).2.roster)
    {x : Holder Resource} (hx : x.resource = .connection 0 (s.native.store 0).connections.size)
    (hholders : ∀ h, s'.holder? h = if h = s.holders.size then some x else s.holder? h) : Connected s' := by
  have halone : ∀ c, (s'.native.store 0).alone? c =
      if c = (s.native.store 0).connections.size then some false else (s.native.store 0).alone? c :=
    fun c => (Store.alone?_of_roster hroster c).trans (Store.alone?_connect ..)
  refine ⟨hone, Store.tallied_of_roster hroster (hs.tallied.connect ..), fun h y hy => ?_,
    fun h h' y y' hy hy' heq => ?_, fun c hc => ?_⟩
  · rw [hholders] at hy
    split at hy
    · cases hy
      exact ⟨_, hx, by rw [halone, if_pos rfl]⟩
    · obtain ⟨c, hresource, hc⟩ := hs.resource h y hy
      exact ⟨c, hresource, by rw [halone, if_neg (Nat.ne_of_lt (Store.alone?_lt hc)), hc]⟩
  · rw [hholders] at hy hy'
    split at hy <;> split at hy'
    · rename_i hh hh'
      exact hh.trans hh'.symm
    · cases hy
      exact absurd (heq.symm.trans hx) (hs.fresh hy')
    · cases hy'
      exact absurd (heq.trans hx) (hs.fresh hy)
    · exact hs.distinct h h' y y' hy hy' heq
  · rw [halone] at hc
    split at hc
    · rename_i hsize
      exact ⟨s.holders.size, x, by rw [hholders, if_pos rfl], hsize ▸ hx⟩
    · obtain ⟨h, y, hy, hresource⟩ := hs.holder c hc
      refine ⟨h, y, ?_, hresource⟩
      rw [hholders, if_neg (Nat.ne_of_lt (holder?_lt hy))]
      exact hy

/-- A connection was opened that publishes at once. -/
theorem connected (hs : Connected s) (hone : s'.native.stores.size = 1)
    (hroster : (s'.native.store 0).roster = ((s.native.store 0).connect false true .unspecified).2.roster)
    (hholders : ∀ h, s'.holder? h = s.holder? h) : Connected s' := by
  have halone : ∀ c, (s'.native.store 0).alone? c =
      if c = (s.native.store 0).connections.size then some true else (s.native.store 0).alone? c :=
    fun c => (Store.alone?_of_roster hroster c).trans (Store.alone?_connect ..)
  refine ⟨hone, Store.tallied_of_roster hroster (hs.tallied.connect ..), fun h x hx => ?_,
    fun h h' x x' hx hx' => ?_, fun c hc => ?_⟩
  · obtain ⟨c, hresource, hc⟩ := hs.resource h x (hholders h ▸ hx)
    exact ⟨c, hresource, by rw [halone, if_neg (Nat.ne_of_lt (Store.alone?_lt hc)), hc]⟩
  · exact hs.distinct h h' x x' (hholders h ▸ hx) (hholders h' ▸ hx')
  · rw [halone] at hc
    split at hc
    · cases hc
    · obtain ⟨h, x, hx, hresource⟩ := hs.holder c hc
      exact ⟨h, x, (hholders h).trans hx, hresource⟩

end Connected

/-! ## Cleanups and owners -/

/-- The connection of each transaction was cleaned up once if its owner is completed, and not yet if it is open. No
other resource was cleaned up. -/
structure CleanedUp (s : SystemsSession) (cleanups : List (Resource × Except Failure Unit)) : Prop where
  owned : Owned s
  known : ∀ q ∈ cleanups, ∃ h x, s.holder? h = some x ∧ x.resource = q.1
  exact : ∀ t st h x, s.status? t = some st → st.newTransaction = true → st.holder = some h → s.holder? h = some x →
    cleanups.countP (·.1 == x.resource) = if st.isCompleted then 1 else 0

namespace CleanedUp

variable {s s' : SystemsSession} {cleanups : List (Resource × Except Failure Unit)}

theorem known_congr (hs : CleanedUp s cleanups)
    (hholders : ∀ h x, s.holder? h = some x → ∃ x', s'.holder? h = some x' ∧ x'.resource = x.resource) :
    ∀ q ∈ cleanups, ∃ h x, s'.holder? h = some x ∧ x.resource = q.1 := by
  intro q hq
  obtain ⟨h, x, hx, hresource⟩ := hs.known q hq
  obtain ⟨x', hx', hsame⟩ := hholders h x hx
  exact ⟨h, x', hx', hsame.trans hresource⟩

/-- Nothing became of the owners. -/
theorem congr (hs : CleanedUp s cleanups) (howned : Owned s')
    (hholders : ∀ h, (s'.holder? h).map Holder.resource = (s.holder? h).map Holder.resource)
    (hstatuses : ∀ t st', s'.status? t = some st' → st'.newTransaction = true → ∃ st, s.status? t = some st ∧
      st.newTransaction = true ∧ st.holder = st'.holder ∧ st.isCompleted = st'.isCompleted) :
    CleanedUp s' cleanups := by
  refine ⟨howned, hs.known_congr fun h x hx => ?_, fun t st' h x' hst' hnew' hh' hx' => ?_⟩
  · have hsame := hholders h
    rw [hx] at hsame
    exact Option.map_eq_some_iff.1 hsame
  · obtain ⟨st, hst, hnew, hh, hcompleted⟩ := hstatuses t st' hst' hnew'
    have hsame := hholders h
    rw [hx'] at hsame
    obtain ⟨x, hx, hresource⟩ := Option.map_eq_some_iff.1 hsame.symm
    rw [← hcompleted, ← hresource]
    exact hs.exact t st h x hst hnew (hh.trans hh') hx

theorem steady (hs : CleanedUp s cleanups) (hsteady : Steady s s') : CleanedUp s' cleanups :=
  hs.congr (hs.owned.steady hsteady) hsteady.holders fun t st hst hnew =>
    ⟨st, (hsteady.status? t).symm.trans hst, hnew, rfl, rfl⟩

/-- A status changed in another respect. -/
theorem of_modifyStatus (hs : CleanedUp s cleanups) (t : StatusId) {f : Status AnySavepoint → Status AnySavepoint}
    (hf : ∀ st, (f st).newTransaction = st.newTransaction ∧ (f st).holder = st.holder ∧
      (f st).savepoint = st.savepoint ∧ (f st).isCompleted = st.isCompleted) : CleanedUp (s.modifyStatus t f) cleanups := by
  have hstatuses : ∀ u, ∃ g : Status AnySavepoint → Status AnySavepoint,
      (s.modifyStatus t f).status? u = (s.status? u).map g ∧ ∀ st, (g st).newTransaction = st.newTransaction ∧
        (g st).holder = st.holder ∧ (g st).savepoint = st.savepoint ∧ (g st).isCompleted = st.isCompleted := by
    intro u
    rw [status?_modifyStatus]
    split
    · exact ⟨f, rfl, hf⟩
    · exact ⟨id, Option.map_id.symm ▸ rfl, fun st => ⟨rfl, rfl, rfl, rfl⟩⟩
  refine hs.congr (hs.owned.congr rfl fun u => ?_) (fun _ => rfl) fun u st' hst' hnew' => ?_
  · obtain ⟨g, hg, hsame⟩ := hstatuses u
    refine ⟨g, hg, fun st => ?_⟩
    obtain ⟨hnew, hh, hsp, -⟩ := hsame st
    exact ⟨hnew, hh, hsp.trans⟩
  · obtain ⟨g, hg, hsame⟩ := hstatuses u
    obtain ⟨st, hst, rfl⟩ := Option.map_eq_some_iff.1 (hg.symm.trans hst')
    obtain ⟨hnew, hh, -, hcompleted⟩ := hsame st
    exact ⟨st, hst, hnew.symm.trans hnew', hh.symm, hcompleted.symm⟩

/-- A transaction began, with a connection of its own. -/
theorem begun (hs : CleanedUp s cleanups) (howned : Owned s') {x : Holder Resource} {st : Status AnySavepoint}
    (hopen : st.isCompleted = false) (hh : st.holder = some s.holders.size)
    (hfresh : ∀ h y, s.holder? h = some y → y.resource ≠ x.resource)
    (hholders : ∀ h, s'.holder? h = if h = s.holders.size then some x else s.holder? h)
    (hstatuses : ∀ t, s'.status? t = if t = s.statuses.size then some st else s.status? t) :
    CleanedUp s' cleanups := by
  refine ⟨howned, hs.known_congr fun h y hy => ?_, fun t st' h y hst' hnew' hh' hy => ?_⟩
  · refine ⟨y, ?_, rfl⟩
    rw [hholders, if_neg (Nat.ne_of_lt (holder?_lt hy))]
    exact hy
  · rw [hstatuses] at hst'
    split at hst'
    · cases hst'
      obtain rfl := Option.some.inj (hh.symm.trans hh')
      rw [hholders, if_pos rfl] at hy
      cases hy
      rw [hopen, if_neg Bool.false_ne_true, List.countP_eq_zero]
      intro q hq
      obtain ⟨k, z, hz, hresource⟩ := hs.known q hq
      rw [beq_iff_eq, ← hresource]
      exact hfresh k z hz
    · obtain ⟨-, k, hk, hlt⟩ := hs.owned.own t st' hst' hnew'
      obtain rfl := Option.some.inj (hk.symm.trans hh')
      rw [hholders, if_neg (Nat.ne_of_lt hlt)] at hy
      exact hs.exact t st' k y hst' hnew' hh' hy

/-- The owner of a transaction was completed, and its connection cleaned up. -/
theorem concluded (hs : CleanedUp s cleanups) (howned : Owned s')
    (hdistinct : ∀ h h' x x', s.holder? h = some x → s.holder? h' = some x' → x.resource = x'.resource → h = h')
    {t : StatusId} {st : Status AnySavepoint} {state : TransactionState} {h : HolderId} {x : Holder Resource}
    (hst : s.status? t = some st) (hopen : st.isCompleted = false) (hnew : st.newTransaction = true)
    (hh : st.holder = some h) (hx : s.holder? h = some x) (answer : Except Failure Unit)
    (hholders : ∀ h, (s'.holder? h).map Holder.resource = (s.holder? h).map Holder.resource)
    (hstatuses : ∀ u, s'.status? u = if u = t then some (st.ended state) else s.status? u) :
    CleanedUp s' (cleanups ++ [(x.resource, answer)]) := by
  have hthere : ∀ k y, s.holder? k = some y → ∃ y', s'.holder? k = some y' ∧ y'.resource = y.resource := by
    intro k y hy
    have hsame := hholders k
    rw [hy] at hsame
    exact Option.map_eq_some_iff.1 hsame
  refine ⟨howned, fun q hq => ?_, fun u stᵤ k y hstᵤ hnewᵤ hhᵤ hy => ?_⟩
  · rcases List.mem_append.1 hq with hq | hq
    · exact hs.known_congr hthere q hq
    · obtain rfl := List.mem_singleton.1 hq
      obtain ⟨x', hx', hsame⟩ := hthere h x hx
      exact ⟨h, x', hx', hsame⟩
  · have hsame := hholders k
    rw [hy] at hsame
    obtain ⟨z, hz, hresource⟩ := Option.map_eq_some_iff.1 hsame.symm
    rw [← hresource, List.countP_append, List.countP_singleton]
    rw [hstatuses] at hstᵤ
    split at hstᵤ
    · cases hstᵤ
      obtain rfl := Option.some.inj (hh.symm.trans hhᵤ)
      obtain rfl := Option.some.inj (hx.symm.trans hz)
      have hnone := hs.exact t st h x hst hnew hh hx
      rw [hopen] at hnone
      rw [hnone]
      simp [Status.ended, Status.isCompleted]
    · rename_i hne
      -- another owner has another connection
      have hother : (x.resource == z.resource) = false := by
        refine beq_eq_false_iff_ne.2 fun heq => hne ?_
        obtain rfl := hdistinct h k x z hx hz heq
        refine hs.owned.unique u t h ?_ ?_
        · rw [Owned.owned?_eq hstᵤ, hnewᵤ, if_pos rfl, hhᵤ]
        · rw [Owned.owned?_eq hst, hnew, if_pos rfl, hh]
      rw [hother]
      exact hs.exact u stᵤ k z hstᵤ hnewᵤ hhᵤ hz

end CleanedUp

/-! ## What clients do -/

/-- A session on one store, with what its clients keep and what was done to its connections. -/
structure Custody where
  session : SystemsSession
  /-- The connections that contexts answered, as often as they are kept. -/
  kept : List Access := []
  /-- The connections that clients closed. -/
  closed : List ConnectionId := []
  /-- What the manager asked of the backend so far, with the answers. -/
  asked : List (Exchange Resource AnySavepoint) := []

inductive CustodyStep
  | enter (c : ContextIndex) (d : Definition)
  /-- Only a status that is held can be completed. -/
  | conclude (commit : Bool) (c : ContextIndex) (t : StatusId)
  | mark (t : StatusId)
  /-- A status is dropped. -/
  | forget (t : StatusId)
  /-- Asks for the connection of a context, and keeps it. -/
  | connect (c : ContextIndex)
  /-- A connection that is kept is dropped. -/
  | drop (n : Nat)
  /-- A client closes a connection. -/
  | close (c : ConnectionId)
  /-- Anything else that is done with the store or with its connections. -/
  | call (op : StoreCall) (lasts : op.lasts = true)
  /-- Some bindings of a context are dropped, all of them with the context itself. -/
  | unbind (c : ContextIndex) (keeps : ResourceKey → Bool)
  | wait (now : Instant)

namespace Custody

/-- A connection is kept by a client. -/
def keeps (r : Custody) (c : ConnectionId) : Bool := r.kept.any (·.connection == c)

/-- What nothing refers to any more is closed. -/
def settle (r : Custody) : Custody :=
  { r with session := Systems.closeAbandoned (fun _ => r.keeps) r.session }

def called (m : SystemsManager) (r : Custody) (call : ManagerCall Empty) : Custody :=
  { r with session := m.called nofun r.session call, asked := r.asked ++ m.asked r.session call }

def perform (m : SystemsManager) (r : Custody) : CustodyStep → Custody
  | .enter c d => r.called m (.enter c d)
  | .conclude commit c t =>
    if (r.session.status? t).any Status.held then r.called m (.conclude commit c t) else r
  | .mark t => r.called m (.mark t)
  | .forget t => { r with session := r.session.forget t }
  | .connect c =>
    match (Systems.site 0).access c r.session with
    | (.ok a, s) => { r with session := s, kept := a :: r.kept }
    | (.error _, s) => { r with session := s }
  | .drop n => { r with kept := r.kept.eraseIdx n }
  | .close c =>
    { r with
      session := (Systems.site 0).modifyStore (·.close c) r.session
      closed := if c < (r.session.native.store 0).connections.size then c :: r.closed else r.closed }
  | .call op _ => { r with session := (Systems.site 0).modifyStore (fun s => (op.run s).2) r.session }
  | .unbind c keeps =>
    { r with
      session := r.session.setRegistry c
        { r.session.registry c with bindings := (r.session.registry c).bindings.filter fun b => keeps b.1 } }
  | .wait now => { r with session := { r.session with now } }

/-- After each step, what nothing refers to any more is dropped. -/
def run (m : SystemsManager) (steps : List CustodyStep) (r : Custody) : Custody :=
  steps.foldl (fun r step => (r.perform m step).settle) r

/-- The resources that were cleaned up so far, with the answers. -/
def cleanups (r : Custody) : List (Resource × Except Failure Unit) := r.asked.filterMap Exchange.cleanup?

/-- A connection was cleaned up, or a client closed it. -/
def Ended (r : Custody) (c : ConnectionId) : Prop := (.connection 0 c, .ok ()) ∈ r.cleanups ∨ c ∈ r.closed

/-- Something refers to a connection: it is kept, or something refers to its holder. -/
def InUse (r : Custody) (c : ConnectionId) : Prop := r.keeps c = true ∨ Systems.isHeld r.session 0 c = true

/-- What holds before what is no more in use is dropped: the open connections did not end, and those in use that did
not end are open. -/
structure Unsettled (r : Custody) : Prop where
  connected : Connected r.session
  cleaned : CleanedUp r.session r.cleanups
  closed : ∀ c ∈ r.closed, c < (r.session.native.store 0).connections.size
  lasting : ∀ c, (r.session.native.store 0).isOpen c = true → ¬r.Ended c
  used : ∀ c, c < (r.session.native.store 0).connections.size → ¬r.Ended c → r.InUse c →
    (r.session.native.store 0).isOpen c = true

/-- What holds between two steps: the open connections are those that did not end and are in use. -/
structure Settled (r : Custody) : Prop extends Unsettled r where
  inUse : ∀ c, (r.session.native.store 0).isOpen c = true → r.InUse c

variable {m : SystemsManager} {r r' : Custody}

theorem Unsettled.settle (hr : Unsettled r) : Settled r.settle := by
  obtain ⟨n, hrun, hone, hstore⟩ := Systems.closeAbandoned_one r.session hr.connected.one fun _ => r.keeps
  have hsession : r.settle.session = r.session.withNative n := hrun
  have hnative : r.settle.session.native.store 0 =
      (r.session.native.store 0).closeAll (Systems.abandoned r.session r.keeps 0) := by
    rw [hsession]
    exact hstore
  have halone := fun c => (congrArg (Store.alone? · c) hnative).trans (Store.alone?_closeAll _ _ c)
  have hsize := (congrArg (fun s : Store => s.connections.size) hnative).trans (Store.size_closeAll _ _)
  have hopen : ∀ c, (r.settle.session.native.store 0).isOpen c = true ↔
      (r.session.native.store 0).isOpen c = true ∧ r.InUse c := by
    intro c
    rw [hnative, Store.isOpen_closeAll, Systems.mem_abandoned]
    unfold InUse
    cases (r.session.native.store 0).isOpen c <;> cases r.keeps c <;> cases Systems.isHeld r.session 0 c <;> simp
  -- what refers to a connection is the same
  have huse : ∀ c, r.settle.InUse c ↔ r.InUse c := by
    intro c
    have hheld : Systems.isHeld r.settle.session 0 c = Systems.isHeld r.session 0 c := by
      rw [hsession]
      rfl
    unfold InUse
    rw [hheld]
    rfl
  refine ⟨⟨?_, ?_, fun c hc => ?_, fun c hc => ?_, fun c hlt hnot huse' => ?_⟩, fun c hc => ?_⟩
  · refine hr.connected.congr ?_ ?_ halone ?_
    · rw [hsession]
      exact hone
    · rw [hnative]
      exact hr.connected.tallied.closeAll _
    · rw [hsession]
      exact fun _ => rfl
  · rw [hsession]
    exact hr.cleaned.steady (.withNative _ n)
  · rw [hsize]
    exact hr.closed c hc
  · exact hr.lasting c ((hopen c).1 hc).1
  · have hin := (huse c).1 huse'
    exact (hopen c).2 ⟨hr.used c (hsize ▸ hlt) hnot hin, hin⟩
  · exact (huse c).2 ((hopen c).1 hc).2

/-! ## Steps -/

/-- A connection was in use before if it was kept, or what refers to its holder did so before. -/
theorem InUse.before {c : ConnectionId} (huse : r'.InUse c) (hkept : r'.keeps c = true → r.InUse c)
    (href : ∀ h, h < r.session.holders.size → r'.session.Referenced h → r.session.Referenced h)
    (hholders : ∀ h x, r'.session.holder? h = some x → x.resource = .connection 0 c →
      (r'.session.holder? h).map Holder.resource = (r.session.holder? h).map Holder.resource) : r.InUse c := by
  rcases huse with hkeeps | hheld
  · exact hkept hkeeps
  · obtain ⟨h, x', hx', hresource, hr'⟩ := (Systems.isHeld_iff ..).1 hheld
    have hsame := hholders h x' hx' hresource
    rw [hx'] at hsame
    obtain ⟨x, hx, hsame⟩ := Option.map_eq_some_iff.1 hsame.symm
    exact .inr ((Systems.isHeld_iff ..).2 ⟨h, x, hx, hsame.trans hresource, href h (holder?_lt hx) hr'⟩)

/-- A connection that ended was there. -/
theorem Unsettled.ended_lt (hr : Unsettled r) {c : ConnectionId} (hended : r.Ended c) :
    c < (r.session.native.store 0).connections.size := by
  rcases hended with hcleaned | hclosed
  · obtain ⟨h, x, hx, hsame⟩ := hr.cleaned.known _ hcleaned
    obtain ⟨k, hresource, hk⟩ := hr.connected.resource h x hx
    cases hresource.symm.trans hsame
    exact Store.alone?_lt hk
  · exact hr.closed c hclosed

/-- No connection was opened, those were closed that ended, and nothing refers to more of them. -/
theorem Settled.after (hr : Settled r) (cs : List ConnectionId)
    (hone : r'.session.native.stores.size = r.session.native.stores.size)
    (hroster : (r'.session.native.store 0).roster = ((r.session.native.store 0).closeAll cs).roster)
    (hcleaned : CleanedUp r'.session r'.cleanups)
    (hended : ∀ c, r'.Ended c ↔ r.Ended c ∨ (c ∈ cs ∧ c < (r.session.native.store 0).connections.size))
    (hholders : ∀ h, (r'.session.holder? h).map Holder.resource = (r.session.holder? h).map Holder.resource)
    (href : ∀ h, h < r.session.holders.size → r'.session.Referenced h → r.session.Referenced h)
    (hkept : ∀ c, r'.keeps c = true → r.InUse c) : Unsettled r' := by
  have hsize := (Store.size_of_roster hroster).trans (Store.size_closeAll cs _)
  have hopen : ∀ c, (r'.session.native.store 0).isOpen c = true ↔
      (r.session.native.store 0).isOpen c = true ∧ c ∉ cs := by
    intro c
    rw [Store.isOpen_of_roster hroster, Store.isOpen_closeAll]
  have huse : ∀ c, r'.InUse c → r.InUse c := fun c hin => hin.before (hkept c) href fun h _ _ _ => hholders h
  refine ⟨?_, hcleaned, fun c hc => ?_, fun c hc hend => ?_, fun c hlt hnot hin => ?_⟩
  · exact hr.connected.congr (hone.trans hr.connected.one)
      (Store.tallied_of_roster hroster (hr.connected.tallied.closeAll cs))
      (fun c => (Store.alone?_of_roster hroster c).trans (Store.alone?_closeAll cs _ c)) hholders
  · rw [hsize]
    rcases (hended c).1 (.inr hc) with hend | ⟨-, hlt⟩
    · exact hr.ended_lt hend
    · exact hlt
  · obtain ⟨hopen, hnot⟩ := (hopen c).1 hc
    rcases (hended c).1 hend with hend | ⟨hmem, -⟩
    · exact hr.lasting c hopen hend
    · exact hnot hmem
  · rw [hsize] at hlt
    exact (hopen c).2 ⟨hr.used c hlt (fun h => hnot ((hended c).2 (.inl h))) (huse c hin),
      fun hmem => hnot ((hended c).2 (.inr ⟨hmem, hlt⟩))⟩

/-- Nothing was done to any connection, and nothing refers to more of them. -/
theorem Settled.unchanged (hr : Settled r) (hroster : r'.session.native.roster 0 = r.session.native.roster 0)
    (hcleaned : CleanedUp r'.session r.cleanups)
    (hholders : ∀ h, (r'.session.holder? h).map Holder.resource = (r.session.holder? h).map Holder.resource)
    (href : ∀ h, h < r.session.holders.size → r'.session.Referenced h → r.session.Referenced h)
    (hkept : ∀ c, r'.keeps c = true → r.InUse c) (hclosed : r'.closed = r.closed)
    (hcleanups : r'.cleanups = r.cleanups) : Unsettled r' := by
  refine hr.after [] (congrArg Prod.fst hroster) (congrArg Prod.snd hroster) (hcleanups ▸ hcleaned) (fun c => ?_)
    hholders href hkept
  unfold Ended
  rw [hclosed, hcleanups]
  simp

/-- A connection was opened. -/
theorem Settled.opened (hr : Settled r) (readOnly autoCommit : Bool) (isolation : Isolation)
    (hconnected : Connected r'.session) (hcleaned : CleanedUp r'.session r'.cleanups)
    (hroster : (r'.session.native.store 0).roster =
      ((r.session.native.store 0).connect readOnly autoCommit isolation).2.roster)
    (hclosed : r'.closed = r.closed) (hcleanups : r'.cleanups = r.cleanups)
    (huse : ∀ c, c ≠ (r.session.native.store 0).connections.size → r'.InUse c → r.InUse c) : Unsettled r' := by
  have hsame : ∀ c, r'.Ended c ↔ r.Ended c := by
    intro c
    unfold Ended
    rw [hclosed, hcleanups]
  have hsize : (r'.session.native.store 0).connections.size = (r.session.native.store 0).connections.size + 1 :=
    (Store.size_of_roster hroster).trans (Array.size_push _)
  have hopen : ∀ c, (r'.session.native.store 0).isOpen c = true ↔
      c = (r.session.native.store 0).connections.size ∨ (r.session.native.store 0).isOpen c = true := by
    intro c
    rw [Store.isOpen_of_roster hroster, Store.isOpen_connect, Bool.or_eq_true, beq_iff_eq]
  refine ⟨hconnected, hcleaned, fun c hc => ?_, fun c hc hend => ?_, fun c hlt hnot hin => ?_⟩
  · rw [hsize]
    exact Nat.lt_succ_of_lt (hr.closed c (hclosed ▸ hc))
  · rcases (hopen c).1 hc with rfl | hopen
    · exact Nat.lt_irrefl _ (hr.ended_lt ((hsame _).1 hend))
    · exact hr.lasting c hopen ((hsame c).1 hend)
  · refine (hopen c).2 ?_
    rw [hsize] at hlt
    rcases Nat.lt_succ_iff_lt_or_eq.1 hlt with hlt | heq
    · exact .inr (hr.used c hlt (fun h => hnot ((hsame c).2 h)) (huse c (Nat.ne_of_lt hlt) hin))
    · exact .inl heq

end Custody

end Demarcation
