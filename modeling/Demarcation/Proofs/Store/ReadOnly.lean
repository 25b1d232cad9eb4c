/-
Read-only transactions. A read-only connection refuses every change, so that nothing is ever staged on it and nothing
is published from it. The transaction of a read-only definition has such a connection for good: whichever scopes join
it or nest in it, and however they and it end, the committed entries stay.
-/
import Demarcation.Proofs.Attempts
import Demarcation.Proofs.InsideOut
import Demarcation.Proofs.Store.Outcome
import Demarcation.Proofs.Store.Rewinding
import Demarcation.Proofs.Store.Work

namespace Demarcation

open Session Manager

namespace Store

/-! ## Read-only connections -/

/-- A read-only connection with nothing staged. -/
def Barren (c : ConnectionId) (s : Store) : Prop :=
  ∃ conn, s.connection? c = some conn ∧ conn.readOnly = true ∧ conn.log = []

namespace Barren

variable {s s' : Store} {c : ConnectionId} {call : StoreCall}

theorem log (hs : s.Barren c) : s.log c = [] := by
  obtain ⟨conn, hconn, -, hlog⟩ := hs
  rw [log_of_connection hconn, hlog]

theorem counted (hs : s.Barren c) (p : Primitive) : (s.counted p).Barren c := hs

theorem write_refused (hs : s.Barren c) (w : Write) : s.write c w = .error (.readOnly c.number) := by
  obtain ⟨conn, hconn, hreadOnly, -⟩ := hs
  have hrefused : s.isReadOnly c = true := by
    unfold isReadOnly
    rw [hconn]
    exact hreadOnly
  unfold write
  rw [if_pos hrefused]

theorem data_refused (hs : s.Barren c) {d : Script.DataStep} (hw : d.write?.isSome = true) :
    ∃ e, d.run c s = .error e := by
  cases hrun : d.run c s with
  | error e => exact ⟨e, rfl⟩
  | ok a =>
    obtain ⟨w, hsome⟩ := Option.isSome_iff_exists.1 hw
    have hwritten := data_run hrun
    rw [hsome] at hwritten
    cases (hs.write_refused w).symm.trans hwritten

/-- A call on the connection that succeeds makes no change. -/
theorem effect (hs : s.Barren c) (hcall : call.connection? = some c) (hrun : call.run s = (.ok (), s')) :
    call.effect s = .nothing ∨ call.effect s = .committed c ∨ ∃ keep, call.effect s = .dropped c keep := by
  induction call generalizing s with
  | connect | store => cases hcall
  | data k d =>
    cases hcall
    cases hw : d.write? with
    | none =>
      left
      unfold StoreCall.effect
      rw [hw]
      rfl
    | some w =>
      obtain ⟨e, hrefused⟩ := hs.data_refused (d := d) (by rw [hw]; rfl)
      obtain ⟨a, ha, -⟩ := except_map_ok (StoreCall.changing_ok hrun)
      cases hrefused.symm.trans ha
  | commit k => cases hcall; exact .inr (.inl rfl)
  | rollback k | rollbackTo k sp => cases hcall; exact .inr (.inr ⟨_, rfl⟩)
  | savepoint k | release k sp => exact .inl rfl
  | close k =>
    cases hcall
    unfold StoreCall.effect
    split
    · exact .inl rfl
    · exact .inr (.inr ⟨0, rfl⟩)
  | primitive p call ih =>
    have hinner := ih (hs.counted p) hcall (primitive_ok hrun)
    rw [StoreCall.effect_counted] at hinner
    exact hinner

/-- No call on the connection changes what is committed, nor what is staged. -/
theorem shows (hs : s.Barren c) (hcall : call.connection? = some c) :
    (call.run s).2.entries = s.entries ∧ (call.run s).2.log c = [] := by
  have hlog := hs.log
  rcases hrun : call.run s with ⟨f | ⟨⟩, s'⟩
  · have hshows := StoreCall.run_error hrun
    exact ⟨hshows.entries, (hshows.log c).trans hlog⟩
  · have hshows := StoreCall.run_ok hrun
    have hentries := hshows.entries
    have hstaged := hshows.log c
    rcases hs.effect hcall hrun with heffect | heffect | ⟨keep, heffect⟩ <;> rw [heffect] at hentries hstaged
    · exact ⟨hentries, hstaged.trans hlog⟩
    · -- a commit publishes what is staged, which is nothing
      refine ⟨hentries.trans ?_, hstaged.trans (if_pos rfl)⟩
      show s.entries.applyAll (s.log c) = s.entries
      rw [hlog]
      rfl
    · refine ⟨hentries, (hstaged.trans (if_pos rfl)).trans ?_⟩
      rw [hlog]
      exact List.take_nil

theorem called (hs : s.Barren c) (call : StoreCall) : (call.run s).2.Barren c := by
  obtain ⟨conn, hconn, hreadOnly, hnone⟩ := id hs
  have hkeeps := Keeps.called call s
  by_cases hcall : call.connection? = some c
  · obtain ⟨conn', hconn', hmode⟩ := hkeeps.mode c conn hconn
    have hsame : conn'.readOnly = conn.readOnly := congrArg ConnectionMode.readOnly hmode
    refine ⟨conn', hconn', hsame.trans hreadOnly, ?_⟩
    rw [← log_of_connection hconn']
    exact (hs.shows hcall).2
  · exact ⟨conn, hkeeps.others c conn hcall hconn, hreadOnly, hnone⟩

theorem ran (hs : s.Barren c) (calls : List StoreCall) : (Store.ran calls s).Barren c := by
  induction calls generalizing s with
  | nil => exact hs
  | cons call calls ih => exact ih (hs.called call)

theorem connect (s : Store) (autoCommit : Bool) (isolation : Isolation) :
    (s.connect true autoCommit isolation).2.Barren s.connections.size := by
  refine ⟨{ id := ConnectionId.number s.connections.size, readOnly := true, autoCommit, isolation }, ?_, rfl, rfl⟩
  exact Array.getElem?_push_size

end Barren

end Store

/-! ## The connections of read-only transactions -/

/-- A scope has the definition that it was opened with. -/
theorem Manager.Opening.definition {σ ρ ς : Type} {m : Manager σ ρ ς} {c : ContextIndex} {d : Definition}
    {s s' : Session σ ρ ς} {t : StatusId} {st : Status ς} (ho : Opening m c d s (.ok t) s')
    (hst : s'.status? t = some st) : st.definition = d := by
  cases ho with
  | untransacted | begun | detached | renewed | nested | joined =>
    obtain rfl := status_of_added hst
    rfl

/-- The transaction of every scope that began one with a read-only definition has a read-only connection, on which
nothing is staged. -/
def ReadOnlyKept (s : Session Store ConnectionId Savepoint) : Prop :=
  ∀ t st h, s.status? t = some st → st.newTransaction = true → st.definition.readOnly = true → st.holder = some h →
    ∃ x, s.holder? h = some x ∧ s.native.Barren x.resource

section Keeping

variable {key : ResourceKey} {capabilities : Capabilities} {config : ManagerConfig}
  {s s' : Session Store ConnectionId Savepoint}

theorem Store.barren_of_start {d : Definition} {n n' : Store} {c : ConnectionId} (hd : d.readOnly = true)
    (hstart : (Store.backend key capabilities).start d n = (.ok c, n')) : n'.Barren c := by
  have hopened := Store.primitive_ok hstart
  have hbarren := Store.Barren.connect (n.counted .begin) false d.isolation
  rw [← hd] at hbarren
  cases hopened
  exact hbarren

/-- A connection stays read-only and without changes whatever is called. -/
theorem barren_called (call : ManagerCall (ContextIndex × StoreWork)) {k : ConnectionId} (hs : s.native.Barren k) :
    ((storeManager key capabilities config).called (StoreWork.perform key) s call).native.Barren k := by
  have hcalls : ∀ (call : StoreCall) n, n.Barren k → (call.run n).2.Barren k := fun call _ hn => hn.called call
  exact called_maintained (Store.maintains_of_calls hcalls key capabilities) call
    (fun work _ => StoreWork.maintained hcalls work hs) hs

theorem barren_holder_called (call : ManagerCall (ContextIndex × StoreWork)) {h : HolderId} {x : Holder ConnectionId}
    (hx : s.holder? h = some x) (hs : s.native.Barren x.resource) :
    ∃ x', ((storeManager key capabilities config).called (StoreWork.perform key) s call).holder? h = some x' ∧
      ((storeManager key capabilities config).called (StoreWork.perform key) s call).native.Barren x'.resource := by
  obtain ⟨x', hx', hsame⟩ := called_holder (storeManager key capabilities config) call
    (fun work _ => StoreWork.steady work s) hx
  exact ⟨x', hx', hsame ▸ barren_called call hs⟩

theorem ReadOnlyKept.called (hs : ReadOnlyKept s) (call : ManagerCall (ContextIndex × StoreWork)) :
    ReadOnlyKept ((storeManager key capabilities config).called (StoreWork.perform key) s call) := by
  have hsteady : ∀ work, call = .act work → Steady s (StoreWork.perform key work s) :=
    fun work _ => StoreWork.steady work s
  intro t st' h hst' hnew hreadOnly hh
  cases hst : s.status? t with
  | some st =>
    have hsame : st.newTransaction = st'.newTransaction ∧ st.definition = st'.definition ∧ st.holder = st'.holder := by
      rcases called_status_cases (storeManager key capabilities config) call hsteady hst with
        ⟨st₁, hst₁, hunmarked⟩ | ⟨_, _, state, _, _, hst₁⟩
      · obtain rfl := Option.some.inj (hst₁.symm.trans hst')
        obtain ⟨on, rfl⟩ := Status.eq_of_unmarked hunmarked
        exact ⟨rfl, rfl, rfl⟩
      · obtain rfl := Option.some.inj (hst₁.symm.trans hst')
        exact ⟨rfl, rfl, rfl⟩
    obtain ⟨hnew₀, hdefinition, hholder⟩ := hsame
    obtain ⟨x, hx, hbarren⟩ := hs t st h hst (hnew₀.trans hnew) (hdefinition ▸ hreadOnly) (hholder.trans hh)
    exact barren_holder_called call hx hbarren
  | none =>
    obtain ⟨c, d, rfl, -, -⟩ := called_status_new (storeManager key capabilities config) call hsteady hst hst'
    obtain ⟨r, s', hrun, hopen⟩ := getTransaction_spec (storeManager key capabilities config) c d s
    change ((storeManager key capabilities config).getTransaction c d s).2.status? t = some st' at hst'
    show ∃ x, ((storeManager key capabilities config).getTransaction c d s).2.holder? h = some x ∧
      ((storeManager key capabilities config).getTransaction c d s).2.native.Barren x.resource
    rw [hrun] at hst' ⊢
    have hpurged : (s.purge c (storeManager key capabilities config).backend.key).status? t = none :=
      ((Alike.purge (φ := id) s c _).status? t).trans hst
    cases hopen.outline (.const _) with
    | failed halike => cases ((halike.status? t).trans hpurged).symm.trans hst'
    | entered halike _ _ hjoined =>
      rw [status?_addStatus, halike.status?, hpurged] at hst'
      split at hst'
      · cases hst'
        cases hjoined.symm.trans hnew
      · cases hst'
    | @begun s₁ st x n halike _ hstart _ _ _ _ _ hlast =>
      have hadded := hst'
      rw [status?_addStatus, status?_started, halike.status?, hpurged] at hst'
      split at hst'
      · rename_i hsize
        cases hst'
        rw [hsize] at hadded
        have hdefinition := hopen.definition hadded
        obtain rfl := Option.some.inj (hlast.symm.trans hh)
        refine ⟨x, ?_, ?_⟩
        · rw [holder?_addStatus, holder?_started, if_pos rfl]
        · exact Store.barren_of_start (hdefinition ▸ hreadOnly) hstart
      · cases hst'

theorem ReadOnlyKept.calledAll (hs : ReadOnlyKept s) (calls : List (ManagerCall (ContextIndex × StoreWork))) :
    ReadOnlyKept ((storeManager key capabilities config).calledAll (StoreWork.perform key) calls s) := by
  induction calls generalizing s with
  | nil => exact hs
  | cons call calls ih => exact ih (hs.called call)

theorem ReadOnlyKept.start (contexts : Nat) (store : Store) : ReadOnlyKept (Session.ofContexts contexts store) := by
  intro t st h hst
  cases hst

end Keeping

/-! ## What is done for a transaction -/

section Asking

variable {key : ResourceKey} {c : ContextIndex} {s : Session Store ConnectionId Savepoint} {h : HolderId}
  {x : Holder ConnectionId}

/-- In a context in which a transaction is bound, its connection is answered, or none. -/
theorem StoreSite.access_live (hlive : s.LiveBound c key h x) :
    ∃ r s', (whole key).access c s = (r, s') ∧ s'.native = s.native ∧ ∀ a, r = .ok a → a = .transactional h x.resource := by
  obtain ⟨hb, hx, hl⟩ := hlive
  obtain ⟨r, hfind, hlook⟩ := find_spec s c kind key
  rw [purge_of_live hb hx hl] at hfind hlook
  cases hlook with
  | unbound hnone => cases hb.symm.trans hnone
  | foreign e => exact ⟨_, _, attempt_bind_error (find_adapted hfind), rfl, nofun⟩
  | live hb' hx' =>
    obtain rfl := Option.some.inj (hb'.symm.trans hb)
    obtain rfl := Option.some.inj (hx'.symm.trans hx)
    obtain ⟨r, y, hrun, -, hanswer⟩ := access_bound hfind hx
    exact ⟨r, _, hrun, rfl, hanswer⟩

/-- Work on data through such a context is done on the transaction's connection, or not at all. -/
theorem StoreSite.through_live (hlive : s.LiveBound c key h x) (d : Script.DataStep) :
    ((∃ e, ((whole key).through c d.run s).1 = .error e) ∧ ((whole key).through c d.run s).2.native = s.native) ∨
    (((whole key).through c d.run s).1 = (d.run x.resource s.native).map Prod.fst ∧
      ((whole key).through c d.run s).2.native = ((StoreCall.data x.resource d).run s.native).2) := by
  obtain ⟨r, s₁, haccess, hsame, hanswer⟩ := access_live hlive
  rw [through_eq, haccess]
  cases r with
  | error e => exact .inl ⟨⟨e, rfl⟩, hsame⟩
  | ok a =>
    obtain rfl := hanswer a rfl
    refine .inr ⟨?_, ?_⟩
    · show ((whole key).perform (d.run x.resource) s₁).1 = _
      rw [← hsame]
      unfold perform
      rw [show (whole key).store s₁ = s₁.native from rfl]
      rcases d.run x.resource s₁.native with e | ⟨a, n⟩ <;> rfl
    · show ((whole key).perform (d.run x.resource) s₁).2.native = _
      rw [StoreWork.perform_data, hsame]
      rfl

end Asking

/-- A call that is made for the transaction of a holder: a scope is opened where it is bound, one of its scopes is
completed, data are worked on where it is bound, or its connection is called. Requests for a rollback, failures that
are planned and the clock concern no data. -/
inductive Session.MadeFor (s : Session Store ConnectionId Savepoint) (key : ResourceKey) (h : HolderId) :
    ManagerCall (ContextIndex × StoreWork) → Prop
  | enter {c : ContextIndex} {d : Definition} {x : Holder ConnectionId} : s.LiveBound c key h x →
    MadeFor s key h (.enter c d)
  | conclude {commit : Bool} {c : ContextIndex} {t : StatusId} {st : Status Savepoint} : s.status? t = some st →
    st.holder = some h → MadeFor s key h (.conclude commit c t)
  | mark (t : StatusId) : MadeFor s key h (.mark t)
  | data {c : ContextIndex} {d : Script.DataStep} {x : Holder ConnectionId} : s.LiveBound c key h x →
    MadeFor s key h (.act (c, .data d))
  | access {c : ContextIndex} {x : Holder ConnectionId} : s.LiveBound c key h x → MadeFor s key h (.act (c, .access))
  | direct {c : ContextIndex} {call : StoreCall} {x : Holder ConnectionId} : s.holder? h = some x →
    call.connection? = some x.resource → MadeFor s key h (.act (c, .direct call))
  | store (c : ContextIndex) (step : Script.StoreStep) : MadeFor s key h (.act (c, .direct (.store step)))
  | wait (c : ContextIndex) (now : Instant) : MadeFor s key h (.act (c, .wait now))

/-- Calls one after another that are all made for the transaction of a holder. -/
def Manager.AllMadeFor (m : Manager Store ConnectionId Savepoint) (key : ResourceKey) (h : HolderId) :
    List (ManagerCall (ContextIndex × StoreWork)) → Session Store ConnectionId Savepoint → Prop
  | [], _ => True
  | call :: calls, s => s.MadeFor key h call ∧ m.AllMadeFor key h calls (m.called (StoreWork.perform key) s call)

section Publishing

variable {key : ResourceKey} {capabilities : Capabilities} {config : ManagerConfig}
  {s : Session Store ConnectionId Savepoint} {h : HolderId} {x : Holder ConnectionId}

theorem entries_of_enter (c : ContextIndex) (d : Definition) :
    ((storeManager key capabilities config).getTransaction c d s).2.native.entries = s.native.entries := by
  have hsame : ((storeManager key capabilities config).called (StoreAct.perform key) s (.enter c d)).native.entries =
      s.native.entries := called_entries (.enter c d) (fun _ => nofun) fun _ _ _ _ => nofun
  exact hsame

theorem entries_of_conclude (hs : Owned s) (hx : s.holder? h = some x) (hbarren : s.native.Barren x.resource)
    (commit : Bool) (c : ContextIndex) {t : StatusId} {st : Status Savepoint} (hst : s.status? t = some st)
    (hh : st.holder = some h) :
    ((storeManager key capabilities config).conclude commit c t s).2.native.entries = s.native.entries := by
  by_cases howner : st.isCompleted = false ∧ st.newTransaction = true
  · obtain ⟨hopen, hnew⟩ := howner
    obtain ⟨hsp, -⟩ := hs.own t st hst hnew
    obtain ⟨r, s', hrun, hc⟩ := conclude_spec (storeManager key capabilities config) commit c hst hopen
    obtain ⟨state, -, -, hcommitted, hother, -⟩ := hc.published hst hnew hsp hh hx
    rw [hrun]
    by_cases hstate : state = .committed
    · -- all that is published is what was staged, which is nothing
      obtain ⟨conn, hconn, hentries⟩ := hcommitted hstate
      have hlog := hbarren.log
      rw [Store.log_of_connection hconn] at hlog
      rw [hentries, hlog]
      rfl
    · exact hother hstate
  · have hparticipant : ∀ commit' c' u st', (.conclude commit c t : ManagerCall StoreAct) = .conclude commit' c' u →
        s.status? u = some st' → st'.isCompleted = false → st'.newTransaction = false := by
      rintro commit' c' u st' ⟨⟩ hst' hopen
      obtain rfl := Option.some.inj (hst'.symm.trans hst)
      simpa [hopen] using howner
    have hsame : ((storeManager key capabilities config).called (StoreAct.perform key) s
        (.conclude commit c t)).native.entries = s.native.entries :=
      called_entries (.conclude commit c t) (fun _ => nofun) hparticipant
    exact hsame

/-- No call that is made for a transaction with a read-only connection changes the committed entries. -/
theorem Session.MadeFor.entries {call : ManagerCall (ContextIndex × StoreWork)} (hcall : s.MadeFor key h call)
    (hs : Owned s) (hx : s.holder? h = some x) (hbarren : s.native.Barren x.resource) :
    ((storeManager key capabilities config).called (StoreWork.perform key) s call).native.entries =
      s.native.entries := by
  cases hcall with
  | enter => exact entries_of_enter _ _
  | conclude hst hh => exact entries_of_conclude hs hx hbarren _ _ hst hh
  | mark | wait => rfl
  | @data c d y hlive =>
    obtain rfl := Option.some.inj (hlive.2.1.symm.trans hx)
    show ((StoreSite.whole key).through c d.run s).2.native.entries = _
    rcases StoreSite.through_live hlive d with ⟨-, hsame⟩ | ⟨-, hsame⟩
    · rw [hsame]
    · rw [hsame]
      have hcall : (StoreCall.data y.resource d).connection? = some y.resource := rfl
      exact (hbarren.shows hcall).1
  | access hlive =>
    obtain ⟨r, s', hrun, hsame, -⟩ := StoreSite.access_live hlive
    show ((StoreSite.whole key).access _ s).2.native.entries = _
    rw [hrun, hsame]
  | direct hy hconn =>
    obtain rfl := Option.some.inj (hy.symm.trans hx)
    exact (hbarren.shows hconn).1
  | store c step =>
    show ((StoreCall.store step).run s.native).2.entries = _
    rcases hrun : (StoreCall.store step).run s.native with ⟨f | ⟨⟩, n⟩
    · exact (StoreCall.run_error hrun).entries
    · exact (StoreCall.run_ok hrun).entries

theorem entries_of_allMadeFor (hs : Owned s) (hx : s.holder? h = some x) (hbarren : s.native.Barren x.resource)
    {calls : List (ManagerCall (ContextIndex × StoreWork))}
    (hcalls : (storeManager key capabilities config).AllMadeFor key h calls s) :
    ((storeManager key capabilities config).calledAll (StoreWork.perform key) calls s).native.entries =
      s.native.entries := by
  induction calls generalizing s x with
  | nil => rfl
  | cons call calls ih =>
    obtain ⟨hmade, hlater⟩ := hcalls
    obtain ⟨x', hx', hbarren'⟩ := barren_holder_called call hx hbarren
    have hs' : Owned ((storeManager key capabilities config).called (StoreWork.perform key) s call) :=
      hs.called call fun work _ => StoreWork.steady work s
    exact (ih hs' hx' hbarren' hlater).trans (hmade.entries hs hx hbarren)

end Publishing

/-! ## Nested scopes -/

/-- Work in a context that leaves other connections alone. -/
def ScopeCall.Inside (c : ContextIndex) : ScopeCall (ContextIndex × StoreWork) → Prop
  | .act (c', .data _) | .act (c', .access) => c' = c
  | .enter _ | .leave _ | .mark _ | .act (_, .direct (.store _)) | .act (_, .wait _) => True
  | .act (_, .direct _) => False

/-- The transaction of the innermost scope. -/
def Nest.transaction? (n : Nest Store ConnectionId Savepoint) : Option HolderId := do
  let x ← n.scopes.head?
  let st ← n.session.status? x.status
  st.holder

/-- Calls in a context in which the innermost scope is always one of a holder's transaction. -/
def Nest.Within (m : Manager Store ConnectionId Savepoint) (c : ContextIndex) (h : HolderId) :
    List (ScopeCall (ContextIndex × StoreWork)) → Nest Store ConnectionId Savepoint → Prop
  | [], _ => True
  | call :: calls, n =>
    n.transaction? = some h ∧ call.Inside c ∧
      Nest.Within m c h calls (n.step m c (StoreWork.perform m.backend.key) call)

section Nested

variable {m : Manager Store ConnectionId Savepoint} {c : ContextIndex} {s₀ : Session Store ConnectionId Savepoint}
  {n : Nest Store ConnectionId Savepoint} {h : HolderId}

theorem Nest.transaction?_eq_some (h : HolderId) (n : Nest Store ConnectionId Savepoint) : n.transaction? = some h ↔
    ∃ x rest st, n.scopes = x :: rest ∧ n.session.status? x.status = some st ∧ st.holder = some h := by
  unfold Nest.transaction?
  rcases n with ⟨s, _ | ⟨x, rest⟩⟩
  · simp
  · simp [Option.bind_eq_some_iff]

theorem StoreWork.quiet {key : ResourceKey} {s : Session Store ConnectionId Savepoint}
    (work : ContextIndex × StoreWork) (hpurge : s.purge work.1 key = s) : Quiet s (StoreWork.perform key work s) := by
  rcases work with ⟨c', d | _ | call | now⟩
  · have honward := StagingAct.data_onward key c' d s
    rw [hpurge] at honward
    exact honward.quiet
  · obtain ⟨r, s', hrun, haccess⟩ := StoreSite.access_spec key c' s
    rw [hpurge] at haccess
    show Quiet s ((StoreSite.whole key).access c' s).2
    rw [hrun]
    exact haccess.onward.quiet
  · exact .withNative s _
  · exact ⟨rfl, fun _ => rfl, fun _ => rfl⟩

/-- Work in any context leaves the scopes of one nested, if nothing else is bound. -/
theorem Nested.work (hn : Nested m c s₀ n) (hfree : ∀ c', s₀.bound c' m.backend.key = none)
    (calls : List (ScopeCall (ContextIndex × StoreWork))) :
    Nested m c s₀ (n.run m c (StoreWork.perform m.backend.key) calls) := by
  induction calls generalizing n with
  | nil => exact hn
  | cons call calls ih =>
    refine ih (hn.step _ call fun work _ => StoreWork.quiet work ?_)
    by_cases hc : work.1 = c
    · rw [hc, hn.purge_eq]
    · refine purge_of_unbound ?_
      rw [hn.others work.1 m.backend.key fun heq => hc heq.1, hfree]

/-- The transaction of the innermost scope is bound. -/
theorem Nested.liveBound (hn : Nested m c s₀ n) {x : OpenScope Store ConnectionId Savepoint}
    {rest : List (OpenScope Store ConnectionId Savepoint)} {st : Status Savepoint} (hscopes : n.scopes = x :: rest)
    (hst : n.session.status? x.status = some st) (hh : st.holder = some h) :
    ∃ y, n.session.LiveBound c m.backend.key h y := by
  have hstacked := hn.stacked
  rw [hscopes] at hstacked
  obtain ⟨st', hst', -, -, hlink, -⟩ := hstacked.top
  obtain rfl := Option.some.inj (hst'.symm.trans hst)
  have hbound := hlink.bound_of_holder hh
  obtain ⟨y, hy, hlive, -⟩ := hn.stacked.live hbound
  exact ⟨y, hbound, hy, hlive⟩

/-- Nested calls inside a transaction are made for it. -/
theorem Nest.Within.allMadeFor (hn : Nested m c s₀ n) (hfree : ∀ c', s₀.bound c' m.backend.key = none)
    {calls : List (ScopeCall (ContextIndex × StoreWork))} (hcalls : Nest.Within m c h calls n) :
    m.AllMadeFor m.backend.key h (Nest.calls m c (StoreWork.perform m.backend.key) calls n) n.session := by
  induction calls generalizing n with
  | nil => exact trivial
  | cons call calls ih =>
    obtain ⟨hinnermost, hinside, hlater⟩ := hcalls
    obtain ⟨x, rest, st, hscopes, hst, hh⟩ := (n.transaction?_eq_some h).1 hinnermost
    have hstep : Nested m c s₀ (n.step m c (StoreWork.perform m.backend.key) call) := hn.work hfree [call]
    have hrest := ih hstep hlater
    obtain ⟨y, hlive⟩ := hn.liveBound hscopes hst hh
    have hsession := n.calledAll_step m c (StoreWork.perform m.backend.key) call
    rw [← hsession] at hrest
    unfold Nest.calls
    cases call with
    | enter d => exact ⟨.enter hlive, hrest⟩
    | leave commit =>
      unfold ScopeCall.called at hrest ⊢
      rw [hscopes] at hrest ⊢
      exact ⟨.conclude hst hh, hrest⟩
    | mark t => exact ⟨.mark t, hrest⟩
    | act work =>
      rcases work with ⟨c', d | _ | op | now⟩
      · cases hinside
        exact ⟨.data hlive, hrest⟩
      · cases hinside
        exact ⟨.access hlive, hrest⟩
      · cases op with
        | store step => exact ⟨.store c' step, hrest⟩
        | _ => cases hinside
      · exact ⟨.wait c' now, hrest⟩

end Nested

/-! ## The headline -/

/-- Nothing is published for a read-only transaction. Whatever is called, a change on a read-only connection is
refused, nothing is staged on it, and no operation on it changes the committed entries. After any calls of a manager,
the transaction of a scope that began it with a read-only definition has such a connection: a change through a context
in which it is bound is refused, and no calls made for it change the committed entries, whichever scopes join it or
nest in it and however they and it are completed. In nested runs those are the calls that are made while the innermost
scope belongs to it. -/
theorem read_only_publishes_nothing (key : ResourceKey) (capabilities : Capabilities) (config : ManagerConfig) :
    let m := storeManager key capabilities config
    let act := StoreWork.perform key
    (∀ (store : Store) (autoCommit : Bool) (isolation : Isolation) (calls : List StoreCall),
      let c : ConnectionId := store.connections.size
      let s := Store.ran calls (store.connect true autoCommit isolation).2
      s.log c = [] ∧ (∀ d : Script.DataStep, d.write?.isSome = true → ∃ e, d.run c s = .error e) ∧
        ∀ call : StoreCall, call.connection? = some c → (call.run s).2.entries = s.entries) ∧
    (∀ (contexts : Nat) (store : Store) (before : List (ManagerCall (ContextIndex × StoreWork))) (t : StatusId)
        (st : Status Savepoint) (h : HolderId),
      let s := m.calledAll act before (Session.ofContexts contexts store)
      s.status? t = some st → st.newTransaction = true → st.definition.readOnly = true → st.holder = some h →
      ∃ x, s.holder? h = some x ∧ s.native.log x.resource = [] ∧
        (∀ c, s.LiveBound c key h x → ∀ d : Script.DataStep, d.write?.isSome = true →
          ∃ e, ((StoreSite.whole key).through c d.run s).1 = .error e) ∧
        ∀ calls, m.AllMadeFor key h calls s → (m.calledAll act calls s).native.entries = s.native.entries) ∧
    ∀ (contexts : Nat) (store : Store) (c : ContextIndex) (before : List (ScopeCall (ContextIndex × StoreWork)))
        (t : StatusId) (st : Status Savepoint) (h : HolderId) (calls : List (ScopeCall (ContextIndex × StoreWork))),
      let n := Nest.run m c act before ⟨Session.ofContexts contexts store, []⟩
      c < contexts → n.session.status? t = some st → st.newTransaction = true → st.definition.readOnly = true →
      st.holder = some h → Nest.Within m c h calls n →
      (n.run m c act calls).session.native.entries = n.session.native.entries := by
  intro m act
  -- what holds of every session that calls of the manager lead to
  have hreached : ∀ contexts (store : Store) before,
      ReadOnlyKept (m.calledAll act before (Session.ofContexts contexts store)) ∧
      Owned (m.calledAll act before (Session.ofContexts contexts store)) := fun contexts store before =>
    ⟨(ReadOnlyKept.start contexts store).calledAll before,
      (Owned.ofContexts contexts store).calledAll before StoreWork.steady⟩
  refine ⟨?_, ?_, ?_⟩
  · intro store autoCommit isolation calls c s
    have hs : s.Barren c := (Store.Barren.connect store autoCommit isolation).ran calls
    exact ⟨hs.log, fun d => hs.data_refused, fun call hcall => (hs.shows hcall).1⟩
  · intro contexts store before t st h s hst hnew hreadOnly hh
    obtain ⟨hkept, howned⟩ := hreached contexts store before
    obtain ⟨x, hx, hbarren⟩ := hkept t st h hst hnew hreadOnly hh
    refine ⟨x, hx, hbarren.log, ?_, fun calls => entries_of_allMadeFor howned hx hbarren⟩
    intro c hlive d hw
    rcases StoreSite.through_live hlive d with ⟨hrefused, -⟩ | ⟨hanswer, -⟩
    · exact hrefused
    · obtain ⟨e, he⟩ := hbarren.data_refused hw
      refine ⟨e, ?_⟩
      rw [hanswer, he]
      rfl
  · intro contexts store c before t st h calls n hc hst hnew hreadOnly hh hwithin
    have hfree : ∀ c', (Session.ofContexts contexts store : Session Store ConnectionId Savepoint).bound c' key = none :=
      fun c' => bound_ofContexts contexts store c' key
    have hsize : c < (Session.ofContexts contexts store : Session Store ConnectionId Savepoint).registries.size := by
      simpa [Session.ofContexts] using hc
    have hn : Nested m c (Session.ofContexts contexts store) n := (Nested.start hsize (hfree c)).work hfree before
    have hsession : m.calledAll act (Nest.calls m c act before ⟨Session.ofContexts contexts store, []⟩)
        (Session.ofContexts contexts store) = n.session := Nest.calledAll_calls before _
    obtain ⟨hkept, howned⟩ := hreached contexts store (Nest.calls m c act before ⟨_, []⟩)
    rw [hsession] at hkept howned
    obtain ⟨x, hx, hbarren⟩ := hkept t st h hst hnew hreadOnly hh
    rw [← Nest.calledAll_calls]
    exact entries_of_allMadeFor howned hx hbarren (hwithin.allMadeFor hn hfree)

/-- A scope that may write joins a read-only transaction and fails to write through the context. Both are then
committed. -/
theorem read_only_publishes_nothing_joined :
    let m := storeManager ⟨7⟩ .all {}
    let n := Nest.run m 0 (StoreWork.perform ⟨7⟩) [.enter { readOnly := true }]
      ⟨Session.ofContexts 1 { key := ⟨7⟩ }, []⟩
    let n' := n.run m 0 (StoreWork.perform ⟨7⟩)
      [.enter {}, .act (0, .data (.put "a" .null)), .leave true, .leave true]
    n'.scopes.length = 0 ∧ n'.session.statuses.size = 2 ∧ n'.session.native.entries = n.session.native.entries := by
  intro m n n'
  have hfields : (n.session.status? 0).map (fun st => (st.newTransaction, st.definition.readOnly, st.holder)) =
      some (true, true, some 0) := by decide +kernel
  have hwithin : Nest.Within m 0 0
      [.enter {}, .act (0, .data (.put "a" .null)), .leave true, .leave true] n :=
    ⟨by decide +kernel, trivial, by decide +kernel, rfl, by decide +kernel, trivial, by decide +kernel, trivial,
      trivial⟩
  obtain ⟨st, hst, hfields⟩ := Option.map_eq_some_iff.1 hfields
  simp only [Prod.mk.injEq] at hfields
  obtain ⟨hnew, hreadOnly, hh⟩ := hfields
  have hnested := (read_only_publishes_nothing ⟨7⟩ .all {}).2.2 1 { key := ⟨7⟩ } 0 [.enter { readOnly := true }]
    0 st 0 _ (by decide) hst hnew hreadOnly hh hwithin
  exact ⟨by decide +kernel, by decide +kernel, hnested⟩

end Demarcation
