/-
What becomes of the changes of a scope that was rolled back when the owner of the transaction commits.
The mark keeps them from being published, unless a nested scope that was opened later took it back.
-/
import Demarcation.Proofs.Store.Forgiveness

namespace Demarcation

open Session Manager

/-! ## Completing the innermost scope -/

/-- The innermost scope of a ledger was completed. -/
structure Ledger.Left (l : Ledger) (x : OpenScope Store ConnectionId Savepoint)
    (rest : List (OpenScope Store ConnectionId Savepoint)) (st : Status Savepoint) (state : TransactionState)
    (s' : Session Store ConnectionId Savepoint) : Prop where
  scopes : l.nest.scopes = x :: rest
  status : l.session.status? x.status = some st
  statuses : ∀ u, s'.status? u = if u = x.status then some (st.ended state) else l.session.status? u
  holders : s'.holders.size = l.session.holders.size
  ongoing : ∀ h y, st.holder = some h → l.session.holder? h = some y → l.session.Ongoing h y.resource
  leaving : Leaving st state l.session s'

namespace Ledger.Left

variable {l : Ledger} {x : OpenScope Store ConnectionId Savepoint}
  {rest : List (OpenScope Store ConnectionId Savepoint)} {st : Status Savepoint} {state : TransactionState}
  {s' : Session Store ConnectionId Savepoint} {h : HolderId} {k : ConnectionId}

theorem inside (hx : l.Left x rest st state s') : l.nest.inside = x.status :: rest.map OpenScope.status := by
  unfold Nest.inside
  rw [hx.scopes]; rfl

theorem mem_inside (hx : l.Left x rest st state s') : x.status ∈ l.nest.inside := by
  rw [hx.inside]
  exact List.mem_cons_self ..

theorem goes_on (hx : l.Left x rest st state s') (ho : s'.Ongoing h k) : l.session.Ongoing h k := by
  cases hx.leaving with
  | @gaveUp j y _ _ _ hover hothers =>
    have hne : h ≠ j := by
      rintro rfl
      exact hover k ho
    exact (ongoing_of_fate (hothers h hne)).1 ho
  | stayed _ _ hongoing | returned _ _ _ _ _ _ hongoing => exact (hongoing h k).1 ho

theorem shrinks (hx : l.Left x rest st state s') (k : ConnectionId) :
    s'.native.log k <+: l.session.native.log k := by
  cases hx.leaving with
  | gaveUp _ _ _ _ _ honly => exact honly.shrinks k
  | stayed _ hsame => exact (Store.Grows.of_staging hsame.symm).logs k
  | returned _ _ _ _ _ hlog =>
    rw [hlog]
    split
    · exact List.take_prefix _ _
    · exact List.prefix_refl _

theorem size (hx : l.Left x rest st state s') :
    s'.native.connections.size = l.session.native.connections.size := by
  cases hx.leaving with
  | gaveUp _ _ _ _ _ honly => exact honly.size
  | stayed _ hsame => exact congrArg Prod.snd hsame
  | returned _ _ _ _ hsize => exact hsize

/-- A transaction that goes on keeps what is staged and its mark, unless the scope returned to its
savepoint. -/
theorem cases_ongoing (hx : l.Left x rest st state s') (hl : Accounted l) (ho : s'.Ongoing h k) :
    (s'.native.log k = l.session.native.log k ∧ (l.session.marked h = true → s'.marked h = true) ∧
      (st.newTransaction = false → state = .rolledBack → st.holder = some h → s'.marked h = true)) ∨
    ∃ sp, st.savepoint = some sp ∧ st.holder = some h ∧
      s'.native.log k = (l.session.native.log k).take sp.mark := by
  have hgoes := hx.goes_on ho
  cases hx.leaving with
  | @gaveUp j y hnew hj hy hover hothers honly =>
    have hne : h ≠ j := by
      rintro rfl
      exact hover k ho
    refine .inl ⟨honly.others k ?_, ?_, fun hnew' => ?_⟩
    · rintro rfl
      exact hne (hl.apart h j _ hgoes (hx.ongoing j y hj hy))
    · rw [marked_of_fate (hothers h hne)]; exact id
    · rw [hnew] at hnew'; cases hnew'
  | stayed _ hsame _ hmarked hback =>
    exact .inl ⟨congrFun (congrArg Prod.fst hsame) k, hmarked h, fun _ hstate hh => hback hstate h hh⟩
  | @returned j y sp hnew hsp hj hy _ hlog _ hmarked =>
    have hj' := hx.ongoing j y hj hy
    by_cases hne : h = j
    · subst hne
      obtain ⟨z, hz, _, rfl⟩ := hgoes
      obtain rfl := Option.some.inj (hz.symm.trans hy)
      exact .inr ⟨sp, hsp, hj, by rw [hlog, if_pos rfl]⟩
    · refine .inl ⟨?_, ?_, fun _ _ hh => absurd (Option.some.inj (hh.symm.trans hj)) hne⟩
      · rw [hlog, if_neg]
        rintro rfl
        exact hne (hl.apart h j _ hgoes hj')
      · rw [hmarked, if_neg hne]; exact id

theorem tagged (hx : l.Left x rest st state s') (hl : Tagged l) : Tagged (l.moved ⟨s', rest⟩) := by
  have hsorted := hl.sorted
  rw [hx.inside, List.pairwise_cons] at hsorted
  obtain ⟨hfirst, hrest⟩ := hsorted
  refine hl.moved (fun k => .inr (hx.shrinks k)) (statuses_le fun t st' hst' => ?_) hrest ?_ ?_ ?_ ?_
  · rw [hx.statuses]
    split
    · exact ⟨_, rfl⟩
    · exact ⟨st', hst'⟩
  · intro t ht
    obtain ⟨st', hst', ho⟩ := hl.live t (hx.inside ▸ List.mem_cons_of_mem _ ht)
    refine ⟨st', ?_, ho⟩
    show s'.status? t = some st'
    rw [hx.statuses, if_neg (Nat.ne_of_lt (hfirst t ht))]
    exact hst'
  · intro t ht
    exact .inl (hx.inside ▸ List.mem_cons_of_mem _ ht)
  · intro t ht hout u hu
    rw [hx.inside] at ht
    rcases List.mem_cons.1 ht with rfl | ht
    · exact hfirst u hu
    · exact absurd ht hout
  · intro t st' hst' hc
    rw [hx.statuses] at hst'
    split at hst'
    · rename_i ht
      refine .inr ⟨?_, fun hmem => ?_⟩
      · rw [hx.inside, ht]; exact List.mem_cons_self ..
      · exact absurd (hfirst t hmem) (ht ▸ Nat.lt_irrefl _)
    · exact .inl ⟨st', hst', hc⟩

theorem status_of_ne (hx : l.Left x rest st state s') {t : StatusId} (ht : t ≠ x.status) :
    s'.status? t = l.session.status? t := by
  rw [hx.statuses, if_neg ht]

/-- A scope that is not the one that was completed was undone before. -/
theorem undone_before (hx : l.Left x rest st state s') {t : StatusId} (ht : t ≠ x.status)
    (hu : s'.Undone t h) : l.session.Undone t h := by
  obtain ⟨st', hst', hrest⟩ := hu
  exact ⟨st', (hx.status_of_ne ht).symm.trans hst', hrest⟩

theorem status_kept (hx : l.Left x rest st state s') {t : StatusId} {st' : Status Savepoint}
    (hst' : l.session.status? t = some st') :
    ∃ st'', s'.status? t = some st'' ∧ st''.definition = st'.definition ∧ st''.holder = st'.holder := by
  by_cases ht : t = x.status
  · subst ht
    obtain rfl := Option.some.inj (hx.status.symm.trans hst')
    exact ⟨_, (hx.statuses _).trans (if_pos rfl), rfl, rfl⟩
  · exact ⟨st', (hx.status_of_ne ht).trans hst', rfl, rfl⟩

theorem saved (hx : l.Left x rest st state s') (hl : Accounted l) {t : StatusId}
    (ht : t ∈ rest.map OpenScope.status) {st' : Status Savepoint} {sp : Savepoint}
    (hst' : s'.status? t = some st') (hsp : st'.savepoint = some sp) (hh : st'.holder = some h)
    (ho : s'.Ongoing h k) : StagedFrom ((l.moved ⟨s', rest⟩).staged k) sp.mark t := by
  have hsorted := hl.sorted
  rw [hx.inside, List.pairwise_cons] at hsorted
  have hlt : t < x.status := hsorted.1 t ht
  have htl : t ∈ l.nest.inside := hx.inside ▸ List.mem_cons_of_mem _ ht
  rw [hx.status_of_ne (Nat.ne_of_lt hlt)] at hst'
  have hsaved := hl.saved t htl st' sp h k hst' hsp hh (hx.goes_on ho)
  rw [hl.staged_of_shrunk (hx.shrinks k)]
  refine hsaved.take ?_
  rcases hx.cases_ongoing hl ho with ⟨hlog, _⟩ | ⟨sp', hsp', hh', hlog⟩
  · show sp.mark ≤ (s'.native.log k).length
    rw [hlog, ← hl.logs, List.length_map]
    exact hsaved.reached
  · -- the savepoint of the scope inside is behind that of the scope around it
    have hinner := hl.saved x.status hx.mem_inside st sp' h k hx.status hsp' hh' (hx.goes_on ho)
    have hle : sp.mark ≤ sp'.mark := hsaved.le hinner fun e he hmem => hl.covered k e he _ hmem t htl hlt
    show sp.mark ≤ (s'.native.log k).length
    rw [hlog, List.length_take, ← hl.logs, List.length_map]
    exact Nat.le_min.2 ⟨hle, hsaved.reached⟩

/-- A scope that returned to its savepoint has forgiven what had ended before it was opened. What was
staged inside any other scope that ended was staged inside this one too, and is dropped. -/
theorem forgave_now (hx : l.Left x rest st state s') (hl : Accounted l) {t : StatusId}
    (hu : l.session.Undone t h) {sp : Savepoint} (hsp : st.savepoint = some sp) (hh : st.holder = some h)
    (hb : l.session.marked h = true) (hm : s'.marked h = false) {e : StagedWrite} (he : e ∈ l.staged k)
    (ht : t ∈ e.1) (hout : x.status ∉ e.1) : (l.moved ⟨s', rest⟩).Forgave t h := by
  obtain ⟨stₜ, hstₜ, hended, _⟩ := hu
  have hc : stₜ.isCompleted = true := Status.isCompleted_of_some hended
  have hafter : l.ended t ≤ x.status := by
    rcases hl.parted t stₜ hstₜ hc x.status hx.mem_inside with hlt | hle
    · exact absurd (hl.covered k e he t ht x.status hx.mem_inside hlt) hout
    · exact hle
  obtain ⟨_, hp⟩ := hl.nested x.status st sp hx.status hsp
  refine ⟨x.status, ?_, ?_, _, (hx.statuses _).trans (if_pos rfl), hp, hh⟩
  · show (if s'.marked h then none else if l.session.marked h then l.nest.inside.head? else _) = _
    rw [hm, hb, hx.inside]; rfl
  · rw [hl.ended_moved hstₜ hc]
    exact hafter

theorem forgiven (hx : l.Left x rest st state s') (hl : Accounted l) {t : StatusId} (hu : s'.Undone t h)
    (ho : s'.Ongoing h k) (hm : s'.marked h = false) {e : StagedWrite}
    (he : e ∈ (l.moved ⟨s', rest⟩).staged k) (ht : t ∈ e.1) : (l.moved ⟨s', rest⟩).Forgave t h := by
  rw [hl.staged_of_shrunk (hx.shrinks k)] at he
  change e ∈ (l.staged k).take (s'.native.log k).length at he
  have hold : e ∈ l.staged k := List.mem_of_mem_take he
  rcases hx.cases_ongoing hl ho with ⟨_, hmarked, hback⟩ | ⟨sp, hsp, hh, hlog⟩
  · -- the mark was off before, so that the scope that ended did not end rolled back
    have hne : t ≠ x.status := by
      rintro rfl
      obtain ⟨st', hst', hended, hnew, hh⟩ := hu
      rw [hx.statuses, if_pos rfl] at hst'
      obtain rfl := Option.some.inj hst'
      have hset := hback hnew (Option.some.inj hended) hh
      rw [hm] at hset; cases hset
    exact hl.forgave_moved (hx.undone_before hne hu) (hx.goes_on ho) hold ht (fun u st hst => hx.status_kept hst)
      (unmarked_before hmarked hm) hm
  · have hsaved := hl.saved x.status hx.mem_inside st sp h k hx.status hsp hh (hx.goes_on ho)
    have hkept : e ∈ (l.staged k).take sp.mark := by
      rw [hlog, List.length_take, ← hl.logs, List.length_map, Nat.min_eq_left hsaved.reached] at he
      exact he
    have hout : x.status ∉ e.1 := hsaved.before e hkept
    have hne : t ≠ x.status := by
      rintro rfl
      exact hout ht
    have hundone := hx.undone_before hne hu
    cases hb : l.session.marked h with
    | false =>
      exact hl.forgave_moved hundone (hx.goes_on ho) hold ht (fun u st hst => hx.status_kept hst) hb hm
    | true => exact hx.forgave_now hl hundone hsp hh hb hm hold ht hout

end Ledger.Left

theorem Accounted.left {l : Ledger} {x : OpenScope Store ConnectionId Savepoint}
    {rest : List (OpenScope Store ConnectionId Savepoint)} {st : Status Savepoint} {state : TransactionState}
    {s' : Session Store ConnectionId Savepoint} (hl : Accounted l) (hx : l.Left x rest st state s') :
    Accounted (l.moved ⟨s', rest⟩) := by
  have hold : ∀ t st', s'.status? t = some st' → ∃ st'', l.session.status? t = some st'' ∧
      st'.holder = st''.holder ∧ (st'.savepoint = none ∨ st' = st'') := by
    intro t st' hst'
    rw [hx.statuses] at hst'
    split at hst'
    · rename_i ht
      obtain rfl := Option.some.inj hst'
      exact ⟨st, ht ▸ hx.status, rfl, .inl rfl⟩
    · exact ⟨st', hst', rfl, .inr rfl⟩
  refine ⟨hx.tagged hl.toTagged, ?_, ?_, ?_, ?_, ?_, ?_, fun h t => Ledger.unmarked_moved⟩
  · intro t st' h hst' hh
    obtain ⟨st'', hst'', hholder, _⟩ := hold t st' hst'
    exact Nat.lt_of_lt_of_eq (hl.held t st'' h hst'' (hholder.symm.trans hh)) hx.holders.symm
  · intro h k ho
    exact Nat.lt_of_lt_of_eq (hl.range h k (hx.goes_on ho)) hx.size.symm
  · intro h j k hh hj
    exact hl.apart h j k (hx.goes_on hh) (hx.goes_on hj)
  · intro t st' sp hst' hsp
    obtain ⟨st'', hst'', _, hnone | rfl⟩ := hold t st' hst'
    · rw [hnone] at hsp; cases hsp
    · exact hl.nested t st' sp hst'' hsp
  · intro t ht st' sp h k hst' hsp hh ho
    exact hx.saved hl ht hst' hsp hh ho
  · intro t h k hu ho hm e he ht
    exact hx.forgiven hl hu ho hm he ht

/-! ## Runs -/

section Runs

variable {key : ResourceKey} {capabilities : Capabilities} {config : ManagerConfig} {c : ContextIndex}
  {s₀ : Session Store ConnectionId Savepoint} {l : Ledger}

/-- The transaction of the innermost scope goes on. -/
theorem Nested.ongoing {m : Manager Store ConnectionId Savepoint} {n : Nest Store ConnectionId Savepoint}
    (hn : Nested m c s₀ n) {x : OpenScope Store ConnectionId Savepoint}
    {rest : List (OpenScope Store ConnectionId Savepoint)} (hscopes : n.scopes = x :: rest)
    {st : Status Savepoint} (hst : n.session.status? x.status = some st) {h : HolderId} (hh : st.holder = some h)
    {y : Holder ConnectionId} (hy : n.session.holder? h = some y) : n.session.Ongoing h y.resource := by
  have hstacked := hn.stacked
  rw [hscopes] at hstacked
  obtain ⟨st', hst', _, _, hlink, _⟩ := hstacked.top
  obtain rfl := Option.some.inj (hst'.symm.trans hst)
  obtain ⟨z, hz, hlive, _⟩ := hstacked.live (hlink.bound_of_holder hh)
  obtain rfl := Option.some.inj (hz.symm.trans hy)
  exact ⟨z, hz, hlive, rfl⟩

/-- An owner has no savepoint. -/
theorem Accounted.no_savepoint (hl : Accounted l) {t : StatusId} {st : Status Savepoint}
    (hst : l.session.status? t = some st) (hnew : st.newTransaction = true) : st.savepoint = none := by
  cases hsp : st.savepoint with
  | none => rfl
  | some sp =>
    have hnot := (hl.nested t st sp hst hsp).1
    rw [hnew] at hnot; cases hnot

/-- Completing the innermost scope of a run. -/
theorem Accounted.conclude (hl : Accounted l)
    (hn : Nested (storeManager key capabilities config) c s₀ l.nest)
    (hconfig : config.globalRollbackOnParticipationFailure = true)
    {x : OpenScope Store ConnectionId Savepoint} {rest : List (OpenScope Store ConnectionId Savepoint)}
    (hscopes : l.nest.scopes = x :: rest) (commit : Bool) :
    ∃ st state, l.Left x rest st state
      ((storeManager key capabilities config).conclude commit c x.status l.session).2 := by
  have hstacked := hn.stacked
  rw [hscopes] at hstacked
  obtain ⟨st, hst, hopen, _, hlink, _⟩ := hstacked.top
  obtain ⟨r, s', hrun, hc⟩ := conclude_spec (storeManager key capabilities config) commit c hst hopen
  have hheld : ∀ j, st.holder = some j → ∃ y, l.session.holder? j = some y := by
    intro j hj
    exact ⟨_, Array.getElem?_eq_getElem (hl.held x.status st j hst hj)⟩
  have howner : st.newTransaction = true → st.savepoint = none ∧ ∃ j, st.holder = some j :=
    fun hnew => ⟨hl.no_savepoint hst hnew, hlink.holder_of_new hnew⟩
  obtain ⟨state, hstatuses, hleaving⟩ := hc.leaving hst hconfig howner hheld
  refine ⟨st, state, ?_⟩
  show l.Left x rest st state ((storeManager key capabilities config).conclude commit c x.status l.nest.session).2
  rw [hrun]
  exact ⟨hscopes, hst, hstatuses, holders_size_of_alike (hc.resources hst),
    fun j y hj hy => hn.ongoing hscopes hst hj hy, hleaving⟩

theorem StagingAct.onward_of_nested (hn : Nested (storeManager key capabilities config) c s₀ l.nest)
    (a : StagingAct) : Onward l.session (a.perform key c l.session) :=
  a.onward hn.purge_eq

theorem Accounted.step (hl : Accounted l) (hn : Nested (storeManager key capabilities config) c s₀ l.nest)
    (hconfig : config.globalRollbackOnParticipationFailure = true) (call : ScopeCall StagingAct) :
    Accounted (l.step (storeManager key capabilities config) c call) := by
  cases call with
  | enter d =>
    obtain ⟨r, s', hrun, ha, hnew⟩ := Advance.enter key capabilities config c d l.session
    show Accounted (l.moved (l.nest.entered ((storeManager key capabilities config).getTransaction c d l.session)))
    rw [hrun]
    cases r with
    | error e => exact hl.advance ha (.inl rfl)
    | ok t =>
      obtain ⟨rfl, hlt⟩ := hnew t rfl
      exact hl.advance ha (.inr ⟨rfl, hlt⟩)
  | leave commit =>
    show Accounted (l.moved (l.nest.step _ c _ (.leave commit)))
    cases hscopes : l.nest.scopes with
    | nil =>
      rw [Nest.step_leave_nil hscopes]
      exact hl.advance (Onward.refl l.session).advance (.inl rfl)
    | cons x rest =>
      obtain ⟨st, state, hx⟩ := hl.conclude hn hconfig hscopes commit
      rw [Nest.step_leave_cons hscopes]
      exact hl.left hx
  | mark t => exact hl.advance (Onward.setRollbackOnly l.session t).advance (.inl rfl)
  | act a => exact hl.advance (StagingAct.onward_of_nested hn a).advance (.inl rfl)

theorem Accounted.run (hl : Accounted l) (hn : Nested (storeManager key capabilities config) c s₀ l.nest)
    (hconfig : config.globalRollbackOnParticipationFailure = true) (calls : List (ScopeCall StagingAct)) :
    Accounted (l.run (storeManager key capabilities config) c calls) ∧
      Nested (storeManager key capabilities config) c s₀
        (l.run (storeManager key capabilities config) c calls).nest := by
  induction calls generalizing l with
  | nil => exact ⟨hl, hn⟩
  | cons call calls ih =>
    refine ih (hl.step hn hconfig call) (hn.step _ call ?_)
    rintro a rfl
    exact (StagingAct.onward_of_nested hn a).quiet

theorem Accounted.start (hstatus : ∀ t, s₀.status? t = none) (hholder : ∀ h, s₀.holder? h = none) :
    Accounted (Ledger.start s₀) := by
  have htags : ∀ k, ∀ e ∈ (Ledger.start s₀).staged k, ∀ t, t ∉ e.1 := by
    intro k e he t ht
    obtain ⟨w, _, rfl⟩ := List.mem_map.1 he
    cases ht
  have hnone : ∀ t st, (Ledger.start s₀).session.status? t ≠ some st := by
    intro t st hst
    cases (hstatus t).symm.trans hst
  have hover : ∀ h k, ¬ (Ledger.start s₀).session.Ongoing h k := by
    rintro h k ⟨y, hy, _⟩
    cases (hholder h).symm.trans hy
  have hnothing : ∀ t, t ∉ (Ledger.start s₀).nest.inside := fun t ht => by cases ht
  refine ⟨⟨fun k => ?_, .nil, fun t ht => absurd ht (hnothing t), fun k e he t ht => absurd ht (htags k e he t),
    fun k e he t ht => absurd ht (htags k e he t), fun _ => Nat.zero_le _, fun t st hst => absurd hst (hnone t st)⟩,
    fun t st h hst => absurd hst (hnone t st), fun h k ho => absurd ho (hover h k),
    fun h j k ho => absurd ho (hover h k), fun t st sp hst => absurd hst (hnone t st),
    fun t ht => absurd ht (hnothing t), fun t h k _ ho => absurd ho (hover h k), fun h n hf => ?_⟩
  · show ((s₀.native.log k).map fun w => (([] : List StatusId), w)).map Prod.snd = s₀.native.log k
    rw [List.map_map]
    exact List.map_id _
  · cases hf

end Runs

/-- When changes of a scope that was rolled back are published, for every run of nested scopes on a store,
whatever fails, if participants that are rolled back mark the transaction. The scope took part in the
transaction of the owner that is completed, and a change that was staged inside it is staged still. The
completion publishes that change, with everything else that is staged, exactly if the owner commits and
nothing marks it, the native commit succeeds, and a nested scope that was opened after the rolled back one
had ended has taken the mark back by returning to its savepoint. Otherwise nothing is published. -/
theorem undone_published_iff_forgiven (key : ResourceKey) (capabilities : Capabilities) (config : ManagerConfig)
    (hconfig : config.globalRollbackOnParticipationFailure = true) (contexts : Nat) (store : Store)
    (c : ContextIndex) (hc : c < contexts) (calls : List (ScopeCall StagingAct)) :
    let m := storeManager key capabilities config
    let l := (Ledger.start (Session.ofContexts contexts store)).run m c calls
    ∀ x rest st h y, l.nest.scopes = x :: rest → l.session.status? x.status = some st →
      st.newTransaction = true → st.holder = some h → l.session.holder? h = some y →
    ∀ t, l.session.Undone t h → ∀ e ∈ l.staged y.resource, t ∈ e.1 → ∀ commit,
      let s' := (m.conclude commit c x.status l.session).2
      let published := commit = true ∧ st.rollbackOnly = false ∧
        (m.backend.commit y.resource l.session.native).1 = .ok () ∧ l.Forgave t h
      ((s'.status? x.status).bind Status.completion = some .committed ↔ published) ∧
      (published → s'.native.entries =
        l.session.native.entries.applyAll ((l.staged y.resource).map Prod.snd)) ∧
      (¬ published → s'.native.entries = l.session.native.entries) := by
  intro m l
  have hsize : c < (Session.ofContexts contexts store : Session Store ConnectionId Savepoint).registries.size := by
    simpa [Session.ofContexts] using hc
  have hfree : (Session.ofContexts contexts store : Session Store ConnectionId Savepoint).bound c key = none := by
    unfold Session.bound Session.registry
    simp [Session.ofContexts, Array.getD_eq_getD_getElem?, hc, Registry.binding?]
  obtain ⟨hl, hn⟩ : Accounted l ∧ Nested m c _ l.nest :=
    Accounted.run (.start (fun _ => rfl) fun _ => rfl) (.start hsize hfree) hconfig calls
  clear_value l
  intro x rest st h y hscopes hst hnew hh hy t hu e he ht commit s' published
  have hstacked := hn.stacked
  rw [hscopes] at hstacked
  obtain ⟨st', hst', hopen, _⟩ := hstacked.top
  obtain rfl : st' = st := Option.some.inj (hst'.symm.trans hst)
  have hongoing : l.session.Ongoing h y.resource := hn.ongoing hscopes hst hh hy
  have hforgiven : l.session.marked h = false ↔ l.Forgave t h := by
    refine ⟨fun hm => hl.forgiven t h _ hu hongoing hm e he ht, ?_⟩
    rintro ⟨n, hn, _⟩
    exact hl.unmarked h n hn
  have hsp : st'.savepoint = none := hl.no_savepoint hst hnew
  obtain ⟨r, s₁, hrun, hconclude⟩ := conclude_spec m commit c hst hopen
  obtain ⟨state, hended, hstate, hcommitted, hother, _⟩ := hconclude.published hst hnew hsp hh hy
  obtain rfl : s' = s₁ := congrArg Prod.snd hrun
  have hpublished : state = .committed ↔ published := by
    rw [hstate, keepsWork_of_holder hh hy, hforgiven]
    exact ⟨fun ⟨⟨ha, hb, hd⟩, hok⟩ => ⟨ha, hb, hok, hd⟩, fun ⟨ha, hb, hok, hd⟩ => ⟨⟨ha, hb, hd⟩, hok⟩⟩
  refine ⟨?_, fun hp => ?_, fun hp => hother fun heq => hp (hpublished.1 heq)⟩
  · rw [hended, ← hpublished]
    show some state = some .committed ↔ _
    exact ⟨Option.some.inj, congrArg some⟩
  · obtain ⟨conn, hconn, hentries⟩ := hcommitted (hpublished.2 hp)
    rw [hentries, hl.logs, ← Store.log_of_connection hconn]

/-- A scope joins a transaction, stages a change and is rolled back, and then a nested scope is opened and
rolled back. -/
def forgivenLedger : Ledger :=
  (Ledger.start (Session.ofContexts 1 { key := ⟨7⟩ })).run (storeManager ⟨7⟩ .all {}) 0
    [.enter { propagation := .required }, .enter { propagation := .required },
      .act (.data (.put "a" (.int 1))), .leave false, .enter { propagation := .nested }, .leave false]

/-- The mark is gone with the nested scope, and the owner publishes what was staged. -/
theorem undone_published_after_nested :
    ((((storeManager ⟨7⟩ .all {}).conclude true 0 0 forgivenLedger.session).2.status? 0).bind
      Status.completion = some .committed) ∧
    ((storeManager ⟨7⟩ .all {}).conclude true 0 0 forgivenLedger.session).2.native.entries =
      forgivenLedger.session.native.entries.applyAll ((forgivenLedger.staged 0).map Prod.snd) := by
  have hinside : forgivenLedger.nest.inside = [0] := by decide +kernel
  have howner : (forgivenLedger.session.status? 0).map (fun st => (st.newTransaction, st.holder, st.rollbackOnly)) =
      some (true, some 0, false) := by decide +kernel
  have hholder : (forgivenLedger.session.holder? 0).map Holder.resource = some 0 := by decide +kernel
  have hundone : (forgivenLedger.session.status? 1).map (fun st => (st.completion, st.newTransaction, st.holder)) =
      some (some .rolledBack, false, some 0) := by decide +kernel
  have hnested : (forgivenLedger.session.status? 2).map (fun st => (st.definition.propagation, st.holder)) =
      some (.nested, some 0) := by decide +kernel
  have hstaged : (forgivenLedger.staged 0).map Prod.fst = [[1, 0]] := by decide +kernel
  have hforgave : forgivenLedger.forgiver 0 = some 2 ∧ forgivenLedger.ended 1 ≤ 2 := by decide +kernel
  have hcommit : ((storeManager ⟨7⟩ .all {}).backend.commit 0 forgivenLedger.session.native).1.isOk = true := by
    decide +kernel
  obtain ⟨st, hst, hfields⟩ := Option.map_eq_some_iff.1 howner
  obtain ⟨hnew, hh, hmark⟩ : st.newTransaction = true ∧ st.holder = some 0 ∧ st.rollbackOnly = false := by
    simpa using hfields
  obtain ⟨y, hy, hres⟩ := Option.map_eq_some_iff.1 hholder
  obtain ⟨u, hu, hended⟩ := Option.map_eq_some_iff.1 hundone
  obtain ⟨v, hv, hprop⟩ := Option.map_eq_some_iff.1 hnested
  obtain ⟨e, he, htag⟩ : ∃ e ∈ forgivenLedger.staged y.resource, e.1 = [1, 0] := by
    have hmem : [1, 0] ∈ (forgivenLedger.staged 0).map Prod.fst := by rw [hstaged]; exact List.mem_cons_self ..
    obtain ⟨e, he, htag⟩ := List.mem_map.1 hmem
    exact ⟨e, hres ▸ he, htag⟩
  rcases hscopes : forgivenLedger.nest.scopes with _ | ⟨x, rest⟩
  · unfold Nest.inside at hinside
    rw [hscopes] at hinside; cases hinside
  have hx : x.status = 0 := by
    unfold Nest.inside at hinside
    rw [hscopes] at hinside
    exact (List.cons.inj hinside).1
  have hpublish := undone_published_iff_forgiven ⟨7⟩ .all {} rfl 1 { key := ⟨7⟩ } 0 (by decide) _ x rest st 0 y
    hscopes (by rw [hx]; exact hst) hnew hh hy 1 ⟨u, hu, by simpa using hended⟩ e he (by rw [htag]; decide) true
  rw [hx, hres] at hpublish
  have hpublished : true = true ∧ st.rollbackOnly = false ∧
      ((storeManager ⟨7⟩ .all {}).backend.commit 0 forgivenLedger.session.native).1 = .ok () ∧
      forgivenLedger.Forgave 1 0 := by
    refine ⟨rfl, hmark, ?_, 2, hforgave.1, hforgave.2, v, hv, by simpa using hprop⟩
    cases hop : ((storeManager ⟨7⟩ .all {}).backend.commit 0 forgivenLedger.session.native).1 with
    | error f => rw [hop] at hcommit; cases hcommit
    | ok => rfl
  exact ⟨hpublish.1.2 hpublished, hpublish.2.1 hpublished⟩

/-- A scope that took part in a transaction ended rolled back, and the change that was staged inside it is
published by the commit of the owner all the same, although participants that are rolled back mark the
transaction and nothing failed. -/
theorem undone_published :
    ({} : ManagerConfig).globalRollbackOnParticipationFailure = true ∧
    (forgivenLedger.session.status? 1).map (fun st => (st.completion, st.newTransaction, st.holder)) =
      some (some .rolledBack, false, some 0) ∧
    (forgivenLedger.staged 0).map Prod.fst = [[1, 0]] ∧
    ((storeManager ⟨7⟩ .all {}).conclude true 0 0 forgivenLedger.session).1.isOk = true ∧
    ((storeManager ⟨7⟩ .all {}).conclude true 0 0 forgivenLedger.session).2.native.entries.map Prod.fst = ["a"] := by
  decide +kernel

end Demarcation
