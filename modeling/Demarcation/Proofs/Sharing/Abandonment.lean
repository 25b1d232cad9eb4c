/-
The connections of a store among others: what its backend does to them, which of them a context answers, and which of
them are closed because nothing refers to them any more.
-/
import Demarcation.Proofs.Cleanups
import Demarcation.Proofs.Referrers
import Demarcation.Proofs.Sharing.Stores
import Demarcation.Proofs.Store.OpenConnections

namespace Demarcation

open Session Manager

namespace Store

/-- Whether a connection publishes at once, if it is there. -/
def alone? (s : Store) (c : ConnectionId) : Option Bool := (s.connection? c).map Connection.autoCommit

section Alone

variable {s s' : Store} {c : ConnectionId}

theorem alone?_of_roster (h : s'.roster = s.roster) (c : ConnectionId) : s'.alone? c = s.alone? c := by
  have hlives := congrArg (Option.map Prod.fst) (lives_of_roster h c)
  rw [Option.map_map, Option.map_map] at hlives
  exact hlives

theorem alone?_close (s : Store) (c k : ConnectionId) : (s.close c).alone? k = s.alone? k := by
  have hlives := congrArg (Option.map Prod.fst) (lives_close s c k)
  rw [Option.map_map, Option.map_map] at hlives
  exact hlives

theorem alone?_connect (s : Store) (readOnly autoCommit : Bool) (isolation : Isolation) (k : ConnectionId) :
    (s.connect readOnly autoCommit isolation).2.alone? k =
      if k = s.connections.size then some autoCommit else s.alone? k := by
  unfold alone?
  rw [connection?_connect]
  split <;> rfl

theorem alone?_lt {b : Bool} (h : s.alone? c = some b) : c < s.connections.size := by
  obtain ⟨conn, hconn, -⟩ := Option.map_eq_some_iff.1 h
  exact connection?_lt hconn

end Alone

/-! ## Closing several connections -/

/-- The store with several connections closed. -/
def closeAll (cs : List ConnectionId) (s : Store) : Store := cs.foldl close s

theorem isOpen_closeAll (cs : List ConnectionId) (s : Store) (k : ConnectionId) :
    (s.closeAll cs).isOpen k = true ↔ s.isOpen k = true ∧ k ∉ cs := by
  induction cs generalizing s with
  | nil => simp [closeAll]
  | cons c cs ih =>
    show (closeAll cs (s.close c)).isOpen k = true ↔ _
    rw [ih, isOpen_close, Bool.and_eq_true, bne_iff_ne, List.mem_cons, not_or, and_assoc]

theorem alone?_closeAll (cs : List ConnectionId) (s : Store) (k : ConnectionId) :
    (s.closeAll cs).alone? k = s.alone? k := by
  induction cs generalizing s with
  | nil => rfl
  | cons c cs ih => exact (ih (s.close c)).trans (alone?_close s c k)

theorem size_closeAll (cs : List ConnectionId) (s : Store) :
    (s.closeAll cs).connections.size = s.connections.size := by
  induction cs generalizing s with
  | nil => rfl
  | cons c cs ih => exact (ih (s.close c)).trans (size_close s c)

theorem roster_closeAll {s s' : Store} (h : s'.roster = s.roster) (cs : List ConnectionId) :
    (s'.closeAll cs).roster = (s.closeAll cs).roster := by
  induction cs generalizing s s' with
  | nil => exact h
  | cons c cs ih => exact ih (roster_close h c)

theorem Tallied.closeAll {s : Store} (hs : s.Tallied) (cs : List ConnectionId) : (s.closeAll cs).Tallied := by
  induction cs generalizing s with
  | nil => exact hs
  | cons c cs ih => exact ih (hs.close c)

end Store

namespace Systems

variable {i : Nat}

theorem size_set (t : Systems) (st : Store) : ((storeSlot i).set st t).stores.size = t.stores.size :=
  Array.size_setIfInBounds

theorem store_set {t : Systems} (hi : i < t.stores.size) (st : Store) : ((storeSlot i).set st t).store i = st := by
  unfold store
  rw [Array.getD_eq_getD_getElem?, getElem?_set, if_pos rfl, Array.getElem?_eq_getElem hi]
  rfl

/-- The number of the stores, and the roster of one of them. -/
def roster (i : Nat) (t : Systems) : Nat × Nat × Array (Bool × Bool) := (t.stores.size, (t.store i).roster)

/-- A store in place of one with the same roster. -/
theorem roster_set {t : Systems} {st : Store} (hst : st.roster = (t.store i).roster) :
    ((storeSlot i).set st t).roster i = t.roster i := by
  refine Prod.ext (size_set t st) ?_
  show (((storeSlot i).set st t).store i).roster = (t.store i).roster
  by_cases hi : i < t.stores.size
  · rw [store_set hi, hst]
  · -- nothing is put in a place that is not there
    have hsame : ((storeSlot i).set st t).stores[i]? = t.stores[i]? := by
      rw [getElem?_set, if_pos rfl, Array.getElem?_eq_none (Nat.le_of_not_lt hi)]
      rfl
    rw [store_congr hsame]

/-! ## The backend of a store -/

section Backend

variable {systems t t' : Systems} {d : Definition}

/-- The primitives between the beginning of a transaction and its cleanup open and close no connection. -/
theorem sustains_roster (systems : Systems) (i : Nat) (k : Nat × Nat × Array (Bool × Bool)) :
    (Part.backend systems (.store i)).Sustains fun t => t.roster i = k := by
  have hstore : (Store.backend (storeKey i) (systems.store i).capabilities).Sustains fun s => s.roster = k.2 :=
    Store.sustains_of_calls (fun call hlasts s hs => (Store.roster_called call hlasts s).trans hs) _ _
  refine hstore.embed _ _ (fun t ht => congrArg Prod.snd ht) fun t s ht hs => ?_
  rw [roster_set (hs.trans (congrArg Prod.snd ht).symm), ht]

/-- A beginning opens a connection, or it fails and opens none. -/
theorem start_cases (systems : Systems) (d : Definition) {r : Except Failure Resource}
    (hstart : (Part.backend systems (.store i)).start d t = (r, t')) :
    (∃ f, r = .error f ∧ t'.roster i = t.roster i) ∨
      (r = .ok (.connection i (t.store i).connections.size) ∧ t'.stores.size = t.stores.size ∧
        (i < t.stores.size → (t'.store i).roster = ((t.store i).connect d.readOnly false d.isolation).2.roster)) := by
  obtain ⟨q, hrun⟩ : ∃ q, (Store.backend (storeKey i) (systems.store i).capabilities).start d (t.store i) = q := ⟨_, rfl⟩
  have hembed : (Part.backend systems (.store i)).start d t = (q.1.map (.connection i), (storeSlot i).set q.2 t) := by
    rw [← hrun]
    rfl
  obtain ⟨rfl, rfl⟩ := Prod.mk.inj (hembed.symm.trans hstart)
  rcases Store.primitive_cases .begin (fun s => (.ok (s.connect d.readOnly false d.isolation).1,
    (s.connect d.readOnly false d.isolation).2)) (t.store i) with hfailed | hopened
  · obtain rfl := hrun.symm.trans hfailed
    exact .inl ⟨_, rfl, roster_set rfl⟩
  · obtain rfl := hrun.symm.trans hopened
    refine .inr ⟨rfl, size_set t _, fun hi => ?_⟩
    rw [store_set hi]
    rfl

theorem untouched_roster (systems : Systems) (i : Nat) :
    (Part.backend systems (.store i)).Untouched (Systems.roster i) := by
  refine Backend.Sustains.untouched (sustains_roster systems i) fun {d n f n'} hstart => ?_
  rcases start_cases systems d hstart with ⟨_, -, hsame⟩ | ⟨hok, -⟩
  · exact hsame
  · cases hok

/-- A cleanup closes the connection, unless it fails. -/
theorem cleanup_roster (systems : Systems) (hi : i < t.stores.size) (c : ConnectionId) {r : Except Failure Unit}
    (hcleanup : (Part.backend systems (.store i)).cleanup (.connection i c) t = (r, t')) :
    t'.stores.size = t.stores.size ∧
      (t'.store i).roster = ((t.store i).closeAll (if r.isOk then [c] else [])).roster := by
  obtain ⟨q, hrun⟩ : ∃ q, (Store.backend (storeKey i) (systems.store i).capabilities).cleanup c (t.store i) = q := ⟨_, rfl⟩
  have hunwrap : (Resource.connectionCase i).unwrap (.connection i c) = some c := if_pos rfl
  have hembed : (Part.backend systems (.store i)).cleanup (.connection i c) t = (q.1, (storeSlot i).set q.2 t) := by
    unfold Part.backend Backend.embed
    dsimp only
    rw [hunwrap, ← hrun]
    rfl
  obtain ⟨rfl, rfl⟩ := Prod.mk.inj (hembed.symm.trans hcleanup)
  rw [store_set hi]
  refine ⟨size_set t q.2, ?_⟩
  have hcounted : ((t.store i).counted .cleanup).roster = (t.store i).roster := rfl
  rcases Store.primitive_cases .cleanup (fun s => (.ok (), s.close c)) (t.store i) with hfailed | hclosed
  · obtain rfl := hrun.symm.trans hfailed
    exact hcounted
  · obtain rfl := hrun.symm.trans hclosed
    exact Store.roster_close hcounted c

end Backend

/-! ## The connection of a context -/

/-- How asking for the connection of a context ends, in a session in which every holder has a connection of the
store. -/
inductive Asked (i : Nat) (s : SystemsSession) : Except StorageError Access → SystemsSession → Prop
  | refused (e : StorageError) : Asked i s (.error e) s
  | timedOut {h : HolderId} {x y : Holder Resource} (e : StorageError) : s.holder? h = some x →
    y = x ∨ y = x.setRollbackOnly → Asked i s (.error e) (s.modifyHolder h fun _ => y)
  | bound {c : ContextIndex} {h : HolderId} {x y : Holder Resource} {k : ConnectionId} :
    s.bound c (storeKey i) = some h → s.holder? h = some x → y = x ∨ y = x.setRollbackOnly →
    x.resource = .connection i k → Asked i s (.ok (.transactional h k)) (s.modifyHolder h fun _ => y)
  | alone : Asked i s (.ok (.autoCommit (s.native.store i).connections.size))
    (s.withNative ((storeSlot i).set ((s.native.store i).connect false true .unspecified).2 s.native))

theorem access_asked (c : ContextIndex) (s : SystemsSession)
    (hholders : ∀ h x, s.holder? h = some x → ∃ k, x.resource = .connection i k) :
    ∃ r s', (site i).access c s = (r, s') ∧ Asked i (s.purge c (storeKey i)) r s' := by
  obtain ⟨r, hfind, hlook⟩ := find_spec s c StoreSite.kind (storeKey i)
  have hadapt : ((find c StoreSite.kind (site i).key).adapt (StorageErrorFrom.transaction ∘ TransactionErrorFrom.registry) :
      Attempt Systems Resource AnySavepoint StorageError _) s =
      (r.mapError (StorageErrorFrom.transaction ∘ TransactionErrorFrom.registry), s.purge c (storeKey i)) := by
    rw [attempt_adapt]
    show ((find c StoreSite.kind (storeKey i) s).1.mapError _, (find c StoreSite.kind (storeKey i) s).2) = _
    rw [hfind]
  unfold StoreSite.access
  cases hlook with
  | foreign e => exact ⟨_, _, attempt_bind_error hadapt, .refused _⟩
  | unbound hb =>
    rw [attempt_bind_ok hadapt]
    exact ⟨_, _, rfl, .alone⟩
  | @live h x hb hx =>
    rw [attempt_bind_ok hadapt]
    dsimp only
    obtain ⟨r, y, htime, hy⟩ := StoreSite.timeToLive_spec hx
    have htimed : ((StoreSite.timeToLive h).adapt StorageErrorFrom.transaction :
        Attempt Systems Resource AnySavepoint StorageError _) (s.purge c (storeKey i)) =
        (r.mapError .transaction, (s.purge c (storeKey i)).modifyHolder h fun _ => y) := by
      rw [attempt_adapt, htime]
    cases r with
    | error e => exact ⟨_, _, attempt_bind_error htimed, .timedOut _ hx hy⟩
    | ok d =>
      obtain ⟨k, hk⟩ := hholders h x (holder?_purge s c _ h ▸ hx)
      have hresource : y.resource = .connection i k := by
        rw [← hk]
        rcases hy with rfl | rfl <;> rfl
      have hmarked : ((s.purge c (storeKey i)).modifyHolder h fun _ => y).holder? h = some y := by
        rw [holder?_modifyHolder, if_pos rfl, hx]
        rfl
      have hunwrap : (site i).resource.unwrap (.connection i k) = some k := if_pos rfl
      refine ⟨_, _, ?_, .bound hb hx hy hk⟩
      rw [attempt_bind_ok htimed, attempt_bind, attempt_get]
      dsimp only
      rw [hmarked, Option.bind_some, hresource, hunwrap]
      rfl

/-! ## Connections that nothing refers to -/

theorem isHeld_iff (s : SystemsSession) (i : Nat) (c : ConnectionId) : isHeld s i c = true ↔
    ∃ h x, s.holder? h = some x ∧ x.resource = .connection i c ∧ s.Referenced h := by
  unfold isHeld
  rw [List.any_eq_true]
  constructor
  · rintro ⟨h, -, hheld⟩
    rw [Bool.and_eq_true, isReferenced_iff, Option.any_eq_true] at hheld
    obtain ⟨⟨x, hx, hresource⟩, href⟩ := hheld
    exact ⟨h, x, hx, beq_iff_eq.1 hresource, href⟩
  · rintro ⟨h, x, hx, hresource, href⟩
    refine ⟨h, List.mem_range.2 (holder?_lt hx), ?_⟩
    rw [Bool.and_eq_true, isReferenced_iff, Option.any_eq_true]
    exact ⟨⟨x, hx, beq_iff_eq.2 hresource⟩, href⟩

theorem mem_abandoned {s : SystemsSession} {kept : ConnectionId → Bool} {c : ConnectionId} :
    c ∈ abandoned s kept i ↔
      (s.native.store i).isOpen c = true ∧ kept c = false ∧ isHeld s i c = false := by
  unfold abandoned
  rw [List.mem_filter, List.mem_range, Bool.and_eq_true, Bool.and_eq_true, Bool.not_eq_true', Bool.not_eq_true',
    and_assoc]
  exact ⟨fun h => h.2, fun h => ⟨Store.isOpen_lt h.1, h⟩⟩

theorem foldl_close (cs : List ConnectionId) (s : SystemsSession) (hi : i < s.native.stores.size) :
    ∃ n, cs.foldl (fun s c => (site i).modifyStore (·.close c) s) s = s.withNative n ∧
      n.stores.size = s.native.stores.size ∧ n.store i = (s.native.store i).closeAll cs := by
  induction cs generalizing s with
  | nil => exact ⟨s.native, rfl, rfl, rfl⟩
  | cons c cs ih =>
    have hsize : ((site i).modifyStore (·.close c) s).native.stores.size = s.native.stores.size := size_set _ _
    have hclosed : ((site i).modifyStore (·.close c) s).native.store i = (s.native.store i).close c := store_set hi _
    obtain ⟨n, hrun, hn, hstore⟩ := ih ((site i).modifyStore (·.close c) s) (hsize ▸ hi)
    rw [hclosed] at hstore
    exact ⟨n, hrun, hn.trans hsize, hstore⟩

/-- In a session on one store, exactly the open connections that are neither kept nor held by a holder that something
refers to are closed, and nothing else changes. -/
theorem closeAbandoned_one (s : SystemsSession) (hone : s.native.stores.size = 1)
    (kept : Nat → ConnectionId → Bool) : ∃ n, closeAbandoned kept s = s.withNative n ∧ n.stores.size = 1 ∧
      n.store 0 = (s.native.store 0).closeAll (abandoned s (kept 0) 0) := by
  have hfold : closeAbandoned kept s =
      (abandoned s (kept 0) 0).foldl (fun s c => (site 0).modifyStore (·.close c) s) s := by
    unfold closeAbandoned
    rw [hone]
    rfl
  obtain ⟨n, hrun, hsize, hstore⟩ := foldl_close (abandoned s (kept 0) 0) s (hone ▸ Nat.one_pos)
  exact ⟨n, hfold.trans hrun, hsize.trans hone, hstore⟩

end Systems

end Demarcation
