/-
Interleavings of what is done with several stores in one session. For each store they come to the same as the steps
on that store alone.
-/
import Demarcation.Proofs.Sharing.Stores
import Demarcation.Proofs.Store.Replay
import Mathlib.Data.List.Forall2

namespace Demarcation

open Session

/-! ## Steps on stores -/

/-- What is done with a store: through its manager, where scopes are counted in the order in which it opened them,
through a context, or with the store itself. -/
inductive StoreUse
  | enter (c : ContextIndex) (d : Definition)
  | conclude (commit : Bool) (c : ContextIndex) (scope : Nat)
  | mark (scope : Nat)
  /-- Asks for the connection of a context. -/
  | connect (c : ContextIndex)
  /-- Works on the connection of a context, and gives it back. -/
  | through (c : ContextIndex) (d : Script.DataStep)
  | data (conn : ConnectionId) (d : Script.DataStep)
  | call (op : StoreCall)
  | store (step : Script.StoreStep)

/-- A step on one of the stores, and the reading of the clock that it finds. -/
structure StoreMove where
  store : Nat
  now : Instant
  use : StoreUse

inductive UseAnswer
  | nothing
  /-- The connection, and whether it is that of a transaction. -/
  | connection (transactional : Bool) (conn : ConnectionId)
  | data (a : Script.Answer)

abbrev StoresAttempt (α : Type) := Attempt Systems Resource AnySavepoint Failure α

namespace StoreUse

/-- Runs a step on the store at a place. The scopes are those that its manager has opened so far; a scope that the
step opens is answered too. -/
def run (m : SystemsManager) (i : Nat) (scopes : List StatusId) : StoreUse → StoresAttempt (UseAnswer × List StatusId)
  | enter c d => do
    let t ← (m.getTransaction c d).adapt .transaction
    pure (.nothing, [t])
  | conclude commit c k =>
    match scopes[k]? with
    | none => throw Script.noSuchStatus
    | some t => do
      (m.conclude commit c t).adapt .transaction
      pure (.nothing, [])
  | mark k =>
    match scopes[k]? with
    | none => throw Script.noSuchStatus
    | some t => do
      modify fun s => s.setRollbackOnly t
      pure (.nothing, [])
  | connect c => do
    let a ← ((Systems.site i).access c).adapt .storage
    pure (.connection a.isTransactional a.connection, [])
  | through c d => do
    let a ← ((Systems.site i).through c d.run).adapt .storage
    pure (.data a, [])
  | data conn d => do
    let a ← ((Systems.site i).perform (d.run conn)).adapt .storage
    pure (.data a, [])
  | call op => do
    Session.call ((Systems.storeSlot i).run op.run)
    pure (.nothing, [])
  | store step => do
    let a ← ((Systems.site i).perform fun s => .ok (step.run s)).adapt .storage
    pure (.data a, [])

end StoreUse

/-- A session, and the scopes that the manager of each store has opened in it. -/
structure StoresSession where
  session : SystemsSession
  scopes : Nat → List StatusId := fun _ => []

namespace StoresSession

/-- The manager of the store at a place. -/
def manager (systems : Systems) (config : Nat → ManagerConfig) (i : Nat) : SystemsManager :=
  { backend := Systems.Part.backend systems (.store i), config := config i }

/-- One step. -/
def step (manager : Nat → SystemsManager) (r : StoresSession) (x : StoreMove) :
    Except Failure UseAnswer × StoresSession :=
  match x.use.run (manager x.store) x.store (r.scopes x.store) { r.session with now := x.now } with
  | (.ok (a, opened), s) =>
    (.ok a, { session := s, scopes := Function.update r.scopes x.store (r.scopes x.store ++ opened) })
  | (.error e, s) => (.error e, { r with session := s })

/-- Steps one after the other, with their stores and results. -/
def runAll (manager : Nat → SystemsManager) :
    List StoreMove → StoresSession → List (Nat × Except Failure UseAnswer) × StoresSession
  | [], r => ([], r)
  | x :: xs, r =>
    let (a, r) := r.step manager x
    let (rows, r) := runAll manager xs r
    ((x.store, a) :: rows, r)

end StoresSession

/-! ## One step -/

theorem forall₂_getElem? {α β : Type} {R : α → β → Prop} {l : List α} {l' : List β} (h : List.Forall₂ R l l')
    (k : Nat) : Option.Rel R l[k]? l'[k]? := by
  induction h generalizing k with
  | nil => exact .none
  | cons hr _ ih =>
    cases k with
    | zero => exact .some hr
    | succ k => exact ih k

/-- What a step answers is the same, and so are the scopes that it opens. -/
def Names.SameOpened (n : Names) (r r' : UseAnswer × List StatusId) : Prop :=
  r'.1 = r.1 ∧ List.Forall₂ n.SameStatus r.2 r'.2

section Steps

variable {P P' : Nat → Prop} {i : Nat} (hi : P i) (hother : ∀ k, P' k → k ≠ i) {n : Names} {m : SystemsManager}
  {scopes scopes' : List StatusId} (hm : m.backend.Local (Systems.party P) (Systems.party P'))
  (hscopes : List.Forall₂ n.SameStatus scopes scopes')
include hi hother hm hscopes

theorem StoreUse.run_tracks (use : StoreUse) :
    Tracks (Systems.party P) (Systems.party P') n (use.run m i scopes) (use.run m i scopes')
      (Names.Answer Names.SameOpened) := by
  have hdone : ∀ {n₁ : Names} (a : UseAnswer), n₁.SameOpened (a, []) (a, []) := fun a => ⟨rfl, .nil⟩
  unfold StoreUse.run
  cases use with
  | enter c d =>
    refine ((Manager.Tracking.getTransaction hm c d).adapt _).bind fun n₁ t t' _ ht => ?_
    exact .ok fun n₂ hle₂ => ⟨rfl, .cons (hle₂.status ht) .nil⟩
  | conclude commit c k =>
    have hk := forall₂_getElem? hscopes k
    dsimp only
    generalize scopes[k]? = o, scopes'[k]? = o' at hk
    cases hk with
    | none => exact .throw _
    | some ht =>
      exact ((Manager.Tracking.conclude hm c commit ht).adapt _).bind fun _ _ _ _ _ => .ok fun _ _ => hdone _
  | mark k =>
    have hk := forall₂_getElem? hscopes k
    dsimp only
    generalize scopes[k]? = o, scopes'[k]? = o' at hk
    cases hk with
    | none => exact .throw _
    | some ht =>
      exact Tracks.bind (Tracks.modifyStatus ht fun _ _ _ h => h.marked) fun _ _ _ _ _ => .ok fun _ _ => hdone _
  | connect c =>
    refine ((Systems.access_tracks hi hother c).adapt _).bind fun n₁ x x' _ hx => ?_
    rw [hx.connection, hx.isTransactional]
    exact .ok fun _ _ => hdone _
  | through c d =>
    refine ((Systems.through_tracks hi hother c d.run).adapt _).bind fun n₁ a a' _ ha => ?_
    obtain rfl := ha
    exact .ok fun _ _ => hdone _
  | data conn d =>
    refine ((Systems.perform_tracks hi hother (d.run conn)).adapt _).bind fun n₁ a a' _ ha => ?_
    obtain rfl := ha
    exact .ok fun _ _ => hdone _
  | call op =>
    exact (Tracks.call (Systems.local_run hi hother op.run)).bind fun _ _ _ _ _ => .ok fun _ _ => hdone _
  | store step =>
    refine ((Systems.perform_tracks hi hother fun s => .ok (step.run s)).adapt _).bind fun n₁ a a' _ ha => ?_
    obtain rfl := ha
    exact .ok fun _ _ => hdone _

end Steps

/-- The clock is nobody's. -/
theorem Split.withNow {σ ρ ς : Type} {p p' : Party σ} {n n' : Names} {s a b : Session σ ρ ς}
    (hs : Split p p' n n' s a b) (now : Instant) : Split p p' n n' { s with now } { a with now } b where
  mine := ⟨hs.mine.size, hs.mine.context, hs.mine.bound, hs.mine.holders, hs.mine.holder, hs.mine.statuses,
    hs.mine.status, hs.mine.distinct, hs.mine.native⟩
  theirs := hs.theirs.spared ⟨rfl, fun _ => rfl, fun _ _ _ => rfl, Nat.le_refl _, fun _ _ => rfl, fun _ _ => rfl,
    fun _ => id⟩
  keys := hs.keys
  holders := hs.holders
  statuses := hs.statuses

/-- The sessions `a` and `b` are what the session `r` is to the stores at some places, and to those at others. -/
structure StoresSession.Shares (P P' : Nat → Prop) (n n' : Names) (r a b : StoresSession) : Prop where
  split : Split (Systems.party P) (Systems.party P') n n' r.session a.session b.session
  mine : ∀ i, P i → List.Forall₂ n.SameStatus (r.scopes i) (a.scopes i)
  theirs : ∀ i, P' i → List.Forall₂ n'.SameStatus (r.scopes i) (b.scopes i)
  apart : ∀ i, P i → ¬P' i

namespace StoresSession.Shares

variable {P P' : Nat → Prop} {n n' : Names} {r a b : StoresSession} {manager : Nat → SystemsManager}

theorem swap (hr : Shares P P' n n' r a b) : Shares P' P n' n r b a :=
  ⟨hr.split.swap, hr.theirs, hr.mine, fun i hi hi' => hr.apart i hi' hi⟩

/-- A step on one of the stores is the same step in the session for these stores, and nothing for the others. -/
theorem step (hr : Shares P P' n n' r a b) {x : StoreMove} (hx : P x.store)
    (hm : (manager x.store).backend.Local (Systems.party P) (Systems.party P')) :
    (r.step manager x).1 = (a.step manager x).1 ∧
      ∃ n₁, Shares P P' n₁ n' (r.step manager x).2 (a.step manager x).2 b := by
  have hother : ∀ k, P' k → k ≠ x.store := by
    rintro k hk rfl
    exact hr.apart x.store hx hk
  obtain ⟨n₁, hle, hsplit, -, hq⟩ := StoreUse.run_tracks hx hother hm (hr.mine x.store hx) x.use n n' _ _ _ (.refl n)
    (hr.split.withNow x.now) rfl
  have hmine : ∀ i, P i → List.Forall₂ n₁.SameStatus (r.scopes i) (a.scopes i) :=
    fun i hi => (hr.mine i hi).imp fun _ _ => hle.status
  unfold StoresSession.step
  rcases hrun : x.use.run (manager x.store) x.store (r.scopes x.store) { r.session with now := x.now } with ⟨q, s₁⟩
  rcases hrun' : x.use.run (manager x.store) x.store (a.scopes x.store) { a.session with now := x.now } with ⟨q', a₁⟩
  rw [hrun, hrun'] at hsplit hq
  dsimp only at hsplit hq
  cases hq with
  | error e => exact ⟨rfl, n₁, hsplit, hmine, hr.theirs, hr.apart⟩
  | @ok v v' hv =>
    obtain ⟨v, opened⟩ := v
    obtain ⟨v', opened'⟩ := v'
    obtain ⟨rfl, hopened⟩ := hv
    refine ⟨rfl, n₁, hsplit, fun i hi => ?_, fun i hi => ?_, hr.apart⟩
    · by_cases heq : i = x.store
      · subst heq
        simp only [Function.update_self]
        exact List.rel_append (hmine _ hi) hopened
      · simp only [Function.update_of_ne heq]
        exact hmine i hi
    · simp only [Function.update_of_ne (hother i hi)]
      exact hr.theirs i hi

/-- A run comes to the same as the steps on some of the stores in the session for these, and the other steps in the
session for the others. -/
theorem runAll [DecidablePred P] (hr : Shares P P' n n' r a b)
    (hmine : ∀ i, P i → (manager i).backend.Local (Systems.party P) (Systems.party P'))
    (htheirs : ∀ i, P' i → (manager i).backend.Local (Systems.party P') (Systems.party P)) {xs : List StoreMove}
    (hxs : ∀ x ∈ xs, P x.store ∨ P' x.store) :
    let shared := StoresSession.runAll manager xs r
    let alone := StoresSession.runAll manager (xs.filter fun x => P x.store) a
    let rest := StoresSession.runAll manager (xs.filter fun x => ¬P x.store) b
    (shared.1.filter fun row => P row.1) = alone.1 ∧ ∃ n₁ n₁', Shares P P' n₁ n₁' shared.2 alone.2 rest.2 := by
  induction xs generalizing r a b n n' with
  | nil => exact ⟨rfl, n, n', hr⟩
  | cons x xs ih =>
    have hrest : ∀ y ∈ xs, P y.store ∨ P' y.store := fun y hy => hxs y (List.mem_cons_of_mem x hy)
    by_cases hx : P x.store
    · obtain ⟨hanswer, n₁, hstep⟩ := hr.step hx (hmine x.store hx)
      obtain ⟨hrows, hshares⟩ := ih hstep hrest
      rw [List.filter_cons_of_pos (by simpa using hx), List.filter_cons_of_neg (by simpa using hx)]
      refine ⟨?_, hshares⟩
      show List.filter _ ((x.store, (r.step manager x).1) :: _) = (x.store, (a.step manager x).1) :: _
      rw [List.filter_cons_of_pos (by simpa using hx), hanswer]
      exact congrArg _ hrows
    · have hx' : P' x.store := (hxs x (List.mem_cons_self ..)).resolve_left hx
      obtain ⟨-, n₁, hstep⟩ := hr.swap.step hx' (htheirs x.store hx')
      obtain ⟨hrows, hshares⟩ := ih hstep.swap hrest
      rw [List.filter_cons_of_neg (by simpa using hx), List.filter_cons_of_pos (by simpa using hx)]
      refine ⟨?_, hshares⟩
      show List.filter _ ((x.store, (r.step manager x).1) :: _) = _
      rw [List.filter_cons_of_neg (by simpa using hx)]
      exact hrows

end StoresSession.Shares

/-! ## Stores do not interfere -/

/-- The status with other names for its holders. -/
def Status.renamed {ς : Type} (name : HolderId → HolderId) (st : Status ς) : Status ς :=
  { st with holder := st.holder.map name, suspended := st.suspended.map name }

/-- All that the session `r` has of the store at a place is what the session `a` has of it, up to the names of
statuses and holders: the store itself, the holders, what is bound under its key, and the statuses that its manager
handed out, with where their transactions are. -/
structure StoresSession.Agrees (name : HolderId → HolderId) (i : Nat) (r a : StoresSession) : Prop where
  store : r.session.native.stores[i]? = a.session.native.stores[i]?
  injective : ∀ h k, h < a.session.holders.size → k < a.session.holders.size → name h = name k → h = k
  holder : ∀ h, h < a.session.holders.size → r.session.holder? (name h) = a.session.holder? h
  bound : ∀ c, r.session.bound c (Systems.storeKey i) = (a.session.bound c (Systems.storeKey i)).map name
  status : (r.scopes i).map r.session.status? =
    (a.scopes i).map fun t => (a.session.status? t).map (Status.renamed name)
  state : (r.scopes i).map (fun t => (r.session.status? t).map r.session.state) =
    (a.scopes i).map fun t => (a.session.status? t).map a.session.state

theorem map_eq_of_forall₂ {α β γ : Type} {R : α → β → Prop} {f : α → γ} {g : β → γ} {l : List α} {l' : List β}
    (h : List.Forall₂ R l l') (hfg : ∀ x y, R x y → f x = g y) : l.map f = l'.map g := by
  induction h with
  | nil => rfl
  | cons hxy _ ih => rw [List.map_cons, List.map_cons, hfg _ _ hxy, ih]

/-- The name that a holder of a party's own session has in the shared one. -/
def Names.holderName (n : Names) (h' : HolderId) : HolderId := n.holders.getD h' 0

theorem Names.SameHolder?.eq_map {n : Names} {o o' : Option HolderId} (h : n.SameHolder? o o') :
    o = o'.map n.holderName := by
  cases h with
  | none => rfl
  | @some h h' hh =>
    have hname : n.holderName h' = h := by
      unfold Names.holderName
      rw [List.getD_eq_getElem?_getD, show n.holders[h']? = some h from hh]; rfl
    rw [Option.map_some, hname]

theorem Names.Same.eq_renamed {ς : Type} {n : Names} {st st' : Status ς} (h : n.Same st st') :
    st = st'.renamed n.holderName := by
  unfold Status.renamed
  rw [← h.holder.eq_map, ← h.suspended.eq_map, h.rest]

theorem StoresSession.Shares.agrees {P P' : Nat → Prop} {n n' : Names} {r a b : StoresSession} {i : Nat}
    (hr : StoresSession.Shares P P' n n' r a b) (hi : P i) : StoresSession.Agrees n.holderName i r a := by
  have hsees := hr.split.mine
  have hname : ∀ h, h < a.session.holders.size → n.SameHolder (n.holderName h) h := by
    intro h hlt
    have hlt' : h < n.holders.length := Nat.lt_of_lt_of_eq hlt hsees.holders.symm
    unfold Names.SameHolder Names.holderName
    rw [List.getD_eq_getElem?_getD, List.getElem?_eq_getElem hlt']; rfl
  refine ⟨(hsees.native i hi).symm, fun h k hh hk heq => ?_, fun h hh => ?_, fun c => ?_, ?_, ?_⟩
  · have hkname := hname k hk
    rw [← heq] at hkname
    exact hsees.holder_inj (hname h hh) hkname
  · exact (hsees.holder _ _ (hname h hh)).2.symm
  · exact (hsees.bound c _ ⟨i, hi, rfl⟩).eq_map
  · refine map_eq_of_forall₂ (hr.mine i hi) fun t t' ht => ?_
    obtain ⟨st, st', hst, hst', hsame⟩ := hsees.status t t' ht
    rw [hst, hst', hsame.eq_renamed]; rfl
  · refine map_eq_of_forall₂ (hr.mine i hi) fun t t' ht => ?_
    obtain ⟨st, st', hst, hst', hsame⟩ := hsees.status t t' ht
    have hcompletion : st'.completion = st.completion := by rw [hsame.rest]
    have hstate : a.session.state st' = r.session.state st := by
      unfold Session.state
      rw [hcompletion, hr.split.statusHolder? hsame]
    rw [hst, hst', Option.map_some, Option.map_some, hstate]

/-- A fresh session has nothing of anybody. -/
theorem StoresSession.Shares.fresh {P P' : Nat → Prop} (hapart : ∀ i, P i → ¬P' i)
    (hkeys : ∀ i j, P i → P' j → Systems.storeKey i ≠ Systems.storeKey j) (contexts : Nat) (systems : Systems) :
    let r : StoresSession := { session := .ofContexts contexts systems }
    StoresSession.Shares P P' {} {} r r r := by
  intro r
  have hsees : ∀ Q : Nat → Prop, (Systems.party Q).Sees {} r.session r.session := by
    intro Q
    refine ⟨rfl, fun _ => rfl, fun c k _ => ?_, rfl, nofun, rfl, nofun, ⟨List.nodup_nil, List.nodup_nil⟩, fun _ _ => rfl⟩
    rw [show r.session.bound c k = none from bound_ofContexts contexts systems c k]
    exact .none
  refine ⟨⟨hsees P, hsees P', ?_, nofun, nofun⟩, fun _ _ => .nil, fun _ _ => .nil, hapart⟩
  rintro k ⟨i, hi, rfl⟩ ⟨j, hj, hsame⟩
  exact hkeys i j hi hj hsame

/-- Stores do not interfere. However steps on several stores are interleaved in one session, whatever they are and
whether they fail, the steps on a store whose key none of the others has get the same results as when they are taken
alone in a fresh session, under the same readings of the clock. The store is left the same, with its entries, its
connections, its counts of calls and its planned failures, and so are the statuses that its manager handed out, its
holders, and what is bound under its key, but for the names of statuses and holders. -/
theorem stores_apart (systems : Systems) (config : Nat → ManagerConfig) (contexts : Nat) (xs : List StoreMove) (i : Nat)
    (hkeys : ∀ x ∈ xs, x.store ≠ i → Systems.storeKey x.store ≠ Systems.storeKey i) :
    let fresh : StoresSession := { session := .ofContexts contexts systems }
    let manager := StoresSession.manager systems config
    let shared := StoresSession.runAll manager xs fresh
    let alone := StoresSession.runAll manager (xs.filter fun x => x.store = i) fresh
    (shared.1.filter fun row => row.1 = i) = alone.1 ∧ ∃ name, StoresSession.Agrees name i shared.2 alone.2 := by
  intro fresh manager shared alone
  have hapart : ∀ j, j = i → ¬Systems.storeKey j ≠ Systems.storeKey i := by
    rintro j rfl hne
    exact hne rfl
  have hfresh : StoresSession.Shares (· = i) (fun j => Systems.storeKey j ≠ Systems.storeKey i) {} {} fresh fresh fresh :=
    .fresh hapart (fun j k hj hk hsame => hk (by rw [← hsame, hj])) contexts systems
  have hmine : ∀ j, j = i → (manager j).backend.Local (Systems.party (· = i))
      (Systems.party fun j => Systems.storeKey j ≠ Systems.storeKey i) :=
    fun j hj => Systems.local_backend systems hj fun k hk hkj => hapart k (hkj.trans hj) hk
  have htheirs : ∀ j, Systems.storeKey j ≠ Systems.storeKey i →
      (manager j).backend.Local (Systems.party fun j => Systems.storeKey j ≠ Systems.storeKey i)
        (Systems.party (· = i)) :=
    fun j hj => Systems.local_backend systems hj fun k hk hkj => hapart j (hkj.symm.trans hk) hj
  obtain ⟨hrows, n, n', hshares⟩ := hfresh.runAll hmine htheirs
    fun x hx => (Decidable.em (x.store = i)).imp id (hkeys x hx)
  exact ⟨hrows, n.holderName, hshares.agrees rfl⟩

/-- Two transactions of one context, interleaved; that on the second store fails to commit. -/
theorem stores_apart_two :
    let systems := Systems.ofStores [("ledger", .all), ("audit", .all)]
    let xs : List StoreMove := [⟨0, 1, .enter 0 {}⟩, ⟨1, 2, .enter 0 {}⟩, ⟨1, 3, .store (.fail .commit 1)⟩,
      ⟨0, 4, .through 0 (.put "a" (.int 1))⟩, ⟨1, 5, .conclude true 0 0⟩, ⟨0, 6, .conclude true 0 0⟩]
    let fresh : StoresSession := { session := .ofContexts 1 systems }
    let manager := StoresSession.manager systems fun _ => {}
    let shared := StoresSession.runAll manager xs fresh
    let alone := StoresSession.runAll manager (xs.filter fun x => x.store = 0) fresh
    shared.1.map (fun row => (row.1, row.2.isOk)) =
      [(0, true), (1, true), (1, true), (0, true), (1, false), (0, true)] ∧
    (shared.2.session.native.store 0).entries.length = 1 ∧
    (shared.1.filter fun row => row.1 = 0) = alone.1 ∧ ∃ name, StoresSession.Agrees name 0 shared.2 alone.2 := by
  intro systems xs fresh manager shared alone
  refine ⟨by decide +kernel, by decide +kernel, ?_⟩
  exact stores_apart systems (fun _ => {}) 1 xs 0 (by decide)

end Demarcation
