/-
A store with another log on one connection. Most operations neither read that log nor leave anything of it
behind: all that work on other connections, and those that drop it.
-/
import Demarcation.Proofs.Manager.Mirror
import Demarcation.Store
import Demarcation.Script.Basic

namespace Demarcation

open Session

variable {α : Type}

namespace Store

/-- The store with another log on a connection. -/
def restage (s : Store) (k : ConnectionId) (log : List Write) : Store :=
  { s with connections := s.connections.modify k fun conn => { conn with log } }

variable {s s' : Store} {c k : ConnectionId} {conn : Connection} {log : List Write}

/-! ## Another log on a connection -/

theorem connection?_restage (s : Store) (k : ConnectionId) (log : List Write) (c : ConnectionId) :
    (s.restage k log).connection? c =
      if c = k then (s.connection? c).map fun conn => { conn with log } else s.connection? c := by
  unfold connection? restage
  simp only [Array.getElem?_modify, eq_comm]

theorem restage_restage (s : Store) (k : ConnectionId) (log log' : List Write) :
    (s.restage k log).restage k log' = s.restage k log' := by
  unfold restage
  congr 1
  refine Array.ext_getElem? fun i => ?_
  simp only [Array.getElem?_modify]
  split
  · rw [Option.map_map]; rfl
  · rfl

theorem restage_setConnection (hc : c ≠ k) (s : Store) (conn : Connection) (log : List Write) :
    (s.setConnection c conn).restage k log = (s.restage k log).setConnection c conn := by
  unfold restage setConnection
  congr 1
  refine Array.ext_getElem? fun i => ?_
  simp only [Array.getElem?_modify, Array.getElem?_setIfInBounds, Array.size_modify]
  by_cases hi : c = i
  · subst hi
    simp [Ne.symm hc]
  · simp [hi]

theorem restage_setConnection_self (s : Store) (k : ConnectionId) (conn : Connection) (log : List Write) :
    (s.setConnection k conn).restage k log = (s.restage k log).setConnection k { conn with log } := by
  unfold restage setConnection
  congr 1
  refine Array.ext_getElem? fun i => ?_
  simp only [Array.getElem?_modify, Array.getElem?_setIfInBounds, Array.size_modify]
  by_cases hi : k = i
  · subst hi
    by_cases hlt : k < s.connections.size <;> simp [hlt]
  · simp [hi]

theorem restage_connect (s : Store) (readOnly autoCommit : Bool) (isolation : Isolation) (k : ConnectionId) :
    ((s.restage k []).connect readOnly autoCommit isolation) =
      ((s.connect readOnly autoCommit isolation).1, (s.connect readOnly autoCommit isolation).2.restage k []) := by
  unfold restage connect
  simp only [Array.size_modify]
  congr 2
  refine Array.ext_getElem? fun i => ?_
  simp only [Array.getElem?_modify, Array.getElem?_push, Array.size_modify]
  by_cases hi : i = s.connections.size
  · subst hi
    split <;> simp_all
  · simp [hi]

theorem usable_restage (hc : c ≠ k) : (s.restage k log).usable c = s.usable c := by
  unfold usable
  rw [connection?_restage, if_neg hc]
  rfl

theorem usable_restage_self (s : Store) (k : ConnectionId) (log : List Write) :
    (s.restage k log).usable k = (s.usable k).map fun conn => { conn with log } := by
  unfold usable
  rw [connection?_restage, if_pos rfl]
  cases s.connection? k with
  | none => rfl
  | some conn =>
    show (if conn.closed then _ else if s.busy then _ else _) = Except.map _ (if conn.closed then _ else _)
    cases conn.closed <;> cases s.busy <;> rfl

/-! ## Operations that do not see the log -/

theorem write_restage (hc : c ≠ k) (w : Write) :
    (s.restage k log).write c w = (s.write c w).map fun n => n.restage k log := by
  have hreads : (s.restage k log).isReadOnly c = s.isReadOnly c := by
    unfold isReadOnly
    rw [connection?_restage, if_neg hc]
  unfold write
  rw [hreads, usable_restage hc]
  split
  · rfl
  · cases s.usable c with
    | error e => rfl
    | ok conn =>
      show (if conn.autoCommit then _ else _) = Except.map _ (if conn.autoCommit then _ else _)
      cases conn.autoCommit with
      | true => rfl
      | false => exact congrArg Except.ok (restage_setConnection hc s _ log).symm

/-- Working on the data of another connection does not depend on the log. -/
theorem data_restage (hc : c ≠ k) (d : Script.DataStep) :
    d.run c (s.restage k log) = (d.run c s).map fun q => (q.1, q.2.restage k log) := by
  have hget : ∀ key, (s.restage k log).get c key = s.get c key := by
    intro key
    unfold get
    rw [usable_restage hc]
    rfl
  have hscan : ∀ start, (s.restage k log).scan c start = s.scan c start := by
    intro start
    unfold scan
    rw [usable_restage hc]
    rfl
  have hcontains : ∀ key, (s.restage k log).contains c key = s.contains c key := by
    intro key
    unfold contains
    rw [hget]
  have hwrote : ∀ w, (((s.restage k log).write c w) >>= fun n => pure (Script.Answer.nothing, n)) =
      ((s.write c w) >>= fun n => pure (Script.Answer.nothing, n)).map fun q => (q.1, q.2.restage k log) := by
    intro w
    rw [write_restage hc]
    cases s.write c w <;> rfl
  cases d with
  | put key value => exact hwrote (.put key value)
  | insert key value =>
    unfold Script.DataStep.run insert
    dsimp only
    rw [hcontains]
    cases s.contains c key with
    | error e => rfl
    | ok there =>
      cases there with
      | true => rfl
      | false => exact hwrote (.put key value)
  | update key value =>
    unfold Script.DataStep.run update
    dsimp only
    rw [hcontains]
    cases s.contains c key with
    | error e => rfl
    | ok there =>
      cases there with
      | true => exact hwrote (.put key value)
      | false => rfl
  | delete key =>
    unfold Script.DataStep.run delete
    dsimp only
    rw [hcontains]
    cases s.contains c key with
    | error e => rfl
    | ok there =>
      cases there with
      | true => exact hwrote (.delete key)
      | false => rfl
  | get key =>
    unfold Script.DataStep.run
    dsimp only
    rw [hget]
    cases s.get c key <;> rfl
  | contains key =>
    unfold Script.DataStep.run
    dsimp only
    rw [hcontains]
    cases s.contains c key <;> rfl
  | scan start =>
    unfold Script.DataStep.run
    dsimp only
    rw [hscan]
    cases s.scan c start <;> rfl
  | pending =>
    unfold Script.DataStep.run
    dsimp only
    rw [connection?_restage, if_neg hc]
    rfl

theorem close_restage (s : Store) (c k : ConnectionId) : (s.restage k []).close c = (s.close c).restage k [] := by
  have hclose : ∀ n n' : Store, n = n' →
      ({ n with openConnections := s.openConnections - 1 } : Store) =
        { n' with openConnections := s.openConnections - 1 } := by
    rintro n _ rfl
    rfl
  unfold close
  rw [connection?_restage]
  by_cases hc : c = k
  · subst hc
    rw [if_pos rfl]
    cases s.connection? c with
    | none => rfl
    | some conn =>
      dsimp only [Option.map_some]
      split
      · rfl
      · exact hclose _ _ (restage_setConnection_self s c { conn with closed := true, log := [] } []).symm
  · rw [if_neg hc]
    cases s.connection? c with
    | none => rfl
    | some conn =>
      dsimp only
      split
      · rfl
      · exact hclose _ _ (restage_setConnection hc s { conn with closed := true, log := [] } []).symm

theorem rollback_restage (s : Store) (c k : ConnectionId) :
    (s.restage k []).rollback c = (s.rollback c).map fun n => n.restage k [] := by
  unfold rollback
  by_cases hc : c = k
  · subst hc
    rw [usable_restage_self]
    cases s.usable c with
    | error e => rfl
    | ok conn => exact congrArg Except.ok (restage_setConnection_self s c _ []).symm
  · rw [usable_restage hc]
    cases s.usable c with
    | error e => rfl
    | ok conn => exact congrArg Except.ok (restage_setConnection hc s _ []).symm

theorem release_restage (s : Store) (c k : ConnectionId) (sp : Savepoint) :
    (s.restage k log).release c sp = s.release c sp := by
  unfold release
  by_cases hc : c = k
  · subst hc
    rw [usable_restage_self]
    cases checkOwner c sp <;> cases s.usable c <;> rfl
  · rw [usable_restage hc]

theorem commit_restage (hc : c ≠ k) (s : Store) :
    (s.restage k log).commit c = (s.commit c).map fun n => n.restage k log := by
  unfold commit
  rw [usable_restage hc]
  cases s.usable c with
  | error e => rfl
  | ok conn =>
    have hset := restage_setConnection hc s { conn with log := [] } log
    exact congrArg (fun n : Store => Except.ok { n with entries := s.entries.applyAll conn.log }) hset.symm

theorem savepoint_restage (hc : c ≠ k) (s : Store) :
    (s.restage k log).savepoint c = (s.savepoint c).map fun q => (q.1, q.2.restage k log) := by
  unfold savepoint
  rw [usable_restage hc]
  cases s.usable c with
  | error e => rfl
  | ok conn => exact congrArg (fun n => Except.ok (conn.nextSavepoint, n)) (restage_setConnection hc s _ log).symm

theorem rollbackTo_restage (hc : c ≠ k) (s : Store) (sp : Savepoint) :
    (s.restage k log).rollbackTo c sp = (s.rollbackTo c sp).map fun n => n.restage k log := by
  unfold rollbackTo
  rw [usable_restage hc]
  cases checkOwner c sp with
  | error e => rfl
  | ok =>
    cases s.usable c with
    | error e => rfl
    | ok conn =>
      show (if _ then _ else _) = Except.map _ (if _ then _ else _)
      split
      · rfl
      · exact congrArg Except.ok (restage_setConnection hc s _ log).symm

end Store

/-! ## Backends that do not see the log -/

/-- Hides what is staged on a connection. -/
def unstaged (k : ConnectionId) : NativeView Store Store ConnectionId ConnectionId := ⟨fun n => n.restage k [], id⟩

theorem unstaged_state (k : ConnectionId) (n : Store) : (unstaged k).state n = n.restage k [] := rfl

/-- The backend without the operations that depend on what is staged on a connection: they fail. -/
def Backend.blind (b : Backend Store ConnectionId Savepoint) (k : ConnectionId) :
    Backend Store ConnectionId Savepoint :=
  { b with
    commit := fun r => if r = k then .fail .savepointsUnsupported else b.commit r
    createSavepoint := fun r => if r = k then .fail .savepointsUnsupported else b.createSavepoint r
    rollbackToSavepoint := fun r sp =>
      if r = k then .fail .savepointsUnsupported else b.rollbackToSavepoint r sp }

namespace Native.Mirrored

variable {k : ConnectionId} {p : Primitive}

theorem primitive {op : Native Store α} (hop : Native.Mirrored (unstaged k).state op op) :
    Native.Mirrored (unstaged k).state (Store.primitive p op) (Store.primitive p op) := by
  intro n
  have henter : Store.enter p (n.restage k []) = ((Store.enter p n).1, (Store.enter p n).2.restage k []) := rfl
  unfold Store.primitive
  rw [unstaged_state, henter]
  rcases Store.enter p n with ⟨_ | _, n'⟩
  · rfl
  · exact hop n'

theorem changing {op : Store → Except StorageError Store}
    (hop : ∀ n, op (n.restage k []) = (op n).map fun n => n.restage k []) :
    Native.Mirrored (unstaged k).state (Store.changing op) (Store.changing op) := by
  intro n
  unfold Store.changing
  rw [unstaged_state, hop]
  cases op n <;> rfl

end Native.Mirrored

namespace Store

variable {key : ResourceKey} {capabilities : Capabilities} {k : ConnectionId}

theorem start_unstaged (d : Definition) :
    Native.Mirrored (unstaged k).state ((backend key capabilities).start d) ((backend key capabilities).start d) := by
  have hconnect : Native.Mirrored (unstaged k).state
      (fun s => let q := s.connect d.readOnly false d.isolation; (Except.ok q.1, q.2))
      fun s => let q := s.connect d.readOnly false d.isolation; (Except.ok q.1, q.2) := by
    intro n
    show (Except.ok ((n.restage k []).connect _ _ _).1, ((n.restage k []).connect _ _ _).2) = _
    rw [restage_connect]
    rfl
  exact .primitive hconnect

theorem createSavepoint_unstaged {c : ConnectionId} (hc : c ≠ k) :
    Native.Mirrored (unstaged k).state ((backend key capabilities).createSavepoint c)
      ((backend key capabilities).createSavepoint c) := by
  refine .primitive fun n => ?_
  simp only [unstaged_state, savepoint_restage hc]
  cases n.savepoint c <;> rfl

theorem releaseSavepoint_unstaged (key : ResourceKey) (capabilities : Capabilities) (c : ConnectionId)
    (sp : Savepoint) :
    Native.Mirrored (unstaged k).state ((backend key capabilities).releaseSavepoint c sp)
      ((backend key capabilities).releaseSavepoint c sp) := by
  refine .primitive fun n => ?_
  simp only [unstaged_state, release_restage]
  cases n.release c sp <;> rfl

theorem backend_blind (key : ResourceKey) (capabilities : Capabilities) (k : ConnectionId) :
    ((backend key capabilities).blind k).Mirrored (unstaged k) ((backend key capabilities).blind k) := by
  have hguarded : ∀ {β : Type} (op : ConnectionId → Native Store β),
      (∀ r, r ≠ k → Native.Mirrored (unstaged k).state (op r) (op r)) →
      ∀ r, Native.Mirrored (unstaged k).state (if r = k then .fail .savepointsUnsupported else op r)
        (if r = k then .fail .savepointsUnsupported else op r) := by
    intro β op hop r
    split
    · exact fun _ => rfl
    · exact hop r ‹_›
  refine ⟨rfl, rfl, rfl, fun d n => ?_, fun r => .primitive fun _ => rfl, fun r => .primitive fun _ => rfl, ?_,
    fun r => ?_, fun r => ?_, ?_, fun r sp => ?_, fun r sp => ?_⟩
  · -- the resource of a new transaction is seen as it is
    have hstart : (backend key capabilities).start d (n.restage k []) =
        (((backend key capabilities).start d n).1, ((backend key capabilities).start d n).2.restage k []) :=
      start_unstaged d n
    refine hstart.trans (Prod.ext ?_ rfl)
    show ((backend key capabilities).start d n).1 = ((backend key capabilities).start d n).1.map id
    cases ((backend key capabilities).start d n).1 <;> rfl
  · exact hguarded (backend key capabilities).commit fun r hr => .primitive (.changing fun n => commit_restage hr n)
  · exact .primitive (.changing fun n => rollback_restage n r k)
  · exact .primitive fun n => congrArg (Prod.mk _) (close_restage n r k)
  · exact hguarded (backend key capabilities).createSavepoint fun r hr => createSavepoint_unstaged hr
  · exact hguarded (fun r => (backend key capabilities).rollbackToSavepoint r sp)
      (fun r hr => .primitive (.changing fun n => rollbackTo_restage hr n sp)) r
  · exact releaseSavepoint_unstaged key capabilities r sp

end Store

end Demarcation
