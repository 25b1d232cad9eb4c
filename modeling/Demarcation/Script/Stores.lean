/-
Scripts on stores, with connections, savepoints and holders kept under labels. Whatever no label
and no binding holds any more is closed at the end of the step.
-/
import Demarcation.Script.Basic
import Demarcation.Script.Holder

namespace Demarcation.Script

/-! ## Steps -/

/-- A step on a connection. -/
inductive ConnectionStep
  | data (d : DataStep)
  | commit
  | rollback
  /-- Takes a savepoint and keeps it under a label. -/
  | savepoint (label : String)
  | rollbackTo (savepoint : String)
  | release (savepoint : String)
  | close
  | inspect
  | nothing

inductive StoresAction
  | store (s : StoreStep)
  | inspectStore
  | info
  /-- Begins a native transaction and keeps its connection. -/
  | begin (d : Definition)
  /-- Keeps the connection of the context. -/
  | connect
  /-- Begins a native transaction, binds a new holder of its connection, and keeps the holder. -/
  | bind (d : Definition)
  /-- Binds a holder of another type. -/
  | bindForeign
  | unbind
  /-- A step on the labelled holder. -/
  | holder (s : HolderStep)
  /-- Takes the label away. -/
  | drop
  /-- A step on the labelled connection. -/
  | connection (s : ConnectionStep)
  /-- A primitive on the labelled connection: counted by the step's store, and then the same as a
  step on the connection. -/
  | native (p : Primitive) (savepoint label : String)

structure StoresStep where
  action : StoresAction
  store : Nat := 0
  context : ContextIndex := 0
  label : String := ""

/-! ## Answers -/

structure StoreInfo where
  name : String
  isEmpty : Bool
  capabilities : Capabilities
deriving Repr

inductive StoresAnswer
  | plain (a : Answer)
  /-- Whether the connection is that of a transaction, and its text. -/
  | access (transactional : Bool) (text : String)
  | savepoint (sp : Savepoint)
  | info (i : StoreInfo)
  | holder (a : HolderAnswer) (h : HolderSummary)

/-- What can be seen of a connection. -/
structure ConnectionSummary where
  id : UInt64
  pending : Nat
  closed : Bool
  readOnly : Bool
  autoCommit : Bool
  isolation : Isolation
deriving DecidableEq, Repr

def ConnectionSummary.of (c : Connection) : ConnectionSummary :=
  ⟨c.id, c.pending, c.closed, c.readOnly, c.autoCommit, c.isolation⟩

structure StoresRow where
  answer : Except Failure StoresAnswer
  /-- The step's store after the step. -/
  store : StoreSummary
  /-- How many bindings the step's context has after the step. -/
  bound : Nat
  /-- The connection that the step's label names after the step. -/
  connection : Option ConnectionSummary

/-! ## Running -/

/-- A connection under a label, with the store it belongs to. -/
structure KeptConnection where
  store : Nat
  id : ConnectionId
deriving DecidableEq, Repr

structure StoresRun where
  session : SystemsSession
  connections : Labels KeptConnection := []
  holders : Labels HolderId := []
  savepoints : Labels Savepoint := []

namespace StoresRun

abbrev Step (α : Type) := ScriptStep StoresRun α

/-- The session of a script. -/
def sessionSlot : Slot StoresRun SystemsSession where
  get run := run.session
  set session run := { run with session }

/-- An operation on a store. -/
def onStore {α : Type} (store : Nat) (op : Store → Except StorageError (α × Store)) : Step α :=
  onSession sessionSlot .storage ((Systems.site store).perform op)

/-- A native operation on a store. -/
def callStore {α : Type} (store : Nat) (op : Native Store α) : Step α :=
  onSession sessionSlot id (Session.call ((Systems.storeSlot store).run op))

/-- An operation that changes a store or fails. -/
def changeStore (store : Nat) (op : Store → Except StorageError Store) : Step Unit :=
  onStore store fun s => (op s).map fun s => ((), s)

/-- A step without an answer. -/
def done (x : Step Unit) : Step StoresAnswer := do
  x
  pure (.plain .nothing)

/-- The connection under a label. -/
def connection (label : String) : Step KeptConnection := do
  match (← get).connections.find? label with
  | some c => pure c
  | none => throw noSuchConnection

/-- The savepoint under a label. -/
def savepoint (label : String) : Step Savepoint := do
  match (← get).savepoints.find? label with
  | some sp => pure sp
  | none => throw noSuchSavepoint

/-- The holder under a label. -/
def holder (label : String) : Step HolderId := do
  match (← get).holders.find? label with
  | some h => pure h
  | none => throw noSuchConnection

def keepConnection (label : String) (store : Nat) (c : ConnectionId) : Step Unit :=
  modify fun run => { run with connections := run.connections.put label ⟨store, c⟩ }

/-- What can be seen of a kept connection. -/
def summary? (run : StoresRun) (c : KeptConnection) : Option ConnectionSummary :=
  ((run.session.native.store c.store).connection? c.id).map .of

/-- Begins a native transaction on a store. -/
def start (store : Nat) (d : Definition) : Step ConnectionId := do
  let s := (← get).session.native.store store
  callStore store ((Store.backend s.key s.capabilities).start d)

/-- Binds a new holder under the key of a store. -/
def bindNew (store : Nat) (context : ContextIndex) (h : Holder Resource) : Step HolderId := do
  let h ← modifyGet (sessionSlot.run fun s => s.addHolder h)
  onSession sessionSlot .registry (Session.bind context (Systems.storeKey store) h)
  pure h

/-- Runs a step on a connection. -/
def runConnectionStep (c : KeptConnection) : ConnectionStep → Step StoresAnswer
  | .data d => .plain <$> onStore c.store (d.run c.id)
  | .commit => done (changeStore c.store (·.commit c.id))
  | .rollback => done (changeStore c.store (·.rollback c.id))
  | .savepoint label => do
    let sp ← onStore c.store (·.savepoint c.id)
    modify fun run => { run with savepoints := run.savepoints.put label sp }
    pure (.savepoint sp)
  | .rollbackTo label => do
    let sp ← savepoint label
    done (changeStore c.store (·.rollbackTo c.id sp))
  | .release label => do
    let sp ← savepoint label
    done (changeStore c.store fun s => (s.release c.id sp).map fun _ => s)
  | .close => done (changeStore c.store fun s => .ok (s.close c.id))
  | .inspect => do
    let s := (← get).session.native.store c.store
    pure (.plain (.text ((s.connection? c.id).elim "" Connection.inspect)))
  | .nothing => pure (.plain .nothing)

/-- What a primitive does to a connection. -/
def nativeStep (p : Primitive) (savepoint label : String) : ConnectionStep :=
  match p with
  | .begin | .suspend | .resume => .nothing
  | .commit => .commit
  | .rollback => .rollback
  | .cleanup => .close
  | .createSavepoint => .savepoint label
  | .rollbackToSavepoint => .rollbackTo savepoint
  | .releaseSavepoint => .release savepoint

/-- Fails if a step needs a savepoint that is not kept. -/
def checkSavepoint : ConnectionStep → Step Unit
  | .rollbackTo label | .release label => do
    let _ ← savepoint label
  | _ => pure ()

/-- Runs what a step does. -/
def runAction (step : StoresStep) : Step StoresAnswer := do
  let i := step.store
  match step.action with
  | .store s => .plain <$> onWholeStore sessionSlot i s
  | .inspectStore => pure (.plain (.text ((← get).session.native.store i).inspect))
  | .info =>
    let s := (← get).session.native.store i
    pure (.info ⟨s.name, s.entries.isEmpty, s.capabilities⟩)
  | .begin d =>
    let c ← start i d
    keepConnection step.label i c
    pure (.plain .nothing)
  | .connect =>
    let a ← onSession sessionSlot .storage ((Systems.site i).access step.context)
    keepConnection step.label i a.connection
    let s := (← get).session.native.store i
    pure (.access a.isTransactional
      (a.inspect ((s.connection? a.connection).elim "" Connection.inspect)))
  | .bind d =>
    let c ← start i d
    let h ← bindNew i step.context { kind := StoreSite.kind, resource := .connection i c }
    modify fun run => { run with holders := run.holders.put step.label h }
    pure (.plain .nothing)
  | .bindForeign =>
    let _ ← bindNew i step.context { kind := Resource.otherKind, resource := .other }
    pure (.plain .nothing)
  | .unbind =>
    let h ← onSession sessionSlot .registry
      (Session.unbind step.context StoreSite.kind (Systems.storeKey i))
    match ((← get).session.holder? h).bind fun holder =>
        (Resource.connectionCase i).unwrap holder.resource with
    | some c => pure (.plain (.number c.number.toNat))
    | none => pure (.plain .nothing)
  | .holder s =>
    let h ← holder step.label
    match (← get).session.holder? h with
    | none => throw noSuchConnection
    | some old =>
      let (a, new) := s.run (← get).session.now old
      modifySession sessionSlot (·.modifyHolder h fun _ => new)
      pure (.holder a (.of new))
  | .drop =>
    modify fun run =>
      { run with
        connections := run.connections.drop step.label
        holders := run.holders.drop step.label }
    pure (.plain .nothing)
  | .connection s => runConnectionStep (← connection step.label) s
  | .native p savepoint label =>
    let c ← connection step.label
    let s := nativeStep p savepoint label
    checkSavepoint s
    callStore i (Store.enter p)
    runConnectionStep c s

/-- Whether a label holds a connection, directly or through a holder. -/
def keeps (run : StoresRun) (store : Nat) (c : ConnectionId) : Bool :=
  run.connections.any (fun l => l.2 == ⟨store, c⟩) ||
    run.holders.any fun l =>
      (run.session.holder? l.2).any fun h => h.resource == .connection store c

/-- Closes the connections that nothing holds any more. -/
def closeAbandoned (run : StoresRun) : StoresRun :=
  { run with session := Systems.closeAbandoned run.keeps run.session }

/-- Runs one step. -/
def step (run : StoresRun) (s : StoresStep) : StoresRow × StoresRun :=
  let (answer, run) := (runAction s).run run
  let run := run.closeAbandoned
  ({ answer
     store := .of (run.session.native.store s.store)
     bound := (run.session.registry s.context).size
     connection := (run.connections.find? s.label).bind run.summary? }, run)

/-- The rows of all steps, and the committed entries of all stores at the end. -/
def runAll : StoresRun → List StoresStep → List StoresRow × List Entries
  | run, [] => ([], allEntries run.session.native)
  | run, s :: steps =>
    let (row, run) := run.step s
    let (rows, entries) := runAll run steps
    (row :: rows, entries)

end StoresRun

end Demarcation.Script
