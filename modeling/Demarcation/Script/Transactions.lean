/-
Scripts on transaction managers, with the statuses kept under labels. After each step the script
shows which of the kept statuses and of their holders look different from before.
-/
import Demarcation.Script.Basic
import Demarcation.Script.Holder

namespace Demarcation.Script

/-! ## Steps -/

inductive TransactionAction
  /-- Opens a scope and keeps its status. -/
  | get (d : Definition)
  | commit
  | rollback
  | setRollbackOnly
  | savepoint
  | inspect
  /-- A step on the holder of the labelled status. -/
  | holder (s : HolderStep)
  /-- Takes the label away. -/
  | drop
  | current
  | fail (p : Primitive) (times : Nat)
  | config
  | inspectManager
  /-- Binds a holder of another type. -/
  | bindForeign (key : ResourceKey)
  | unbindForeign (key : ResourceKey)
  | clearContext
  | inspectContext
  /-- A step on the context's connection to the manager's store. -/
  | data (s : DataStep)
  | store (s : StoreStep)

structure TransactionStep where
  action : TransactionAction
  manager : Nat := 0
  context : ContextIndex := 0
  label : String := ""

/-! ## Answers -/

/-- What can be seen of a resource. -/
inductive ResourceSummary
  | number (n : Nat)
  | text (s : String)
  | connection (id : UInt64) (pending : Nat) (closed : Bool)
  | other
deriving DecidableEq, Repr

def ResourceSummary.of (t : Systems) : Resource → ResourceSummary
  | .number n => number n
  | .label n => text (Journal.label n)
  | .connection store c =>
    match (t.store store).connection? c with
    | some conn => connection conn.id conn.pending conn.closed
    | none => other
  | .other => other

/-- What can be seen of a status. Its holder is shown by its number in the script. -/
structure StatusSummary where
  state : TransactionState
  newTransaction : Bool
  hasTransaction : Bool
  hasSavepoint : Bool
  hasSuspended : Bool
  localMark : Bool
  globalMark : Bool
  rollbackOnly : Bool
  completed : Bool
  resource : Option ResourceSummary
  holder : Option Nat
deriving DecidableEq, Repr

/-- What is shown: a status by its label, or a holder by its number, of one of the managers. -/
inductive Subject
  | status (manager : Nat) (label : String)
  | holder (manager number : Nat)
deriving DecidableEq, Repr

inductive Sight
  | status (s : StatusSummary)
  | holder (h : HolderSummary)
deriving DecidableEq, Repr

inductive TransactionAnswer
  | plain (a : Answer)
  | holder (a : HolderAnswer)
  | current (number : Nat) (h : HolderSummary) (resource : ResourceSummary)
  | texts (ts : List String)

/-- The calls that a step's manager made: those written down since the last look, or what the
store counts. -/
inductive SystemCalls
  | lines (ls : List String)
  | stats (s : StoreSummary)

structure TransactionRow where
  answer : Except Failure TransactionAnswer
  calls : SystemCalls
  changed : List (Subject × Sight)
  /-- How many bindings each context has. -/
  bound : List Nat

/-! ## Running -/

/-- A manager in a script. -/
structure ManagedSystem where
  part : Systems.Part
  manager : SystemsManager
  /-- The store that data steps work on. -/
  store : Nat := 0
  statuses : Labels StatusId := []
  /-- The holders seen so far; the first has number one. -/
  seen : List HolderId := []
  /-- How many of the calls written down were looked at. -/
  lookedAt : Nat := 0

namespace ManagedSystem

/-- The number of a holder; a holder not seen before gets the next one. -/
def numberOf (m : ManagedSystem) (h : HolderId) : Nat × ManagedSystem :=
  match m.seen.idxOf? h with
  | some i => (i + 1, m)
  | none => (m.seen.length + 1, { m with seen := m.seen ++ [h] })

/-- Numbers the holders of the kept statuses, in the order of the labels. -/
def numberHolders (m : ManagedSystem) (s : SystemsSession) : ManagedSystem :=
  m.statuses.foldl (fun m (_, t) =>
    match (s.status? t).bind Status.holder with
    | some h => (m.numberOf h).2
    | none => m) m

def summarize (m : ManagedSystem) (s : SystemsSession) (st : Status AnySavepoint) :
    StatusSummary :=
  { state := s.state st
    newTransaction := st.newTransaction
    hasTransaction := st.holder.isSome
    hasSavepoint := st.savepoint.isSome
    hasSuspended := st.suspended.isSome
    localMark := st.rollbackOnly
    globalMark := s.isGlobalRollbackOnly st
    rollbackOnly := s.isRollbackOnly st
    completed := st.isCompleted
    resource := (s.statusHolder? st).map fun h => .of s.native h.resource
    holder := st.holder.map fun h => (m.numberOf h).1 }

/-- Everything shown of a manager: its kept statuses and their holders. -/
def sights (m : ManagedSystem) (s : SystemsSession) (i : Nat) : List (Subject × Sight) :=
  let statuses := m.statuses.filterMap fun (label, t) => (s.status? t).map fun st => (label, st)
  let shown := statuses.map fun (label, st) =>
    (Subject.status i label, Sight.status (m.summarize s st))
  let holders := (statuses.filterMap fun (_, st) => st.holder).eraseDups
  shown ++ holders.filterMap fun h =>
    (s.holder? h).map fun holder =>
      (Subject.holder i (m.numberOf h).1, Sight.holder (.of holder))

end ManagedSystem

structure TransactionRun where
  session : SystemsSession
  managers : Array ManagedSystem
  /-- What was shown after the last step. -/
  shown : List (Subject × Sight) := []

namespace TransactionRun

abbrev Step (α : Type) := ScriptStep TransactionRun α

/-- The session of a script. -/
def sessionSlot : Slot TransactionRun SystemsSession where
  get run := run.session
  set session run := { run with session }

def modifyManager (i : Nat) (f : ManagedSystem → ManagedSystem) : Step Unit :=
  modify fun run => { run with managers := run.managers.modify i f }

/-- The status under a label of a manager. -/
def status (m : ManagedSystem) (label : String) : Step StatusId :=
  match m.statuses.find? label with
  | some t => pure t
  | none => throw noSuchStatus

/-- Takes a label of a manager away; nobody holds its status any more. -/
def dropLabel (i : Nat) (label : String) (old : Option StatusId) : Step Unit := do
  modifyManager i fun m => { m with statuses := m.statuses.drop label }
  match old with
  | some t => modifySession sessionSlot (·.forget t)
  | none => pure ()

/-- Fails the next calls of a primitive as told. -/
def plan (m : ManagedSystem) (p : Primitive) (times : Nat) (t : Systems) : Systems :=
  match m.part with
  | .store i =>
    let slot := Systems.storeSlot i
    let s := slot.get t
    slot.set { s with faults := s.faults.failNext p times } t
  | .fullJournal i _ _ | .smallJournal i _ _ =>
    let slot := Systems.journalSlot i
    slot.set ((slot.get t).setFailures p times) t

/-- A step without an answer. -/
def done (x : Step Unit) : Step TransactionAnswer := do
  x
  pure (.plain .nothing)

/-- Runs what a step does. -/
def runAction (step : TransactionStep) (m : ManagedSystem) : Step TransactionAnswer := do
  let c := step.context
  match step.action with
  | .get d =>
    let t ← onSession sessionSlot .transaction (m.manager.getTransaction c d)
    dropLabel step.manager step.label (m.statuses.find? step.label)
    modifyManager step.manager fun m => { m with statuses := m.statuses.put step.label t }
    pure (.plain (.text d.text))
  | .commit =>
    let t ← status m step.label
    done (onSession sessionSlot .transaction (m.manager.commit c t))
  | .rollback =>
    let t ← status m step.label
    done (onSession sessionSlot .transaction (m.manager.rollback c t))
  | .setRollbackOnly =>
    let t ← status m step.label
    done (modifySession sessionSlot (·.setRollbackOnly t))
  | .savepoint =>
    let t ← status m step.label
    match ((← get).session.status? t).bind Status.savepoint with
    | some sp => pure (.plain (.text sp.inspect))
    | none => pure (.plain .nothing)
  | .inspect =>
    let t ← status m step.label
    let s := (← get).session
    pure (.plain (.text ((s.status? t).elim "" (s.inspectStatus AnySavepoint.inspect))))
  | .holder h =>
    let t ← status m step.label
    let s := (← get).session
    match (s.status? t).bind Status.holder with
    | none => pure (.plain (.text "none"))
    | some id =>
      match s.holder? id with
      | none => pure (.plain (.text "none"))
      | some old =>
        let (a, new) := h.run s.now old
        modifySession sessionSlot (·.modifyHolder id fun _ => new)
        pure (.holder a)
  | .drop =>
    let t ← status m step.label
    done (dropLabel step.manager step.label (some t))
  | .current =>
    match ← onSession sessionSlot .transaction (m.manager.currentHolder c) with
    | none => pure (.plain .nothing)
    | some h =>
      let (number, m) := m.numberOf h
      modifyManager step.manager fun _ => m
      let s := (← get).session
      match s.holder? h with
      | none => pure (.plain .nothing)
      | some holder => pure (.current number (.of holder) (.of s.native holder.resource))
  | .fail p times =>
    done (modifySession sessionSlot fun s => { s with native := plan m p times s.native })
  | .config => pure (.plain (.text m.manager.config.toJson.toText))
  | .inspectManager => pure (.plain (.text m.manager.inspect))
  | .bindForeign key =>
    let h ← modifyGet
      (sessionSlot.run fun s => s.addHolder { kind := Resource.otherKind, resource := .other })
    done (onSession sessionSlot .registry (Session.bind c key h))
  | .unbindForeign key =>
    let _ ← onSession sessionSlot .registry (Session.unbind c Resource.otherKind key)
    pure (.plain .nothing)
  | .clearContext =>
    let (n, r) := ((← get).session.registry c).clear
    modifySession sessionSlot (·.setRegistry c r)
    pure (.plain (.number n))
  | .inspectContext =>
    let s := (← get).session
    let r := s.registry c
    if r.size < 2 then pure (.plain (.text (s.inspectContext c)))
    else pure (.texts ((r.keys.map ResourceKey.text).mergeSort))
  | .data d => .plain <$> onData sessionSlot m.store c d
  | .store s => .plain <$> onWholeStore sessionSlot m.store s

/-- Looks at the calls of a manager. -/
def look (t : Systems) (m : ManagedSystem) : SystemCalls × ManagedSystem :=
  match m.part with
  | .store i => (.stats (.of (t.store i)), m)
  | .fullJournal i _ _ | .smallJournal i _ _ =>
    let calls := (t.journal i).calls
    (.lines (calls.drop m.lookedAt), { m with lookedAt := calls.length })

/-- Everything shown of all managers. -/
def sights (run : TransactionRun) : List (Subject × Sight) :=
  run.managers.toList.zipIdx.flatMap fun (m, i) => m.sights run.session i

/-- Runs one step. A step of an unknown manager does nothing. -/
def step (run : TransactionRun) (s : TransactionStep) : TransactionRow × TransactionRun :=
  match run.managers[s.manager]? with
  | none => (⟨.error noSuchStatus, .lines [], [], []⟩, run)
  | some m =>
    let (answer, run) := (runAction s m).run run
    let session := Systems.closeAbandoned (fun _ _ => false) run.session
    let managers := run.managers.map (·.numberHolders session)
    let run := { run with session, managers }
    let now := run.sights
    let changed := now.filter fun sight => !run.shown.contains sight
    let (calls, m) := look session.native (run.managers.getD s.manager m)
    ({ answer, calls, changed, bound := session.registries.toList.map Registry.size },
      { run with managers := run.managers.setIfInBounds s.manager m, shown := now })

/-- What is left open when all statuses and contexts are gone. -/
def openAtEnd (run : TransactionRun) : List Nat :=
  let s := run.session
  let s := { s with
    registries := s.registries.map fun r => r.clear.2
    statuses := s.statuses.map fun st => { st with held := false } }
  (Systems.closeAbandoned (fun _ _ => false) s).native.stores.toList.map Store.openConnections

/-- The rows of all steps, and the script at the end. -/
def runAll : TransactionRun → List TransactionStep → List TransactionRow × TransactionRun
  | run, [] => ([], run)
  | run, s :: steps =>
    let (row, run) := run.step s
    let (rows, last) := runAll run steps
    (row :: rows, last)

/-- A script on managers over the parts of some systems. -/
def ofManagers (contexts : Nat) (systems : Systems)
    (managers : List (Systems.Part × ManagerConfig × Nat)) : TransactionRun where
  session := .ofContexts contexts
    { systems with journals := (managers.map fun _ => default).toArray }
  managers := (managers.map fun (part, config, store) =>
    ({ part, manager := ⟨part.backend systems, config⟩, store } : ManagedSystem)).toArray

end TransactionRun

end Demarcation.Script
