/-
Scripts of calls through chains of interceptors. This module holds their actions, what they
answer and log, and the world that they run in.
-/
import Demarcation.Invocation
import Demarcation.Script.Basic
import Demarcation.Translation

namespace Demarcation.Script

/-! ## Actions -/

/-- What a script does, and what the bodies of its calls and templates do. -/
inductive Action
  /-- Calls an operation, which runs the body, through a chain. -/
  | call (chain : String) (operation : Operation) (arguments : List Value)
      (receiver : Option Value) (body : List Action)
  /-- Runs the body in a scope of a manager. -/
  | template (manager : Nat) (d : Definition) (body : List Action)
  /-- An action whose failure does not end the body around it. -/
  | recover (a : Action)
  /-- Ends the body with a value. -/
  | return (v : Value)
  | raise (f : Failure)
  /-- Fails the first `times` times that the counter is counted, over the whole script. -/
  | failFirst (counter : String) (times : Nat) (f : Failure)
  /-- Looks at the call that runs the body. -/
  | info
  /-- Marks the scope that runs the body rollback-only. -/
  | markRollbackOnly
  /-- Looks at the scope that runs the body. -/
  | status
  /-- Looks at the transaction of a manager in the context. -/
  | current (manager : Nat)
  /-- Marks the transaction of a manager in the context rollback-only. -/
  | doom (manager : Nat)
  | fault (store : Nat) (p : Primitive) (times : Nat)
  | store (store : Nat) (s : StoreStep)
  | stats (store : Nat)
  /-- Whether the context has a transaction on the store. -/
  | bound (store : Nat)
  | data (store : Nat) (s : DataStep)

namespace Action

instance : Inhabited Action := ⟨info⟩

/-- The value that ends the body, if the action ends it. -/
def returned? : Action → Option Value
  | «return» v => some v
  | recover a => a.returned?
  | _ => none

def recovers : Action → Bool
  | recover _ => true
  | _ => false

/-- The name of an action in a log. -/
def name : Action → String
  | call .. => "call"
  | template .. => "template"
  | recover a => a.name
  | «return» _ => "return"
  | raise _ => "raise"
  | failFirst .. => "fail_first"
  | info => "info"
  | markRollbackOnly => "rollback_only"
  | status => "status"
  | current _ => "current"
  | doom _ => "doom"
  | fault .. => "fault"
  | store _ s => s.name
  | stats _ => "stats"
  | bound _ => "bound"
  | data _ s => s.name

end Action

/-! ## Answers -/

/-- A call as its operation sees it. -/
structure Snapshot where
  operation : String
  arguments : List Value
  position : Nat
  receiver : Option Value
  text : String

namespace Snapshot

/-- The sum of the whole numbers among the arguments. -/
def sum (s : Snapshot) : Int64 := (s.arguments.filterMap Value.int?).foldl (· + ·) 0

end Snapshot

/-- What a template's body can see of its scope. -/
structure ScopeSummary where
  newTransaction : Bool
  hasTransaction : Bool
  hasSavepoint : Bool
  hasSuspended : Bool
  rollbackOnly : Bool
  globalRollbackOnly : Bool
  state : TransactionState
  name : Option String
deriving DecidableEq, Repr

/-- What can be seen of the transaction of a context. -/
structure CurrentSummary where
  connection : UInt64
  rollbackOnly : Bool
  synchronized : Bool
  references : Nat
  readOnly : Bool
  isolation : Isolation
deriving DecidableEq, Repr

inductive CallAnswer
  | plain (a : Answer)
  /-- The result of a call or a template. -/
  | result (v : Value)
  | snapshot (s : Snapshot)
  | scope (s : ScopeSummary)
  | current (c : CurrentSummary)
  | stats (s : StoreSummary)

/-- Whether there is something to log. -/
def CallAnswer.isLogged : CallAnswer → Bool
  | plain .nothing => false
  | _ => true

/-! ## The log -/

/-- Where a call under way is: its operation, its position, and the bindings of its context. -/
structure Place where
  operation : String
  position : Nat
  bound : Nat
deriving DecidableEq, Repr

inductive LogEntry
  | before (name : String) (place : Place)
  | after (name : String) (place : Place) (failure : Option Failure)
  /-- A template is about to open its scope. -/
  | entered (definition : String)
  | caught (f : Failure)
  | did (action : String) (answer : CallAnswer)

/-! ## The world -/

structure CallsWorld where
  session : SystemsSession
  /-- The translators that the translating steps of the chains have detected. -/
  resolutions : Array Resolution := #[]
  /-- The log, the last entry first. -/
  log : List LogEntry := []
  /-- How often each counter was counted. -/
  counters : Labels Nat := []

namespace CallsWorld

def sessionSlot : Slot CallsWorld SystemsSession where
  get w := w.session
  set session w := { w with session }

def resolutionSlot (i : Nat) : Slot CallsWorld Resolution where
  get w := w.resolutions.getD i (.detecting none)
  set r w := { w with resolutions := w.resolutions.setIfInBounds i r }

def write (w : CallsWorld) (e : LogEntry) : CallsWorld := { w with log := e :: w.log }

/-- Counts a counter once more, and answers its count. -/
def count (counter : String) (w : CallsWorld) : Nat × CallsWorld :=
  let n := (w.counters.find? counter).getD 0 + 1
  (n, { w with counters := w.counters.put counter n })

/-- Closes the connections that nothing refers to any more. -/
def closeAbandoned (w : CallsWorld) : CallsWorld :=
  { w with session := Systems.closeAbandoned (fun _ _ => false) w.session }

end CallsWorld

end Demarcation.Script
