/-
The transaction manager. It opens scopes (joining, suspending, nesting in or beginning a
transaction, as the definition asks) and completes them, driving the native operations of one
backend. Completing a scope always releases what the scope acquired and resumes what it
suspended, whether the native operations succeed or not; of several errors the first counts.
-/
import Demarcation.Session

namespace Demarcation

structure Manager (σ ρ ς : Type) where
  backend : Backend σ ρ ς
  config : ManagerConfig := {}

/-! ## The errors of managers -/

namespace TransactionErrorFrom

variable {φ : Type}

def noExistingTransaction : TransactionErrorFrom φ :=
  .usage "no existing transaction found for transaction marked with propagation 'mandatory'"

def existingTransaction : TransactionErrorFrom φ :=
  .usage "existing transaction found for transaction marked with propagation 'never'"

def incompatibleIsolation (d : Definition) (existing : Isolation) : TransactionErrorFrom φ :=
  .usage ("participating transaction with definition [" ++ d.text ++
    "] specifies isolation level which is incompatible with existing transaction: " ++
    existing.text)

def writeInReadOnly (d : Definition) : TransactionErrorFrom φ :=
  .usage ("participating transaction with definition [" ++ d.text ++
    "] is not marked as read-only but existing transaction is")

def nestingNotAllowed : TransactionErrorFrom φ :=
  .creation "transaction manager does not allow nested transactions" none

def savepointsMissing : TransactionErrorFrom φ :=
  .creation "backend does not support the savepoints nested transactions require" none

def isolationMissing (i : Isolation) : TransactionErrorFrom φ :=
  .creation ("backend does not support isolation level " ++ i.text) none

def timeoutsMissing : TransactionErrorFrom φ :=
  .creation "backend does not support transaction timeouts" none

def alreadyCompleted : TransactionErrorFrom φ :=
  .illegalState ("transaction is already completed; do not call commit or rollback more than " ++
    "once per transaction")

def markedRollbackOnly : TransactionErrorFrom φ :=
  .unexpectedRollback "transaction rolled back because it has been marked as rollback-only"

/-- A native operation failed while a transaction was being created. -/
def creationFailed (text : String) (f : φ) : TransactionErrorFrom φ := .creation text (some f)

/-- A native operation failed. -/
def systemFailed (text : String) (f : φ) : TransactionErrorFrom φ := .system text (some f)

end TransactionErrorFrom

/-- The first of two results that is an error. -/
def firstError {ε : Type} : Except ε Unit → Except ε Unit → Except ε Unit
  | .error e, _ => .error e
  | .ok (), second => second

namespace Manager

open Session

variable {σ ρ ς : Type}

/-- A native operation on the resource of a holder; a failure is worded by `fault`. -/
def callOn {α : Type} (h : HolderId) (op : ρ → Native σ α)
    (fault : Failure → TransactionError) : Attempt σ ρ ς TransactionError (Option α) := do
  match (← get).holder? h with
  | none => pure none
  | some holder => some <$> (call (op holder.resource)).adapt fault

/-- The holder of the transaction bound to a context, if there is one. -/
def currentHolder (m : Manager σ ρ ς) (c : ContextIndex) :
    Attempt σ ρ ς TransactionError (Option HolderId) :=
  (find c m.backend.kind m.backend.key).adapt .registry

/-! ## Suspending and resuming -/

/-- Detaches a holder's transaction from the context. -/
def suspend (m : Manager σ ρ ς) (c : ContextIndex) (h : HolderId) :
    Attempt σ ρ ς TransactionError Unit := do
  let _ ← callOn h m.backend.suspend (.systemFailed "could not suspend native transaction")
  let _ ← (unbind c m.backend.kind m.backend.key).adapt .registry
  modify fun s => s.modifyHolder h (·.setSuspended true)

/-- Attaches a suspended holder's transaction to the context again. -/
def resume (m : Manager σ ρ ς) (c : ContextIndex) (h : HolderId) :
    Attempt σ ρ ς TransactionError Unit := do
  (bind c m.backend.key h).adapt .registry
  modify fun s => s.modifyHolder h (·.setSuspended false)
  let _ ← callOn h m.backend.resume (.systemFailed "could not resume native transaction")

/-! ## Opening scopes -/

/-- Adds the status of a scope that was opened. -/
def opened (st : Status ς) : Attempt σ ρ ς TransactionError StatusId :=
  fun s => let (t, s) := s.addStatus st; (.ok t, s)

/-- The timeout of a new transaction: its own, which the backend must support, or the default,
which it may ignore. -/
def timeoutOf (m : Manager σ ρ ς) (d : Definition) : Except TransactionError (Option Duration) :=
  match d.timeout.duration? with
  | some t => if m.backend.capabilities.timeout then .ok (some t) else .error .timeoutsMissing
  | none => .ok (if m.backend.capabilities.timeout then m.config.defaultTimeout else none)

/-- The holder of a new transaction, with its first scope. -/
def newHolder (m : Manager σ ρ ς) (d : Definition) (resource : ρ) (timeout : Option Duration)
    (now : Instant) : Holder ρ :=
  let holder : Holder ρ :=
    { kind := m.backend.kind, resource, isolation := d.isolation, readOnly := d.readOnly }
  (timeout.elim holder (holder.setTimeout now)).setSynchronized true |>.requested

/-- Begins a native transaction and binds its holder. -/
def begin (m : Manager σ ρ ς) (c : ContextIndex) (d : Definition) :
    Attempt σ ρ ς TransactionError HolderId := do
  if d.isolation ≠ .unspecified ∧ !m.backend.capabilities.isolation then
    throw (.isolationMissing d.isolation)
  let timeout ← liftExcept (m.timeoutOf d)
  let resource ← (call (m.backend.start d)).adapt
    (.creationFailed "could not begin native transaction")
  let h ← modifyGet fun s => s.addHolder (m.newHolder d resource timeout s.now)
  match ← observe (bind c m.backend.key h) with
  | .ok () => pure h
  | .error e =>
    let _ ← observe (call (m.backend.cleanup resource))
    throw (.registry e)
where
  liftExcept {α : Type} : Except TransactionError α → Attempt σ ρ ς TransactionError α
    | .ok a => pure a
    | .error e => throw e

/-- Begins a transaction for a scope that suspended another one. If that fails, the suspended
transaction is resumed, and the error is that of resuming if resuming fails too. -/
def startTransaction (m : Manager σ ρ ς) (c : ContextIndex) (d : Definition)
    (suspended : Option HolderId) : Attempt σ ρ ς TransactionError StatusId := do
  match ← observe (m.begin c d) with
  | .ok h => opened { definition := d, holder := some h, newTransaction := true, suspended }
  | .error e =>
    match suspended with
    | none => throw e
    | some h =>
      m.resume c h
      throw e

/-- Whether a scope may join a holder's transaction. -/
def validateExisting (d : Definition) (h : Holder ρ) : Except TransactionError Unit :=
  if d.isolation ≠ .unspecified ∧ d.isolation ≠ h.isolation then
    .error (.incompatibleIsolation d h.isolation)
  else if !d.readOnly && h.readOnly then .error (.writeInReadOnly d)
  else .ok ()

/-- Opens a scope that joins a holder's transaction, with its savepoint if it has one. -/
def participate (d : Definition) (h : HolderId) (savepoint : Option ς) :
    Attempt σ ρ ς TransactionError StatusId := do
  modify fun s => s.modifyHolder h Holder.requested
  opened { definition := d, holder := some h, savepoint }

/-- Opens a scope in a context with an active transaction. -/
def enterExisting (m : Manager σ ρ ς) (c : ContextIndex) (d : Definition) (h : HolderId) :
    Attempt σ ρ ς TransactionError StatusId :=
  match d.propagation with
  | .never => throw .existingTransaction
  | .notSupported => do
    m.suspend c h
    opened { definition := d, suspended := some h }
  | .requiresNew => do
    m.suspend c h
    m.startTransaction c d (some h)
  | .nested => do
    if !m.config.nestedTransactionAllowed then throw .nestingNotAllowed
    if !m.backend.capabilities.savepoints then throw .savepointsMissing
    let savepoint ← callOn h m.backend.createSavepoint
      (.creationFailed "could not create savepoint for nested transaction")
    participate d h savepoint
  | .required | .supports | .mandatory => do
    if m.config.validateExistingTransaction then
      match ((← get).holder? h).map (validateExisting d) with
      | some (.error e) => throw e
      | _ => pure ()
    participate d h none

/-- Opens a scope: joins, suspends, nests in or begins a transaction. -/
def getTransaction (m : Manager σ ρ ς) (c : ContextIndex) (d : Definition) :
    Attempt σ ρ ς TransactionError StatusId := do
  match ← m.currentHolder c with
  | some h => m.enterExisting c d h
  | none =>
    match d.propagation with
    | .mandatory => throw .noExistingTransaction
    | .required | .requiresNew | .nested => m.startTransaction c d none
    | .supports | .notSupported | .never => opened { definition := d }

/-! ## Completing scopes -/

/-- A native operation on the transaction of a scope; without a transaction there is nothing to
do. -/
def complete (st : Status ς) (op : ρ → Native σ Unit) (text : String) :
    Session.Step σ ρ ς (Except TransactionError Unit) :=
  match st.holder with
  | none => pure (.ok ())
  | some h => do
    let r ← (callOn h op (.systemFailed text)).run
    pure (r.map fun _ => ())

/-- Commits the native transaction of its owner. If that fails, the transaction may be rolled
back instead; the error is still that of the commit. -/
def commitNative (m : Manager σ ρ ς) (st : Status ς) :
    Session.Step σ ρ ς (TransactionState × Except TransactionError Unit) := do
  match ← complete st m.backend.commit "could not commit native transaction" with
  | .ok () => pure (.committed, .ok ())
  | .error e =>
    if m.config.rollbackOnCommitFailure then
      match ← complete st m.backend.rollback "could not roll back native transaction" with
      | .ok () => pure (.rolledBack, .error e)
      | .error _ => pure (.unknown, .error e)
    else pure (.unknown, .error e)

/-- Undoes the work since a savepoint, takes back the marks that were for that work, and gives the
savepoint back. -/
def rollbackToSavepoint (m : Manager σ ρ ς) (st : Status ς) (savepoint : ς) :
    Session.Step σ ρ ς (Except TransactionError Unit) := do
  match ← complete st (m.backend.rollbackToSavepoint · savepoint)
      "could not roll back to savepoint" with
  | .error e => pure (.error e)
  | .ok () =>
    match st.holder with
    | none => pure ()
    | some h => modify fun s => s.modifyHolder h Holder.resetRollbackOnly
    complete st (m.backend.releaseSavepoint · savepoint) "could not release savepoint"

/-- Unbinds the holder of a completed transaction, if it is still the bound one. -/
def unbindCompleted (m : Manager σ ρ ς) (c : ContextIndex) (h : HolderId) :
    Attempt σ ρ ς TransactionError Unit := do
  match ← m.currentHolder c with
  | none => pure ()
  | some bound =>
    if bound = h then
      let _ ← (unbind c m.backend.kind m.backend.key).adapt .registry
    else pure ()

/-- Releases the holder of a completed transaction and its resource. -/
def releaseTransaction (m : Manager σ ρ ς) (c : ContextIndex) (h : HolderId) :
    Session.Step σ ρ ς (Except TransactionError Unit) := do
  let unbound ← (m.unbindCompleted c h).run
  modify fun s => s.modifyHolder h fun holder => holder.released.clear
  let cleaned ← (callOn h m.backend.cleanup
    (.systemFailed "could not clean up native resource after transaction")).run
  pure (firstError unbound (cleaned.map fun _ => ()))

/-- Releases what a scope acquired: the owner its transaction, a participant its reference. -/
def releaseScope (m : Manager σ ρ ς) (c : ContextIndex) (st : Status ς) :
    Session.Step σ ρ ς (Except TransactionError Unit) :=
  match st.holder with
  | none => pure (.ok ())
  | some h =>
    if st.newTransaction then m.releaseTransaction c h
    else do
      modify fun s => s.modifyHolder h Holder.released
      pure (.ok ())

/-- Resumes what a scope suspended. -/
def resumeSuspended (m : Manager σ ρ ς) (c : ContextIndex) (t : StatusId) (st : Status ς) :
    Session.Step σ ρ ς (Except TransactionError Unit) :=
  match st.suspended with
  | none => pure (.ok ())
  | some h => do
    modify fun s => s.modifyStatus t fun st => { st with suspended := none }
    (m.resume c h).run

/-- Releases what a scope acquired and resumes what it suspended. -/
def cleanupAfterCompletion (m : Manager σ ρ ς) (c : ContextIndex) (t : StatusId)
    (st : Status ς) : Session.Step σ ρ ς (Except TransactionError Unit) := do
  let released ← m.releaseScope c st
  let resumed ← m.resumeSuspended c t st
  pure (firstError released resumed)

/-- Records how a scope ended, and cleans up. -/
def finish (m : Manager σ ρ ς) (c : ContextIndex) (t : StatusId) (st : Status ς)
    (state : TransactionState) (outcome : Except TransactionError Unit) :
    Session.Step σ ρ ς (Except TransactionError Unit) := do
  modify fun s => s.modifyStatus t fun st =>
    { st with completion := some state, savepoint := none }
  let cleaned ← m.cleanupAfterCompletion c t st
  pure (firstError outcome cleaned)

/-- What a commit does with the work of a scope: a nested one gives its savepoint back, and the
owner commits. -/
def commitWork (m : Manager σ ρ ς) (st : Status ς) :
    Session.Step σ ρ ς (TransactionState × Except TransactionError Unit) :=
  match st.savepoint with
  | some savepoint => do
    let r ← complete st (m.backend.releaseSavepoint · savepoint) "could not release savepoint"
    pure (if r.isOk then .committed else .unknown, r)
  | none =>
    if st.newTransaction then m.commitNative st
    else pure (.committed, .ok ())

/-- Ends a scope with its work kept. -/
def processCommit (m : Manager σ ρ ς) (c : ContextIndex) (t : StatusId) (st : Status ς) :
    Session.Step σ ρ ς (Except TransactionError Unit) := do
  let (state, outcome) ← m.commitWork st
  m.finish c t st state outcome

/-- What a rollback does to the work of a scope: a nested one returns to its savepoint, the owner
rolls back, and a participant marks the transaction rollback-only. -/
def rollbackWork (m : Manager σ ρ ς) (st : Status ς) :
    Session.Step σ ρ ς (Except TransactionError Unit) := do
  match st.savepoint with
  | some savepoint => m.rollbackToSavepoint st savepoint
  | none =>
    if st.newTransaction then
      complete st m.backend.rollback "could not roll back native transaction"
    else
      match st.holder with
      | none => pure (.ok ())
      | some h =>
        if st.rollbackOnly || m.config.globalRollbackOnParticipationFailure then
          modify fun s => s.modifyHolder h Holder.setRollbackOnly
        pure (.ok ())

/-- Ends a scope with a rollback. `unexpected` says that a commit was asked for; a participant
leaves it to the owner to say so, unless failing early is configured. -/
def processRollback (m : Manager σ ρ ς) (c : ContextIndex) (t : StatusId) (st : Status ς)
    (unexpected : Bool) : Session.Step σ ρ ς (Except TransactionError Unit) := do
  let isParticipant := st.savepoint.isNone && !st.newTransaction
  let outcome ← m.rollbackWork st
  let result ← m.finish c t st (if outcome.isOk then .rolledBack else .unknown) outcome
  match result with
  | .error e => pure (.error e)
  | .ok () =>
    if unexpected && (!isParticipant || m.config.failEarlyOnGlobalRollbackOnly) &&
        m.config.failOnUnexpectedRollback then
      pure (.error .markedRollbackOnly)
    else pure (.ok ())

/-- The status of a scope that is not completed yet. One that was never handed out counts as
completed. -/
def openStatus (t : StatusId) : Attempt σ ρ ς TransactionError (Status ς) := do
  match (← get).status? t with
  | none => throw .alreadyCompleted
  | some st => if st.isCompleted then throw .alreadyCompleted else pure st

/-- Completes a scope, with a rollback if one was asked for in the meantime. -/
def commit (m : Manager σ ρ ς) (c : ContextIndex) (t : StatusId) :
    Attempt σ ρ ς TransactionError Unit := do
  let st ← openStatus t
  if st.rollbackOnly then m.processRollback c t st false
  else if (← get).isGlobalRollbackOnly st then m.processRollback c t st true
  else m.processCommit c t st

/-- Completes a scope with a rollback. -/
def rollback (m : Manager σ ρ ς) (c : ContextIndex) (t : StatusId) :
    Attempt σ ρ ς TransactionError Unit := do
  let st ← openStatus t
  m.processRollback c t st false

/-- The text of a manager. -/
def inspect (m : Manager σ ρ ς) : String :=
  Text.record "TransactionManager" [("resource_key", m.backend.key.inspect),
    ("capabilities", m.backend.capabilities.inspect), ("config", m.config.inspect)]

end Manager

end Demarcation
