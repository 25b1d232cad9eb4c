/-
Everything that scopes share: the registries of the contexts, the holders and statuses made so
far, the native state of the backends, and the reading of the clock. Holders and statuses are
named by their place in the order of their making, so that several registries, statuses and
suspended transactions can mean the same holder.
-/
import Demarcation.Backend
import Demarcation.Holder
import Demarcation.Status

namespace Demarcation

structure Session (σ ρ ς : Type) where
  registries : Array (Registry HolderId)
  holders : Array (Holder ρ) := #[]
  statuses : Array (Status ς) := #[]
  native : σ
  now : Instant := 0

namespace Session

variable {σ ρ ς α : Type}

/-- A session of contexts numbered from one on. -/
def ofContexts (count : Nat) (native : σ) : Session σ ρ ς :=
  { registries := (Array.range count).map fun i => { context := ⟨(i + 1).toUInt64⟩ }, native }

/-! ## Contexts -/

def registry (s : Session σ ρ ς) (c : ContextIndex) : Registry HolderId := s.registries.getD c default

def setRegistry (s : Session σ ρ ς) (c : ContextIndex) (r : Registry HolderId) : Session σ ρ ς :=
  { s with registries := s.registries.setIfInBounds c r }

/-! ## Holders -/

def holder? (s : Session σ ρ ς) (h : HolderId) : Option (Holder ρ) := s.holders[h]?

def modifyHolder (s : Session σ ρ ς) (h : HolderId) (f : Holder ρ → Holder ρ) : Session σ ρ ς :=
  { s with holders := s.holders.modify h f }

/-- Adds a holder. -/
def addHolder (s : Session σ ρ ς) (h : Holder ρ) : HolderId × Session σ ρ ς :=
  (s.holders.size, { s with holders := s.holders.push h })

/-- What the registries see of the holders. -/
def view (s : Session σ ρ ς) : HolderView HolderId where
  isVoid h := (s.holder? h).elim true Holder.cleared
  kind h := (s.holder? h).elim default Holder.kind

/-! ## Statuses -/

def status? (s : Session σ ρ ς) (t : StatusId) : Option (Status ς) := s.statuses[t]?

def modifyStatus (s : Session σ ρ ς) (t : StatusId) (f : Status ς → Status ς) : Session σ ρ ς :=
  { s with statuses := s.statuses.modify t f }

/-- Adds a status. -/
def addStatus (s : Session σ ρ ς) (t : Status ς) : StatusId × Session σ ρ ς :=
  (s.statuses.size, { s with statuses := s.statuses.push t })

/-- Nobody holds the status any more. -/
def forget (s : Session σ ρ ς) (t : StatusId) : Session σ ρ ς :=
  s.modifyStatus t fun st => { st with held := false }

/-- Requests that the scope ends in a rollback. -/
def setRollbackOnly (s : Session σ ρ ς) (t : StatusId) : Session σ ρ ς :=
  s.modifyStatus t fun st => { st with rollbackOnly := true }

/-- The holder of a status's transaction. -/
def statusHolder? (s : Session σ ρ ς) (st : Status ς) : Option (Holder ρ) :=
  st.holder.bind s.holder?

/-- The whole transaction was marked rollback-only. -/
def isGlobalRollbackOnly (s : Session σ ρ ς) (st : Status ς) : Bool :=
  (s.statusHolder? st).elim false Holder.rollbackOnly

def isRollbackOnly (s : Session σ ρ ς) (st : Status ς) : Bool :=
  st.rollbackOnly || s.isGlobalRollbackOnly st

/-- Where the scope's transaction is. -/
def state (s : Session σ ρ ς) (st : Status ς) : TransactionState :=
  match st.completion, s.statusHolder? st with
  | some ended, _ => ended
  | none, some h => if h.suspended then .suspended else .active
  | none, none => .noTransaction

/-- The text of a status, given that of its savepoint. -/
def inspectStatus (s : Session σ ρ ς) (savepoint : ς → String) (st : Status ς) : String :=
  Text.record "TransactionStatus"
    [("definition", Text.quoted st.definition.text), ("state", (s.state st).text),
      ("new_transaction", Text.truth st.newTransaction),
      ("savepoint", Text.optional (st.savepoint.map savepoint)),
      ("suspended", Text.truth st.suspended.isSome),
      ("rollback_only", Text.truth st.rollbackOnly)]

/-! ## References -/

/-- Whether anything still refers to a holder: a binding, or a status that is still held, by its
own transaction or by the one it suspended. -/
def isReferenced (s : Session σ ρ ς) (h : HolderId) : Bool :=
  s.registries.any (fun r => r.bindings.any fun b => b.2 == h) ||
    s.statuses.any fun st => st.held && (st.holder == some h || st.suspended == some h)

/-! ## Operations on a session -/

/-- An operation on a session that always ends. -/
abbrev Step (σ ρ ς α : Type) := StateM (Session σ ρ ς) α

/-- An operation on a session that may fail; what it changed before stays changed. -/
abbrev Attempt (σ ρ ς ε α : Type) := ExceptT ε (StateM (Session σ ρ ς)) α

/-- Runs an operation and answers its result, an error included. -/
def observe {ε δ : Type} (x : Attempt σ ρ ς ε α) : Attempt σ ρ ς δ (Except ε α) := fun s =>
  let (r, s) := x s
  (.ok r, s)

/-- Calls a native operation. -/
def call (op : Native σ α) : Attempt σ ρ ς Failure α := fun s =>
  let (r, native) := op s.native
  (r, { s with native })

/-- Looks up the holder bound under a key in a context. -/
def find (c : ContextIndex) (expected : HolderKind) (key : ResourceKey) :
    Attempt σ ρ ς RegistryError (Option HolderId) := fun s =>
  let (r, registry) := (s.registry c).get s.view expected key
  (r, s.setRegistry c registry)

/-- Binds a holder in a context. -/
def bind (c : ContextIndex) (key : ResourceKey) (h : HolderId) :
    Attempt σ ρ ς RegistryError Unit := fun s =>
  match (s.registry c).bind s.view key h with
  | .ok registry => (.ok (), s.setRegistry c registry)
  | .error e => (.error e, s)

/-- Removes the binding of a key in a context. -/
def unbind (c : ContextIndex) (expected : HolderKind) (key : ResourceKey) :
    Attempt σ ρ ς RegistryError HolderId := fun s =>
  let (r, registry) := (s.registry c).unbind s.view expected key
  (r, s.setRegistry c registry)

/-- The text of a context and its registry. -/
def inspectContext (s : Session σ ρ ς) (c : ContextIndex) : String :=
  let r := s.registry c
  Text.record "ExecutionContext" [("id", r.context.inspect), ("resources", r.inspect)]

end Session

end Demarcation
