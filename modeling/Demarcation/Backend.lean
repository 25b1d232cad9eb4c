/-
A backend offers the native operations of one transaction system. It has a state of type `σ`,
hands out resources of type `ρ` (each with one native transaction) and savepoints of type `ς`, and
each operation may fail with the backend's own failure, having changed the state or not.
-/
import Demarcation.Config
import Demarcation.Registry

namespace Demarcation

/-- A native operation on the state `σ`. -/
abbrev Native (σ α : Type) := σ → Except Failure α × σ

namespace Native

variable {σ α : Type}

/-- The operation that does nothing. -/
def done (a : α) : Native σ α := fun s => (.ok a, s)

/-- The operation that only fails. -/
def fail (f : Failure) : Native σ α := fun s => (.error f, s)

end Native

structure Backend (σ ρ ς : Type) where
  /-- The key under which transactions are bound. -/
  key : ResourceKey
  /-- The type of the holders of the backend's resources. -/
  kind : HolderKind
  capabilities : Capabilities
  /-- Acquires a resource and begins a native transaction on it. -/
  start : Definition → Native σ ρ
  /-- The transaction is detached from its context. -/
  suspend : ρ → Native σ Unit := fun _ => .done ()
  /-- The transaction is attached to its context again. -/
  resume : ρ → Native σ Unit := fun _ => .done ()
  commit : ρ → Native σ Unit
  rollback : ρ → Native σ Unit
  /-- Releases the resource after its transaction. -/
  cleanup : ρ → Native σ Unit
  createSavepoint : ρ → Native σ ς := fun _ => .fail .savepointsUnsupported
  rollbackToSavepoint : ρ → ς → Native σ Unit := fun _ _ => .fail .savepointsUnsupported
  releaseSavepoint : ρ → ς → Native σ Unit := fun _ _ => .fail .savepointsUnsupported

/-! ## Backends inside larger states -/

/-- A part of a larger state. -/
structure Slot (τ σ : Type) where
  get : τ → σ
  set : σ → τ → τ

namespace Slot

variable {τ σ υ α : Type}

/-- The whole state as its own part. -/
def whole : Slot σ σ := ⟨id, fun s _ => s⟩

/-- Runs an operation on the part. -/
def run (slot : Slot τ σ) (op : σ → α × σ) (t : τ) : α × τ :=
  let (a, s) := op (slot.get t)
  (a, slot.set s t)

end Slot

/-- One case of a larger type. -/
structure Case (τ σ : Type) where
  wrap : σ → τ
  unwrap : τ → Option σ

/-- The whole type as its own case. -/
def Case.whole {σ : Type} : Case σ σ := ⟨id, some⟩

namespace Backend

variable {σ τ ρ ρ' ς ς' : Type}

/-- An operation on something that is not of the backend's making. -/
def onForeign {α : Type} : Native σ α := .fail (.note "resource of another backend")

/-- The backend on a part of a larger state, with its resources and savepoints as one case each
of larger types. -/
def embed (b : Backend σ ρ ς) (slot : Slot τ σ) (resource : Case ρ' ρ) (savepoint : Case ς' ς) :
    Backend τ ρ' ς' :=
  let on {α : Type} (op : ρ → Native σ α) (r : ρ') : Native τ α :=
    match resource.unwrap r with
    | some r => slot.run (op r)
    | none => onForeign
  let onBoth (op : ρ → ς → Native σ Unit) (r : ρ') (sp : ς') : Native τ Unit :=
    match resource.unwrap r, savepoint.unwrap sp with
    | some r, some sp => slot.run (op r sp)
    | _, _ => onForeign
  { key := b.key
    kind := b.kind
    capabilities := b.capabilities
    start := fun d t =>
      let (r, t) := slot.run (b.start d) t
      (r.map resource.wrap, t)
    suspend := on b.suspend
    resume := on b.resume
    commit := on b.commit
    rollback := on b.rollback
    cleanup := on b.cleanup
    createSavepoint := fun r t =>
      let (sp, t) := on b.createSavepoint r t
      (sp.map savepoint.wrap, t)
    rollbackToSavepoint := onBoth b.rollbackToSavepoint
    releaseSavepoint := onBoth b.releaseSavepoint }

end Backend

end Demarcation
