/-
Backends without data: they hand out numbered resources, write down every call, and fail calls as
told. One kind has all operations and numbered savepoints, the other only those that every backend
must have.
-/
import Demarcation.Backend
import Demarcation.Definition.Text

namespace Demarcation

structure Journal where
  /-- The resources handed out so far. -/
  resources : Nat := 0
  /-- The savepoints taken so far. -/
  savepoints : Nat := 0
  /-- How many of the next calls of a primitive fail. -/
  failures : List (Primitive × Nat) := []
  /-- The calls, in order. -/
  calls : List String := []
deriving Repr, Inhabited

namespace Journal

def write (j : Journal) (line : String) : Journal := { j with calls := j.calls ++ [line] }

def failuresOf (j : Journal) (p : Primitive) : Nat :=
  ((j.failures.find? fun q => q.1 == p).map Prod.snd).getD 0

/-- From now on the next `times` calls of a primitive fail. -/
def setFailures (j : Journal) (p : Primitive) (times : Nat) : Journal :=
  { j with failures := (p, times) :: j.failures.filter fun q => q.1 != p }

/-- Writes down a call, which fails if it was told to. -/
def call (p : Primitive) (line : String) : Native Journal Unit := fun j =>
  let j := j.write line
  match j.failuresOf p with
  | 0 => (.ok (), j)
  | n + 1 => (.error (.native p), j.setFailures p n)

/-- The line of a call on a resource. -/
def line (p : Primitive) (resource : String) : String := p.text ++ ":" ++ resource

/-- Begins a transaction on the next resource; a call that fails uses its number up. -/
def start (text : Nat → String) (d : Definition) (withDefinition : Bool) : Native Journal Nat :=
  fun j =>
    let n := j.resources + 1
    let j := { j with resources := n }
    let line := line .begin (text n)
    let line := if withDefinition then line ++ ":" ++ d.text ++ ":" ++ d.name.getD "-" else line
    let (r, j) := call .begin line j
    (r.map fun _ => n, j)

/-- The savepoints are numbered from this number on. -/
def firstSavepoint : Nat := 101

/-- Takes the next savepoint; a call that fails uses no number up. -/
def createSavepoint (n : Nat) : Native Journal Nat := fun j =>
  match call .createSavepoint (line .createSavepoint (toString n)) j with
  | (.error f, j) => (.error f, j)
  | (.ok (), j) => (.ok (firstSavepoint + j.savepoints), { j with savepoints := j.savepoints + 1 })

/-- The backend with all operations. -/
def fullBackend (key : ResourceKey) (capabilities : Capabilities) : Backend Journal Nat Nat where
  key := key
  kind := .holderOf "number"
  capabilities := capabilities
  start d := start toString d true
  suspend n := call .suspend (line .suspend (toString n))
  resume n := call .resume (line .resume (toString n))
  commit n := call .commit (line .commit (toString n))
  rollback n := call .rollback (line .rollback (toString n))
  cleanup n := call .cleanup (line .cleanup (toString n))
  createSavepoint n := createSavepoint n
  rollbackToSavepoint n sp :=
    call .rollbackToSavepoint (line .rollbackToSavepoint (toString n) ++ ":" ++ toString sp)
  releaseSavepoint n sp :=
    call .releaseSavepoint (line .releaseSavepoint (toString n) ++ ":" ++ toString sp)

/-- The text of a resource of the small backend. -/
def label (n : Nat) : String := "r" ++ toString n

/-- The backend with only the operations that every backend must have. -/
def smallBackend (key : ResourceKey) (capabilities : Capabilities) : Backend Journal Nat Unit where
  key := key
  kind := .holderOf "label"
  capabilities := capabilities
  start d := start label d false
  commit n := call .commit (line .commit (label n))
  rollback n := call .rollback (line .rollback (label n))
  cleanup n := call .cleanup (line .cleanup (label n))

end Journal

end Demarcation
