/-
The native operations that a transaction system offers, and how often each was called.
-/
import Demarcation.Json.Printer
import Demarcation.Json.Reader
import Demarcation.Text.Record

namespace Demarcation

/-- A native operation of a transaction system. -/
inductive Primitive
  | begin
  | suspend
  | resume
  | commit
  | rollback
  | cleanup
  | createSavepoint
  | rollbackToSavepoint
  | releaseSavepoint
deriving DecidableEq, Repr, Inhabited

namespace Primitive

/-- All of them, in their order. -/
def all : List Primitive :=
  [begin, suspend, resume, commit, rollback, cleanup, createSavepoint, rollbackToSavepoint,
    releaseSavepoint]

def text : Primitive → String
  | begin => "begin"
  | suspend => "suspend"
  | resume => "resume"
  | commit => "commit"
  | rollback => "rollback"
  | cleanup => "cleanup"
  | createSavepoint => "create_savepoint"
  | rollbackToSavepoint => "rollback_to_savepoint"
  | releaseSavepoint => "release_savepoint"

def named? (s : String) : Option Primitive := all.find? fun p => p.text == s

def toJson (p : Primitive) : Json := .ofString p.text

def ofJson? (j : Json) : Option Primitive := j.plainChoice? named?

end Primitive

/-- The primitives called so far, the last one first. -/
structure CallCounts where
  calls : List Primitive := []
deriving DecidableEq, Repr, Inhabited

namespace CallCounts

/-- One more call of `p`. -/
def record (c : CallCounts) (p : Primitive) : CallCounts := ⟨p :: c.calls⟩

/-- How often a primitive was called. -/
def count (c : CallCounts) (p : Primitive) : Nat := c.calls.count p

/-- The primitives that were called, in their order, each with its count. -/
def called (c : CallCounts) : List (Primitive × Nat) :=
  (Primitive.all.map fun p => (p, c.count p)).filter fun (_, n) => 0 < n

def text (c : CallCounts) : String :=
  Text.mapping (c.called.map fun (p, n) => ("\"" ++ p.text ++ "\"", toString n))

end CallCounts

/-- A table from some primitives to numbers, in the order of the primitives. -/
abbrev PrimitiveTable := List (Primitive × UInt64)

namespace PrimitiveTable

def toJson (t : PrimitiveTable) : Json :=
  .ofMembers (t.map fun (p, n) => (p.text, .ofNat n.toNat))

/-- The last number that some pairs give to a primitive. -/
def last? (pairs : List (Primitive × UInt64)) (p : Primitive) : Option UInt64 :=
  (pairs.reverse.find? fun q => q.1 == p).map Prod.snd

/-- A table from an object; of a repeated name the last number counts. -/
def ofJson? : Json → Option PrimitiveTable
  | .object members => do
    let pairs ← members.mapM fun (k, j) => do pure ((← Primitive.named? (← k)), (← j.word?))
    pure (Primitive.all.filterMap fun p => (last? pairs p).map fun n => (p, n))
  | _ => none

end PrimitiveTable

end Demarcation
