/-
Scripts on registries whose holders can be voided and revived.
-/
import Demarcation.Registry

namespace Demarcation.Script

/-- A holder in a registry script: it is the same object wherever its kind and number are. -/
structure HolderRef where
  kind : HolderKind
  id : UInt64
deriving DecidableEq, Repr

inductive RegistryAction
  | bind
  | get
  | unbind
  | unbindIfPossible
  | setVoid (on : Bool)
  | clear
  | has
deriving DecidableEq, Repr

structure RegistryStep where
  action : RegistryAction
  key : ResourceKey
  holder : HolderRef
  /-- Which registry the step is on. -/
  registry : Nat
deriving DecidableEq, Repr

/-- What a step answers. -/
inductive RegistryAnswer
  | holder (r : Except RegistryError (Option HolderRef))
  | count (n : Nat)
  | truth (b : Bool)
  | nothing

structure RegistryRow where
  answer : RegistryAnswer
  registry : Registry HolderRef

/-- Registries, and the voided holders. -/
structure RegistryRun where
  registries : Array (Registry HolderRef)
  voided : List HolderRef := []

namespace RegistryRun

/-- Only holders of this type can turn void. -/
def voidable : HolderKind := .named "Voidable"

/-- This type of holder is never void. -/
def solid : HolderKind := .named "Solid"

def view (run : RegistryRun) : HolderView HolderRef where
  isVoid h := h.kind == voidable && run.voided.contains h
  kind := HolderRef.kind

def step (run : RegistryRun) (s : RegistryStep) : RegistryRow × RegistryRun :=
  let r := run.registries.getD s.registry default
  let row (answer : RegistryAnswer) (r : Registry HolderRef) : RegistryRow × RegistryRun :=
    (⟨answer, r⟩, { run with registries := run.registries.setIfInBounds s.registry r })
  match s.action with
  | .bind =>
    match r.bind run.view s.key s.holder with
    | .ok r => row (.holder (.ok none)) r
    | .error e => row (.holder (.error e)) r
  | .get =>
    let (a, r) := r.get run.view s.holder.kind s.key
    row (.holder a) r
  | .unbind =>
    let (a, r) := r.unbind run.view s.holder.kind s.key
    row (.holder (a.map some)) r
  | .unbindIfPossible =>
    let (a, r) := r.unbindIfPossible run.view s.holder.kind s.key
    row (.holder a) r
  | .setVoid on =>
    let h : HolderRef := ⟨voidable, s.holder.id⟩
    let others := run.voided.filter (· != h)
    (⟨.nothing, r⟩, { run with voided := if on then h :: others else others })
  | .clear =>
    let (n, r) := r.clear
    row (.count n) r
  | .has => row (.truth (r.has run.view s.key)) r

/-- The rows of all steps. -/
def runAll : RegistryRun → List RegistryStep → List RegistryRow
  | _, [] => []
  | run, s :: steps =>
    let (row, run) := run.step s
    row :: runAll run steps

end RegistryRun

end Demarcation.Script
