/-
Scripts of nested calls in one context, each behind a single transactional step over a journal.
-/
import Demarcation.Attribute.NameMatch
import Demarcation.Interceptor.Transaction
import Demarcation.Script.Basic

namespace Demarcation.Script

/-- A call whose operation makes inner calls in order and then fails or succeeds. The failure of
an inner call ends it, unless that inner call recovers. -/
inductive CallTree
  | node (name : String) (inner : List CallTree) (failure : Option Failure) (recovers : Bool)

namespace CallTree

instance : Inhabited CallTree := ⟨node "" [] none false⟩

/-- The failure of the call does not end the one around it. -/
def recovers : CallTree → Bool
  | node _ _ _ r => r

end CallTree

structure InterceptionRow where
  answer : Outcome Unit
  /-- The calls written down during the step. -/
  calls : List String
  /-- How many bindings the context has after the step. -/
  bound : Nat

namespace Interception

variable (chain : Chain SystemsSession Unit)

/-- How an operation ends by itself. -/
def ending : Option Failure → Outcome Unit
  | some f => .error f
  | none => .ok ()

mutual

/-- Makes a call. -/
def runCall : CallTree → SystemsSession → Outcome Unit × SystemsSession
  | .node name inner failure _, s =>
    let target : Target SystemsSession Unit := fun i =>
      let (r, s) := runInner inner i.scope.world
      (r.bind fun _ => ending failure, { i.scope with world := s })
    let (r, scope) := chain.execute { operation := ⟨name, []⟩ } target ⟨[], s⟩
    (r, scope.world)

/-- Makes inner calls, up to the first failure that ends them. -/
def runInner : List CallTree → SystemsSession → Outcome Unit × SystemsSession
  | [], s => (.ok (), s)
  | c :: cs, s =>
    match runCall c s with
    | (.error f, s) => if c.recovers then runInner cs s else (.error f, s)
    | (.ok (), s) => runInner cs s

end

/-- The rows of all calls. -/
def runAll : List CallTree → SystemsSession → List InterceptionRow
  | [], _ => []
  | c :: cs, s =>
    let before := (s.native.journal 0).calls.length
    let (answer, s) := runCall chain c s
    ⟨answer, (s.native.journal 0).calls.drop before, (s.registry 0).size⟩ :: runAll cs s

end Interception

/-- The calls of a script, behind a transactional step of a manager over a journal, some of whose
calls fail. -/
def runInterception (key : ResourceKey) (capabilities : Capabilities) (config : ManagerConfig)
    (failures : List (Primitive × Nat)) (source : AttributeSource) (calls : List CallTree) :
    List InterceptionRow :=
  let journal := failures.foldl (fun j (p, times) => j.setFailures p times) default
  let systems : Systems := { journals := #[journal] }
  let m : SystemsManager :=
    ⟨(Systems.Part.fullJournal 0 key capabilities).backend systems, config⟩
  Interception.runAll [.transactional .whole m source] calls (.ofContexts 1 systems)

end Demarcation.Script
