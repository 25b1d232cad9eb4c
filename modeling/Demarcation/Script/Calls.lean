/-
Running scripts of calls.
-/
import Demarcation.Script.Calls.Chains
import Demarcation.Template

namespace Demarcation.Script

/-- The chains and managers of a script. -/
structure CallsSetup where
  chains : List (String × CallsChain)
  managers : Array SystemsManager

/-- What runs a body: the context, the call, and, directly in a template's body, its scope. -/
structure Surroundings where
  context : ContextIndex
  call : Option Snapshot := none
  status : Option StatusId := none

abbrev CallsStep (α : Type) := ScriptStep CallsWorld α

structure CallsRow where
  answer : Outcome CallAnswer
  log : List LogEntry
  /-- How many bindings the action's context has after it. -/
  bound : Nat
  /-- The stores after the action. -/
  stores : List StoreSummary

namespace CallsSetup

/-- Changes the session. -/
def change (f : SystemsSession → SystemsSession) : CallsStep CallAnswer := do
  modifySession CallsWorld.sessionSlot f
  pure (.plain .nothing)

/-- Looks at the world. -/
def look (f : CallsWorld → CallAnswer) : CallsStep CallAnswer := fun w => (.ok (f w), w)

/-- What a template's body sees of its scope. -/
def scopeSummary (s : SystemsSession) (st : Status AnySavepoint) : ScopeSummary :=
  { newTransaction := st.newTransaction
    hasTransaction := st.holder.isSome
    hasSavepoint := st.savepoint.isSome
    hasSuspended := st.suspended.isSome
    rollbackOnly := s.isRollbackOnly st
    globalRollbackOnly := s.isGlobalRollbackOnly st
    state := s.state st
    name := st.definition.name }

def currentSummary? (h : Holder Resource) : Option CurrentSummary :=
  match h.resource with
  | .connection _ c =>
    some ⟨c.number, h.rollbackOnly, h.synchronized, h.references, h.readOnly, h.isolation⟩
  | _ => none

/-- The holder of a manager's transaction in a context. -/
def currentHolder (setup : CallsSetup) (manager : Nat) (c : ContextIndex) :
    CallsStep (Option HolderId) :=
  match setup.managers[manager]? with
  | some m => onSession CallsWorld.sessionSlot .transaction (m.currentHolder c)
  | none => pure none

/-- What a look answers when there may be nothing to see. -/
def answerOr (a : Option CallAnswer) : CallAnswer := a.getD (.plain .nothing)

/-- An action without a body. -/
def runPlain (setup : CallsSetup) (around : Surroundings) : Action → CallsStep CallAnswer
  | .raise f => throw f
  | .failFirst counter times f => do
    let n ← modifyGet (CallsWorld.count counter)
    if n ≤ times then throw f
    pure (.plain (.number n))
  | .return v => pure (.result v)
  | .info => pure (answerOr (around.call.map .snapshot))
  | .markRollbackOnly => change fun s => around.status.elim s s.setRollbackOnly
  | .status => look fun w =>
    answerOr ((around.status.bind w.session.status?).map fun st =>
      .scope (scopeSummary w.session st))
  | .current manager => do
    let h ← setup.currentHolder manager around.context
    look fun w => answerOr (((h.bind w.session.holder?).bind currentSummary?).map .current)
  | .doom manager => do
    match ← setup.currentHolder manager around.context with
    | none => pure (.plain .nothing)
    | some h => change fun s => s.modifyHolder h Holder.setRollbackOnly
  | .fault i p times =>
    change ((Systems.site i).modifyStore fun s => { s with faults := s.faults.failNext p times })
  | .store i s => .plain <$> onWholeStore CallsWorld.sessionSlot i s
  | .stats i => look fun w => .stats (.of (w.session.native.store i))
  | .bound i => look fun w =>
    .plain (.truth ((w.session.registry around.context).has w.session.view (Systems.storeKey i)))
  | .data i s => .plain <$> onData CallsWorld.sessionSlot i around.context s
  | .call .. | .template .. | .recover _ => pure (.plain .nothing)

/-- What the operation of a call sees. -/
def snapshot (call : Call) (steps : Nat) (i : Invocation CallsWorld) : Snapshot :=
  { operation := call.operation.name
    arguments := i.scope.arguments
    position := i.position
    receiver := call.receiver
    text := i.inspect call (i.scope.world.session.registry call.context).context steps }

mutual

/-- Runs an action. -/
def runAction (setup : CallsSetup) (around : Surroundings) : Action → CallsStep CallAnswer
  | .call chain operation arguments receiver body => fun w =>
    let steps := ((setup.chains.find? fun c => c.1 == chain).map Prod.snd).getD []
    let call : Call := { operation, receiver, context := around.context }
    let target : Target CallsWorld Value := fun i =>
      let inside : Surroundings :=
        { context := around.context, call := some (snapshot call steps.length i) }
      let (r, w) := runBody setup inside body i.scope.world.closeAbandoned
      (r, { i.scope with world := w })
    let (r, scope) := steps.execute call target ⟨arguments, w⟩
    (r.map .result, scope.world)
  | .template manager d body => fun w =>
    match setup.managers[manager]? with
    | none => (.ok (.plain .nothing), w)
    | some m =>
      let work (t : StatusId) : CallsStep Value := fun w =>
        runBody setup { around with status := some t } body w.closeAbandoned
      let (r, w) := (Template.mk m d).execute CallsWorld.sessionSlot around.context work
        (w.write (.entered d.text))
      (r.map .result, w)
  | .recover a => runAction setup around a
  | a => runPlain setup around a

/-- Runs a body up to the value or the failure that ends it. -/
def runBody (setup : CallsSetup) (around : Surroundings) : List Action → CallsStep Value
  | [] => pure .null
  | a :: rest => fun w =>
    match a.returned? with
    | some v => (.ok v, w)
    | none =>
      let (r, w) := runAction setup around a w
      let w := w.closeAbandoned
      match r with
      | .error f =>
        if a.recovers then runBody setup around rest (w.write (.caught f)) else (.error f, w)
      | .ok answer =>
        runBody setup around rest
          (if answer.isLogged then w.write (.did a.name answer) else w)

end

/-! ## Whole scripts -/

/-- Runs an action of the script itself. -/
def runTop (setup : CallsSetup) (c : ContextIndex) (a : Action) (w : CallsWorld) :
    CallsRow × CallsWorld :=
  let (answer, w) := runAction setup { context := c } a { w with log := [] }
  let w := w.closeAbandoned
  ({ answer
     log := w.log.reverse
     bound := (w.session.registry c).size
     stores := w.session.native.stores.toList.map .of }, w)

/-- The rows of all actions, and the committed entries of all stores at the end. -/
def runAll (setup : CallsSetup) :
    List (ContextIndex × Action) → CallsWorld → List CallsRow × List Entries
  | [], w => ([], allEntries w.session.native)
  | (c, a) :: rest, w =>
    let (row, w) := runTop setup c a w
    let (rows, entries) := runAll setup rest w
    (row :: rows, entries)

/-- The managers and chains of a script, and the world at its start. -/
def build (contexts : Nat) (systems : Systems) (managers : List (Nat × ManagerConfig))
    (chains : List (String × List StepKind)) : Except Failure (CallsSetup × CallsWorld) := do
  let managers := (managers.map fun (store, config) =>
    (⟨(Systems.Part.store store).backend systems, config⟩ : SystemsManager)).toArray
  let (chains, resolutions) ← buildChains managers chains #[]
  pure (⟨chains, managers⟩, { session := .ofContexts contexts systems, resolutions })

end CallsSetup

end Demarcation.Script
