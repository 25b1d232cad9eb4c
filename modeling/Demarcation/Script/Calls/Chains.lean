/-
Building the chains of a script from descriptions of their interceptors.
-/
import Demarcation.Attribute
import Demarcation.Interceptor.Basic
import Demarcation.Interceptor.Transaction
import Demarcation.Interceptor.Translation
import Demarcation.Script.Calls.Basic

namespace Demarcation.Script

/-- A description of an interceptor. -/
inductive StepKind
  | trace
  | unnamed
  | translation (translator : Option Translator) (source : Option TranslatorRegistry)
      (always : Bool)
  | transaction (manager : Nat) (source : AttributeSource)
  /-- Logs where the call is, before and after proceeding. -/
  | record (name : String)
  | retry (name : String) (times : Nat) (always : Bool)
  /-- Answers a value without proceeding. -/
  | short (name : String) (v : Value)
  | raise (name : String) (f : Failure)
  | raiseAfter (name : String) (f : Failure)
  | suppress (name : String) (v : Value)
  /-- Doubles the whole numbers among the arguments. -/
  | double (name : String)
  /-- Adds an argument. -/
  | push (name : String) (v : Value)
  /-- Pairs the result with the name. -/
  | wrap (name : String)

abbrev CallsChain := Chain CallsWorld Value

/-! ## Interceptors -/

/-- Where a call is. -/
def place (call : Call) : Advice CallsWorld Value Place := do
  let position ← .askPosition
  let scope ← .readScope
  pure ⟨call.operation.name, position, (scope.world.session.registry call.context).size⟩

def log (e : LogEntry) : Advice CallsWorld Value Unit := .onWorld fun w => ((), w.write e)

def failure? : Outcome Value → Option Failure
  | .ok _ => none
  | .error f => some f

def recording (name : String) : Interceptor CallsWorld Value where
  name := name
  around call := do
    log (.before name (← place call))
    let outcome ← .proceeding
    log (.after name (← place call) (failure? outcome))
    pure outcome

def doubled : Value → Value
  | .int n => .int (n + n)
  | v => v

/-- The name of steps without a name of their own. -/
def unnamed : String := "Unnamed"

/-! ## Building -/

/-- An interceptor, and what the steps so far have detected. -/
def buildStep (managers : Array SystemsManager) (kind : StepKind) (rs : Array Resolution) :
    Except Failure (Interceptor CallsWorld Value × Array Resolution) :=
  match kind with
  | .trace => .ok (.trace, rs)
  | .unnamed => .ok (.transparent unnamed, rs)
  | .translation translator source always => do
    let t ← Translation.build translator source always
    match t.resolution with
    | .fixed tr => pure (.translatingBy t.always tr, rs)
    | .detecting found =>
      pure (.translating t.always (CallsWorld.resolutionSlot rs.size) fun w => (source.getD [], w),
        rs.push (.detecting found))
  | .transaction manager source =>
    match managers[manager]? with
    | some m => .ok (.transactional CallsWorld.sessionSlot m source, rs)
    | none => .ok (.transparent "transaction", rs)
  | .record name => .ok (recording name, rs)
  | .retry name times always => .ok (.retrying name times always, rs)
  | .short name v => .ok (.answering name (.ok v), rs)
  | .raise name f => .ok (.answering name (.error f), rs)
  | .raiseAfter name f => .ok (.failingAfter name f, rs)
  | .suppress name v => .ok (.suppressing name v, rs)
  | .double name => .ok (.adjusting name (List.map doubled), rs)
  | .push name v => .ok (.adjusting name (· ++ [v]), rs)
  | .wrap name => .ok (.mapping name fun v => .list [.text name, v], rs)

def buildChain (managers : Array SystemsManager) :
    List StepKind → Array Resolution → Except Failure (CallsChain × Array Resolution)
  | [], rs => .ok ([], rs)
  | kind :: kinds, rs => do
    let (step, rs) ← buildStep managers kind rs
    let (steps, rs) ← buildChain managers kinds rs
    pure (step :: steps, rs)

def buildChains (managers : Array SystemsManager) :
    List (String × List StepKind) → Array Resolution →
      Except Failure (List (String × CallsChain) × Array Resolution)
  | [], rs => .ok ([], rs)
  | (name, kinds) :: rest, rs => do
    let (chain, rs) ← buildChain managers kinds rs
    let (chains, rs) ← buildChains managers rest rs
    pure ((name, chain) :: chains, rs)

end Demarcation.Script
