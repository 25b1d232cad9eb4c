/-
Scripts exercise a session step by step. This module holds what they have in common: the steps on
data and on stores, what steps answer, labels, and the errors of scripts.
-/
import Demarcation.Systems

namespace Demarcation.Script

/-- What a step or an action answers when it succeeds. -/
inductive Answer
  | nothing
  | value (v : Value)
  | optional (v : Option Value)
  | truth (b : Bool)
  | number (n : Nat)
  | text (s : String)
  | entries (es : Entries)

/-- An operation on the data of a connection. -/
inductive DataStep
  | put (key : String) (value : Value)
  | insert (key : String) (value : Value)
  | update (key : String) (value : Value)
  | delete (key : String)
  | get (key : String)
  | contains (key : String)
  | scan (start : String)
  | pending

namespace DataStep

/-- The name of a step in a log. -/
def name : DataStep → String
  | put _ _ => "put"
  | insert _ _ => "insert"
  | update _ _ => "update"
  | delete _ => "delete"
  | get _ => "get"
  | contains _ => "contains"
  | scan _ => "scan"
  | pending => "pending"

def run (step : DataStep) (c : ConnectionId) (s : Store) :
    Except StorageError (Answer × Store) := do
  match step with
  | put key value => pure (.nothing, ← s.put c key value)
  | insert key value => pure (.nothing, ← s.insert c key value)
  | update key value => pure (.nothing, ← s.update c key value)
  | delete key => pure (.nothing, ← s.delete c key)
  | get key => pure (.optional (← s.get c key), s)
  | contains key => pure (.truth (← s.contains c key), s)
  | scan start => pure (.entries (← s.scan c start), s)
  | pending => pure (.number ((s.connection? c).elim 0 Connection.pending), s)

end DataStep

/-- An operation on a store as a whole. -/
inductive StoreStep
  | busy (on : Bool)
  | fail (p : Primitive) (times : Nat)
  | clearFaults
  | resetStats
  | committed (key : String)
  | count (p : Primitive)
  | statsText

namespace StoreStep

/-- The name of a step in a log. -/
def name : StoreStep → String
  | busy _ => "busy"
  | fail _ _ => "fail"
  | clearFaults => "clear_faults"
  | resetStats => "reset_stats"
  | committed _ => "committed"
  | count _ => "count"
  | statsText => "stats_debug"

def run (step : StoreStep) (s : Store) : Answer × Store :=
  match step with
  | busy on => (.nothing, { s with busy := on })
  | fail p times => (.nothing, { s with faults := s.faults.failNext p times })
  | clearFaults => (.nothing, { s with faults := [] })
  | resetStats => (.nothing, { s with stats := {} })
  | committed key => (.optional (s.entries.value? key), s)
  | count p => (.number (s.stats.count p), s)
  | statsText => (.text s.stats.text, s)

end StoreStep

/-- What can be seen of a store after a step. -/
structure StoreSummary where
  size : Nat
  openConnections : Nat
  called : List (Primitive × Nat)
deriving DecidableEq, Repr

def StoreSummary.of (s : Store) : StoreSummary :=
  ⟨s.entries.length, s.openConnections, s.stats.called⟩

/-- The committed entries of every store. -/
def allEntries (t : Systems) : List Entries := t.stores.toList.map Store.entries

/-! ## Labels -/

/-- Things that steps name by labels. -/
abbrev Labels (α : Type) := List (String × α)

namespace Labels

variable {α : Type}

def find? (ls : Labels α) (label : String) : Option α :=
  (List.find? (fun l => l.1 == label) ls).map Prod.snd

def drop (ls : Labels α) (label : String) : Labels α := ls.filter fun l => l.1 != label

/-- Gives a label to something, in the order of the labels. -/
def put (label : String) (a : α) : Labels α → Labels α
  | [] => [(label, a)]
  | (l, b) :: ls =>
    if label < l then (label, a) :: (l, b) :: ls
    else if l = label then (label, a) :: ls
    else (l, b) :: put label a ls

end Labels

/-! ## Operations on what a script works on -/

/-- An operation of a script with the state `τ`; one that fails keeps what it changed before. -/
abbrev ScriptStep (τ α : Type) := ExceptT Failure (StateM τ) α

variable {τ : Type}

/-- An operation on the session, with its errors among the failures. -/
def onSession {ε α : Type} (session : Slot τ SystemsSession) (word : ε → Failure)
    (x : Session.Attempt Systems Resource AnySavepoint ε α) : ScriptStep τ α := fun t =>
  let (r, t) := session.run x t
  (r.mapError word, t)

/-- Looks at the session. -/
def seeSession (session : Slot τ SystemsSession) : ScriptStep τ SystemsSession :=
  return session.get (← get)

def modifySession (session : Slot τ SystemsSession) (f : SystemsSession → SystemsSession) :
    ScriptStep τ Unit :=
  modify fun t => session.set (f (session.get t)) t

/-- An operation on a store as a whole. -/
def onWholeStore (session : Slot τ SystemsSession) (store : Nat) (step : StoreStep) :
    ScriptStep τ Answer :=
  onSession session id fun s =>
    let site := Systems.site store
    let (a, changed) := step.run (site.store s)
    (.ok a, site.modifyStore (fun _ => changed) s)

/-- An operation on the data of a store, through the connection of a context. -/
def onData (session : Slot τ SystemsSession) (store : Nat) (c : ContextIndex) (step : DataStep) :
    ScriptStep τ Answer :=
  onSession session .storage ((Systems.site store).through c step.run)

/-! ## The errors of scripts -/

def noSuchStatus : Failure := .note "no such status"

def noSuchConnection : Failure := .note "no such connection"

def noSuchSavepoint : Failure := .note "no such savepoint"

end Demarcation.Script
