/-
Several transaction systems in one session: any number of stores and journals, with their
resources and savepoints as cases of common types.
-/
import Demarcation.Journal
import Demarcation.Manager
import Demarcation.Store.Access

namespace Demarcation

/-- The native state of several transaction systems. -/
structure Systems where
  stores : Array Store := #[]
  journals : Array Journal := #[]

/-- A resource of any of the systems. -/
inductive Resource
  | connection (store : Nat) (c : ConnectionId)
  | number (n : Nat)
  | label (n : Nat)
  /-- Of none of the systems. -/
  | other
deriving DecidableEq, Repr

/-- A savepoint of any of the systems. -/
inductive AnySavepoint
  | position (sp : Savepoint)
  | number (n : Nat)
  | trivial
deriving DecidableEq, Repr

def AnySavepoint.inspect : AnySavepoint → String
  | position sp => sp.inspect
  | number n => toString n
  | trivial => "()"

namespace Resource

/-- The connections of one store. -/
def connectionCase (store : Nat) : Case Resource ConnectionId where
  wrap := connection store
  unwrap
    | connection i c => if i = store then some c else none
    | _ => none

def numberCase : Case Resource Nat where
  wrap := number
  unwrap
    | number n => some n
    | _ => none

def labelCase : Case Resource Nat where
  wrap := label
  unwrap
    | label n => some n
    | _ => none

/-- The type of the holders of resources that belong to none of the systems. -/
def otherKind : HolderKind := .holderOf "other"

end Resource

namespace AnySavepoint

def positionCase : Case AnySavepoint Savepoint where
  wrap := position
  unwrap
    | position sp => some sp
    | _ => none

def numberCase : Case AnySavepoint Nat where
  wrap := number
  unwrap
    | number n => some n
    | _ => none

def trivialCase : Case AnySavepoint Unit where
  wrap _ := trivial
  unwrap
    | trivial => some ()
    | _ => none

end AnySavepoint

instance : Inhabited Store := ⟨{ key := default }⟩

/-- A session on several systems. -/
abbrev SystemsSession := Session Systems Resource AnySavepoint

abbrev SystemsManager := Manager Systems Resource AnySavepoint

namespace Systems

/-- The keys of stores follow one another from this one on. -/
def firstStoreKey : Nat := 1001

/-- The key of a store, by its place. -/
def storeKey (i : Nat) : ResourceKey := ⟨(firstStoreKey + i).toUInt64⟩

/-- Stores without entries, by their names and capabilities. -/
def ofStores (stores : List (String × Capabilities)) : Systems :=
  { stores := (stores.zipIdx.map fun ((name, capabilities), i) =>
      ({ name, key := storeKey i, capabilities } : Store)).toArray }

def store (t : Systems) (i : Nat) : Store := t.stores.getD i default

def journal (t : Systems) (i : Nat) : Journal := t.journals.getD i default

def storeSlot (i : Nat) : Slot Systems Store where
  get t := t.store i
  set s t := { t with stores := t.stores.setIfInBounds i s }

def journalSlot (i : Nat) : Slot Systems Journal where
  get t := t.journal i
  set j t := { t with journals := t.journals.setIfInBounds i j }

/-- One of the systems, as a manager sees it. -/
inductive Part
  | store (i : Nat)
  | fullJournal (i : Nat) (key : ResourceKey) (capabilities : Capabilities)
  | smallJournal (i : Nat) (key : ResourceKey) (capabilities : Capabilities)

def Part.backend (t : Systems) : Part → Backend Systems Resource AnySavepoint
  | .store i =>
    (Store.backend (storeKey i) (t.store i).capabilities).embed (storeSlot i)
      (Resource.connectionCase i) AnySavepoint.positionCase
  | .fullJournal i key capabilities =>
    (Journal.fullBackend key capabilities).embed (journalSlot i) Resource.numberCase
      AnySavepoint.numberCase
  | .smallJournal i key capabilities =>
    (Journal.smallBackend key capabilities).embed (journalSlot i) Resource.labelCase
      AnySavepoint.trivialCase

/-- The place of a store in a session. -/
def site (i : Nat) : StoreSite Systems Resource :=
  ⟨storeSlot i, Resource.connectionCase i, storeKey i⟩

/-! ## Connections that nothing refers to -/

/-- Whether a connection is the resource of a holder that something refers to. -/
def isHeld (s : SystemsSession) (store : Nat) (c : ConnectionId) : Bool :=
  (List.range s.holders.size).any fun h =>
    ((s.holder? h).any fun holder => holder.resource == .connection store c) && s.isReferenced h

/-- The open connections of a store, other than those that `kept` says are in use, that nothing
refers to any more. -/
def abandoned (s : SystemsSession) (kept : ConnectionId → Bool) (store : Nat) :
    List ConnectionId :=
  (List.range (s.native.store store).connections.size).filter fun c =>
    ((s.native.store store).connection? c).any (!·.closed) && !kept c && !isHeld s store c

/-- Closes the connections that nothing refers to any more. -/
def closeAbandoned (kept : Nat → ConnectionId → Bool) (s : SystemsSession) : SystemsSession :=
  (List.range s.native.stores.size).foldl (fun s i =>
    (abandoned s (kept i) i).foldl (fun s c => (site i).modifyStore (·.close c) s) s) s

end Systems

end Demarcation
