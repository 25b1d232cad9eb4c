/-
The registry of an execution context: which holder is bound under which key. A holder can turn
void while it is bound; a void binding counts as absent, and looking at it removes it.
-/
import Demarcation.Failure

namespace Demarcation

/-- The type that a holder was made as. Holders of resources are one family of types, told apart
by the resource. -/
inductive HolderKind
  | named (name : String)
  | holderOf (resource : String)
deriving DecidableEq, Repr, Inhabited

/-- The name of the type in error texts. -/
def HolderKind.text : HolderKind → String
  | named name => name
  | holderOf _ => "<holder>"

/-- What a registry asks about the holders bound in it. -/
structure HolderView (η : Type) where
  isVoid : η → Bool
  kind : η → HolderKind

/-- The bindings of one context: at most one holder for each key. -/
structure Registry (η : Type) where
  context : ContextId
  bindings : List (ResourceKey × η) := []
deriving Repr

namespace Registry

variable {η : Type}

instance : Inhabited (Registry η) := ⟨{ context := default }⟩

/-- The holder bound under a key, void or not. -/
def binding? (r : Registry η) (key : ResourceKey) : Option η :=
  (r.bindings.find? fun b => b.1 == key).map Prod.snd

/-- The registry without a binding. -/
def erase (r : Registry η) (key : ResourceKey) : Registry η :=
  { r with bindings := r.bindings.filter fun b => b.1 != key }

/-- The registry with a binding in place of an older one. -/
def insert (r : Registry η) (key : ResourceKey) (h : η) : Registry η :=
  { r.erase key with bindings := (r.erase key).bindings ++ [(key, h)] }

/-- Whether a live holder is bound. -/
def has (r : Registry η) (view : HolderView η) (key : ResourceKey) : Bool :=
  match r.binding? key with
  | some h => !view.isVoid h
  | none => false

def mismatch (r : Registry η) (key : ResourceKey) (expected : HolderKind) : RegistryError :=
  .holderTypeMismatch key r.context expected.text

/-- The holder bound under a key. A void one is removed, whatever its type. -/
def get (r : Registry η) (view : HolderView η) (expected : HolderKind) (key : ResourceKey) :
    Except RegistryError (Option η) × Registry η :=
  match r.binding? key with
  | none => (.ok none, r)
  | some h =>
    if view.isVoid h then (.ok none, r.erase key)
    else if view.kind h = expected then (.ok (some h), r)
    else (.error (r.mismatch key expected), r)

/-- Binds a holder. Fails if a live one is bound. -/
def bind (r : Registry η) (view : HolderView η) (key : ResourceKey) (h : η) :
    Except RegistryError (Registry η) :=
  if r.has view key then .error (.alreadyBound key r.context) else .ok (r.insert key h)

/-- Removes the binding of a key and answers its holder unless it is void. A binding of another
type stays, void or not. -/
def unbindIfPossible (r : Registry η) (view : HolderView η) (expected : HolderKind)
    (key : ResourceKey) : Except RegistryError (Option η) × Registry η :=
  match r.binding? key with
  | none => (.ok none, r)
  | some h =>
    if view.kind h = expected then
      (.ok (if view.isVoid h then none else some h), r.erase key)
    else (.error (r.mismatch key expected), r)

/-- Removes the binding of a key and answers its holder. Fails if no live one is bound. -/
def unbind (r : Registry η) (view : HolderView η) (expected : HolderKind) (key : ResourceKey) :
    Except RegistryError η × Registry η :=
  match r.unbindIfPossible view expected key with
  | (.error e, r) => (.error e, r)
  | (.ok (some h), r) => (.ok h, r)
  | (.ok none, r) => (.error (.notBound key r.context), r)

/-- The keys, void bindings included. -/
def keys (r : Registry η) : List ResourceKey := r.bindings.map Prod.fst

/-- How many bindings there are, void ones included. -/
def size (r : Registry η) : Nat := r.bindings.length

/-- How many bindings were removed, and the registry without them. -/
def clear (r : Registry η) : Nat × Registry η := (r.size, { r with bindings := [] })

def inspect (r : Registry η) : String :=
  Text.record "ResourceRegistry" [("context", r.context.inspect),
    ("keys", Text.listing (r.keys.map ResourceKey.inspect))]

end Registry

end Demarcation
