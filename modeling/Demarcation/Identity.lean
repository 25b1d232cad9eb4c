/-
Identities of execution contexts and of resource factories, and the counters that hand them out.
-/
import Demarcation.Text.Record

namespace Demarcation

/-- Identifies one execution context: one call path or one task. -/
structure ContextId where
  raw : UInt64
deriving DecidableEq, Repr, Inhabited

/-- Identifies a resource factory; at most one holder is bound under a key in each context. -/
structure ResourceKey where
  raw : UInt64
deriving DecidableEq, Repr, Inhabited

/-- Names an execution context by its place among the contexts of a session. -/
abbrev ContextIndex := Nat

namespace ContextId

def text (c : ContextId) : String := "ctx#" ++ toString c.raw.toNat

/-- The text that names the type too. -/
def inspect (c : ContextId) : String := Text.tagged "ContextId" (toString c.raw.toNat)

end ContextId

namespace ResourceKey

def text (k : ResourceKey) : String := "resource#" ++ toString k.raw.toNat

/-- The text that names the type too. -/
def inspect (k : ResourceKey) : String := Text.tagged "ResourceKey" (toString k.raw.toNat)

end ResourceKey

/-- Hands out numbers in order, starting again at zero behind the largest one. -/
structure IdSource where
  current : UInt64 := 1
deriving DecidableEq, Repr, Inhabited

/-- The next number, and the source behind it. -/
def IdSource.next (s : IdSource) : UInt64 × IdSource := (s.current, ⟨s.current + 1⟩)

end Demarcation
