/-
Failures that are planned ahead for primitives and consumed one a call.
-/
import Demarcation.Primitive

namespace Demarcation

/-- The primitives with a planned failure, each with how many. A primitive in the plan fails its
next call whatever the number is, and leaves the plan when the number has come down to one. -/
abbrev FaultPlan := List (Primitive × Nat)

namespace FaultPlan

def planned? (f : FaultPlan) (p : Primitive) : Option Nat :=
  (f.find? fun q => q.1 == p).map Prod.snd

def without (f : FaultPlan) (p : Primitive) : FaultPlan := f.filter fun q => q.1 != p

/-- Plans `times` more failures. -/
def failNext (f : FaultPlan) (p : Primitive) (times : Nat) : FaultPlan :=
  (p, (f.planned? p).getD 0 + times) :: f.without p

/-- Whether the call that is made now fails, and the plan for the later ones. -/
def take (f : FaultPlan) (p : Primitive) : Bool × FaultPlan :=
  match f.planned? p with
  | none => (false, f)
  | some n => (true, if 1 < n then (p, n - 1) :: f.without p else f.without p)

end FaultPlan

end Demarcation
