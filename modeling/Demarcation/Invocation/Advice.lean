/-
What a step wrapped around an operation does, as a program with four actions: it asks for its
position, reads the scope, changes the scope, and proceeds down the chain, none of them or any
number of times. The position is not the program's to change.
-/
import Demarcation.Backend
import Demarcation.Invocation

namespace Demarcation

/-- A program of a step, in a world `ω`, around an operation that answers a `τ`. -/
inductive Advice (ω τ α : Type)
  /-- The program ends. -/
  | done (a : α)
  /-- Asks for the position of the step to enter next. -/
  | position (next : Nat → Advice ω τ α)
  | read (next : Scope ω → Advice ω τ α)
  | write (scope : Scope ω) (next : Advice ω τ α)
  /-- Runs the rest of the chain. -/
  | proceed (next : Outcome τ → Advice ω τ α)

namespace Advice

variable {ω τ α β : Type}

/-- One program after another. -/
def andThen : Advice ω τ α → (α → Advice ω τ β) → Advice ω τ β
  | done a, f => f a
  | position next, f => position fun n => (next n).andThen f
  | read next, f => read fun scope => (next scope).andThen f
  | write scope next, f => write scope (next.andThen f)
  | proceed next, f => proceed fun outcome => (next outcome).andThen f

instance : Monad (Advice ω τ) where
  pure := done
  bind := andThen

/-! ## Single actions -/

def askPosition : Advice ω τ Nat := position done

def readScope : Advice ω τ (Scope ω) := read done

/-- Runs the rest of the chain once. -/
def proceeding : Advice ω τ (Outcome τ) := proceed done

/-- Changes the arguments. -/
def modifyArguments (f : List Value → List Value) : Advice ω τ Unit :=
  read fun scope => write { scope with arguments := f scope.arguments } (done ())

/-- Runs an operation on the world. -/
def onWorld (op : ω → α × ω) : Advice ω τ α :=
  read fun scope =>
    let (a, world) := op scope.world
    write { scope with world } (done a)

/-- Runs an operation on a part of the world. -/
def within {σ : Type} (slot : Slot ω σ) (op : σ → α × σ) : Advice ω τ α := onWorld (slot.run op)

/-! ## Running a program -/

/-- Runs a program on a call under way, given what proceeding does. -/
def run (proceedWith : Invocation ω → Outcome τ × Invocation ω) :
    Advice ω τ α → Invocation ω → α × Invocation ω
  | done a, i => (a, i)
  | position next, i => (next i.position).run proceedWith i
  | read next, i => (next i.scope).run proceedWith i
  | write scope next, i => next.run proceedWith { i with scope }
  | proceed next, i =>
    let (outcome, i) := proceedWith i
    (next outcome).run proceedWith i

end Advice

end Demarcation
