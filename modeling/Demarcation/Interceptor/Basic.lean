/-
Steps of everyday use: they leave a call alone, repeat it, answer it themselves, or change its
arguments or its result.
-/
import Demarcation.Invocation.Chain

namespace Demarcation.Interceptor

variable {ω τ : Type}

/-- Only proceeds. -/
def transparent (name : String) : Interceptor ω τ := ⟨name, fun _ => .proceeding⟩

/-- Follows calls for a log, which is not part of the world; to the calls it is transparent. -/
def trace : Interceptor ω τ := transparent "trace"

/-- A step that lets the operation be called and changes the result. -/
def afterwards (name : String) (f : Outcome τ → Outcome τ) : Interceptor ω τ :=
  ⟨name, fun _ => f <$> Advice.proceeding⟩

/-! ## Repeating -/

/-- Proceeds, and after a failure, or always, proceeds up to so many times more. The last result
counts. -/
def proceedAgain (always : Bool) : (more : Nat) → Advice ω τ (Outcome τ)
  | 0 => .proceeding
  | more + 1 => do
    match ← Advice.proceeding with
    | .ok v => if always then proceedAgain always more else pure (.ok v)
    | .error _ => proceedAgain always more

/-- Proceeds until the call succeeds, but at most `times` times; or `times` times always. -/
def retrying (name : String) (times : Nat) (always : Bool) : Interceptor ω τ :=
  ⟨name, fun _ => proceedAgain always (times - 1)⟩

/-! ## Answering -/

/-- Answers without proceeding. -/
def answering (name : String) (outcome : Outcome τ) : Interceptor ω τ :=
  ⟨name, fun _ => pure outcome⟩

/-- Fails after a success. -/
def failingAfter (name : String) (f : Failure) : Interceptor ω τ :=
  afterwards name fun outcome => outcome.bind fun _ => .error f

/-- Answers a value in place of a failure. -/
def suppressing (name : String) (v : τ) : Interceptor ω τ :=
  afterwards name fun
    | .ok w => .ok w
    | .error _ => .ok v

/-- Changes a result. -/
def mapping (name : String) (f : τ → τ) : Interceptor ω τ :=
  afterwards name (Except.map f)

/-! ## Changing the arguments -/

/-- Changes the arguments and proceeds. -/
def adjusting (name : String) (f : List Value → List Value) : Interceptor ω τ :=
  ⟨name, fun _ => do
    Advice.modifyArguments f
    Advice.proceeding⟩

end Demarcation.Interceptor
