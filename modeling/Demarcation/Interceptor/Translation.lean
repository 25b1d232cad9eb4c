/-
The step that translates the failures raised further down the chain.
-/
import Demarcation.Invocation.Chain
import Demarcation.Translation

namespace Demarcation.Interceptor

variable {ω τ : Type}

/-- Passes on results and, unless `always`, the failures that the operation declares. Of any other failure the
translator is asked, whatever asking it does to the world. -/
def asking (always : Bool) (ask : Failure → ω → Option DataAccessError × ω) : Interceptor ω τ where
  name := "persistence-exception-translation"
  around call := do
    match ← Advice.proceeding with
    | .ok v => pure (.ok v)
    | .error f =>
      if !always && call.operation.declares f then pure (.error f)
      else
        let answer ← Advice.onWorld (ask f)
        pure (.error (Translator.translated f answer))

/-- Asks a translator of its own, which has no part in the world. -/
def translatingBy (always : Bool) (t : Translator) : Interceptor ω τ :=
  asking always fun f w => (t.translate f, w)

/-- What the translator in effect answers. The world remembers where the translator comes from. -/
def resolving (slot : Slot ω Resolution) (source : TranslatorSource ω) (f : Failure) (w : ω) :
    Option DataAccessError × ω :=
  let (t, resolution, w) := (slot.get w).translator source w
  (t.translate f, slot.set resolution w)

/-- Asks the translator in effect. -/
def translating (always : Bool) (slot : Slot ω Resolution) (source : TranslatorSource ω) :
    Interceptor ω τ :=
  asking always (resolving slot source)

end Demarcation.Interceptor
