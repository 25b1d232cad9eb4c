/-
Translating the failures of calls. A translation either has its translator from the start or
detects it: at the first use it takes all translators that are known then, and keeps them.
-/
import Demarcation.Text.Quoted
import Demarcation.Translator

namespace Demarcation

/-- Where the translator comes from. -/
inductive Resolution
  | fixed (t : Translator)
  | detecting (found : Option Translator)

/-- Something that can be asked for all translators known to it. Asking may change it. -/
abbrev TranslatorSource (σ : Type) := σ → TranslatorRegistry × σ

/-- The translator in effect, and the resolution with it remembered. The source is asked only if no
translator is in effect yet. -/
def Resolution.translator {σ : Type} (source : TranslatorSource σ) :
    Resolution → σ → Translator × Resolution × σ
  | .fixed t, s => (t, .fixed t, s)
  | .detecting (some t), s => (t, .detecting (some t), s)
  | .detecting none, s =>
    let (known, s) := source s
    (.chained known, .detecting (some (.chained known)), s)

/-- How the failures of calls are translated. -/
structure Translation where
  resolution : Resolution
  /-- Translate also the failures that the operation declares. -/
  always : Bool := false

namespace Translation

/-- The translator in effect, and the translation with it remembered. `known` are the translators
registered at this moment. -/
def translator (t : Translation) (known : TranslatorRegistry) : Translator × Translation :=
  let (tr, resolution, _) := t.resolution.translator (fun s : Unit => (known, s)) ()
  (tr, { t with resolution })

/-- What the translator in effect answers for each of some failures. -/
def consult (t : Translation) (known : TranslatorRegistry) :
    List Failure → List (Option DataAccessError) × Translation
  | [] => ([], t)
  | f :: fs =>
    let (tr, t) := t.translator known
    let (answers, t) := consult t known fs
    (tr.translate f :: answers, t)

def inspect (t : Translation) : String :=
  let translator := match t.resolution with
    | .fixed _ => "fixed"
    | .detecting (some _) => "detected"
    | .detecting none => "pending detection"
  Text.record "TranslationInterceptor"
    [("translator", Text.quoted translator), ("always_translate", Text.truth t.always)]

/-- A translation from its optional collaborators. A given translator comes before detection. -/
def build (translator : Option Translator) (source : Option TranslatorRegistry) (always : Bool) :
    Except Failure Translation :=
  match translator, source with
  | some t, _ => .ok ⟨.fixed t, always⟩
  | none, some _ => .ok ⟨.detecting none, always⟩
  | none, none =>
    .error (.configuration
      "a persistence exception translator or a translator source is required")

end Translation

end Demarcation
