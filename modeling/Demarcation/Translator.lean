/-
Translators map failures of a backend onto the unified data-access errors.
-/
import Demarcation.Failure
import Demarcation.Text.Record
import Demarcation.Text.Search

namespace Demarcation

/-- Answers a data-access error for the failures it understands: by itself, or by asking others
in order. -/
inductive Translator
  | leaf (translate : Failure → Option DataAccessError)
  | chained (delegates : List Translator)

namespace Translator

mutual

/-- The first answer among the delegates. -/
def translate : Translator → Failure → Option DataAccessError
  | leaf t, f => t f
  | chained ts, f => translateFirst ts f

def translateFirst : List Translator → Failure → Option DataAccessError
  | [], _ => none
  | t :: ts, f => (translate t f).or (translateFirst ts f)

end

/-- How many translators a translator asks directly. -/
def delegates : Translator → List Translator
  | leaf _ => []
  | chained ts => ts

def inspect (t : Translator) : String :=
  Text.record "ChainedTranslator" [("delegates", toString t.delegates.length)]

/-! ## Translators of particular failures -/

/-- Understands nothing. -/
def silent : Translator := leaf fun _ => none

instance : Inhabited Translator := ⟨silent⟩

/-- The same answer for every failure. -/
def always (e : DataAccessError) : Translator := leaf fun _ => some e

/-- The same answer for the failures whose text contains `part`. -/
def containing (part : String) (e : DataAccessError) : Translator :=
  leaf fun f => if Text.occursIn part.toList f.message.toList then some e else none

/-- Errors of the named foreign type keep their text, except one text. -/
def ofForeign (type exception : String) (kind : DataAccessKind) : Translator :=
  leaf fun
    | .foreign t text _ => if t = type ∧ text ≠ exception then some ⟨kind, text, none⟩ else none
    | _ => none

/-- The category of a store's error. Injected failures and failures of transactions have none. -/
def storageKind? : StorageError → Option DataAccessKind
  | .duplicateKey _ => some .duplicateKey
  | .keyNotFound _ => some (.emptyResult 1)
  | .readOnly _ => some .invalidResourceUsage
  | .foreignSavepoint _ _ => some .invalidResourceUsage
  | .invalidSavepoint _ => some .invalidResourceUsage
  | .closed _ => some .recoverable
  | .busy _ => some .transient
  | .injected _ => none
  | .transaction _ => none

/-- Understands the errors of stores. -/
def storage : Translator :=
  leaf fun
    | .storage e => (storageKind? e).map fun kind => ⟨kind, e.message, none⟩
    | _ => none

/-! ## Translated failures -/

/-- The failure that stands for `f` after a translator was asked: `f` itself if it has no answer. An answer
keeps the source that the translator gave it, or else has `f` for its source. -/
def translated (f : Failure) : Option DataAccessError → Failure
  | none => f
  | some e => .dataAccess { e with source := e.source.or (some f) }

/-- The failure itself if the translator does not understand it, and else what it is translated to. -/
def translateIfNecessary (t : Translator) (f : Failure) : Failure := translated f (t.translate f)

end Translator

/-- All translators known to a configuration, in the order in which they were registered. -/
abbrev TranslatorRegistry := List Translator

end Demarcation
