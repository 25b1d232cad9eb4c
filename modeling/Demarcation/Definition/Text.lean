/-
The attribute text of a definition: tokens between commas, one each for the propagation and the
isolation, one for the timeout if there is one, and one if the transaction is read-only. A timeout
is written in seconds if it is a whole number of them and otherwise in milliseconds, rounded up.
The name is not written.
-/
import Demarcation.Definition
import Demarcation.Failure
import Demarcation.Text.Blank
import Demarcation.Text.Number
import Demarcation.Text.Search

namespace Demarcation.Definition

open Demarcation.Text

/-- The text of a timeout. -/
def timeoutText (d : Duration) : String :=
  if d.nanos = 0 then toString d.seconds else toString d.ceilMillis ++ "ms"

/-- The tokens of a definition. -/
def tokens (d : Definition) : List String :=
  ["PROPAGATION_" ++ d.propagation.text, "ISOLATION_" ++ d.isolation.text] ++
    (d.timeout.duration?.toList.map fun t => "timeout_" ++ timeoutText t) ++
    if d.readOnly then ["readOnly"] else []

def text (d : Definition) : String := ",".intercalate d.tokens

/-- What one token says. -/
inductive Token
  | propagation (p : Propagation)
  | isolation (i : Isolation)
  | timeout (d : Duration)
  | readOnly
deriving DecidableEq, Repr

/-- A timeout: a number of seconds, or of milliseconds before `ms`. -/
def timeout? (s : List Char) : Option Duration :=
  match before? ['m', 's'] s with
  | some millis => (word? millis).bind Duration.ofMillis?
  | none => (word? s).bind Duration.ofSeconds?

/-- The meaning of a token. What a token begins with decides what it must go on with. -/
def Token.ofText? (s : List Char) : Option Token :=
  match after? "PROPAGATION_".toList s with
  | some name => (Propagation.named? (String.ofList name)).map .propagation
  | none =>
    match after? "ISOLATION_".toList s with
    | some name => (Isolation.named? (String.ofList name)).map .isolation
    | none =>
      match after? "timeout_".toList s with
      | some value => (timeout? value).map .timeout
      | none => if s = "readOnly".toList then some .readOnly else none

/-- The definition with what a token says. -/
def update (d : Definition) : Token → Definition
  | .propagation p => { d with propagation := p }
  | .isolation i => { d with isolation := i }
  | .timeout t => { d with timeout := .after t }
  | .readOnly => { d with readOnly := true }

/-- Adds the tokens to a definition in order; the first that means nothing is the error. -/
def extend (d : Definition) : List (List Char) → Except String Definition
  | [] => .ok d
  | s :: rest =>
    match Token.ofText? s with
    | some t => extend (d.update t) rest
    | none => .error (String.ofList s)

/-- The tokens of a text: its pieces between commas, trimmed, without the empty ones. -/
def pieces (s : String) : List (List Char) :=
  ((splitAt ',' s.toList).map trim).filter fun t => !t.isEmpty

/-- The definition that a text describes, or its first token that means nothing. -/
def parse (s : String) : Except String Definition := extend {} (pieces s)

/-- The error for a token that means nothing. -/
def invalidToken {φ : Type} (token : String) : TransactionErrorFrom φ :=
  .configuration ("invalid transaction attribute token `" ++ token ++ "`")

end Demarcation.Definition
