/-
Definitions, their parts, and spans of time in JSON texts.
-/
import Demarcation.Definition
import Demarcation.Json.Printer
import Demarcation.Json.Reader

namespace Demarcation

namespace Duration

def toJson (d : Duration) : Json :=
  .ofMembers [("secs", .ofNat d.seconds), ("nanos", .ofNat d.nanos)]

/-- The bound of the unsigned thirty-two-bit numbers. -/
def halfWordBound : Nat := 4294967296

/-- A span with both its fields and no others. -/
def ofJson? (j : Json) : Option Duration := do
  let names := ["secs", "nanos"]
  let field ← j.fields? names
  if j.onlyNames names then
    ofParts? (← (← field "secs").natural? Text.wordBound)
      (← (← field "nanos").natural? halfWordBound)
  else none

end Duration

namespace Propagation

def toJson (p : Propagation) : Json := .ofString p.text

def ofJson? (j : Json) : Option Propagation := j.plainChoice? named?

end Propagation

namespace Isolation

def toJson (i : Isolation) : Json := .ofString i.text

def ofJson? (j : Json) : Option Isolation := j.plainChoice? named?

end Isolation

namespace Timeout

def toJson : Timeout → Json
  | unspecified => .ofString "default"
  | after d => .ofMembers [("after", d.toJson)]

def ofJson? (j : Json) : Option Timeout := do
  match ← j.choice? with
  | ("default", none) => some unspecified
  | ("default", some .null) => some unspecified
  | ("after", some d) => (Duration.ofJson? d).map after
  | _ => none

end Timeout

namespace Definition

def toJson (d : Definition) : Json :=
  .ofMembers [("propagation", d.propagation.toJson), ("isolation", d.isolation.toJson),
    ("timeout", d.timeout.toJson), ("read_only", .bool d.readOnly),
    ("name", d.name.elim .null .ofString)]

/-- A definition; a missing field has its default. -/
def ofJson? (j : Json) : Option Definition := do
  let field ← j.fields? ["propagation", "isolation", "timeout", "read_only", "name"]
  pure
    { propagation := ← Json.field? Propagation.ofJson? .required (field "propagation")
      isolation := ← Json.field? Isolation.ofJson? .unspecified (field "isolation")
      timeout := ← Json.field? Timeout.ofJson? .unspecified (field "timeout")
      readOnly := ← Json.field? Json.truth? false (field "read_only")
      name := ← Json.field? (Json.nullable? Json.string?) none (field "name") }

end Definition

end Demarcation
