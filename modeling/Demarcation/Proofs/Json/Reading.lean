/-
Reading back what is written: whole numbers, records by the names of their fields, spans of time in the forms
in which they may be given, and definitions.
-/
import Demarcation.Definition.Json
import Demarcation.Proofs.Duration
import Demarcation.Proofs.Json.Printing

namespace Demarcation

open Demarcation.Text

namespace Json

/-! ## Numbers -/

theorem integer?_ofInt (n : Int) : (Number.ofInt n).integer? = some n := by
  have hdigits : digits? (Nat.toDigits 10 n.natAbs) = some n.natAbs :=
    digits?_eq_some_iff.2 (numeral_toDigits n.natAbs)
  simp only [Number.integer?, Number.ofInt, hdigits, Option.bind_eq_bind, Option.bind_some]
  by_cases hn : n < 0
  · have hne : ¬ n.natAbs = 0 := by omega
    have habs : -(n.natAbs : Int) = n := by omega
    simp only [hn, decide_true, if_true, hne, if_false, habs]
  · have habs : (n.natAbs : Int) = n := by omega
    simp only [hn, decide_false, Bool.false_eq_true, if_false, habs]

theorem natural?_ofNat {n bound : Nat} (hn : n < bound) : (Json.ofNat n).natural? bound = some n := by
  have hread : (Number.ofNat n).integer? = some (n : Int) := Number.ofInt_natCast n ▸ integer?_ofInt n
  simp [ofNat, natural?, hread, hn]

theorem integer?_ofInt64 (n : Int64) : (Json.ofInt n.toInt).integer? = some n := by
  have hlow : -signedBound ≤ n.toInt := Int64.le_toInt n
  have hhigh : n.toInt < signedBound := Int64.toInt_lt n
  simp [ofInt, integer?, integer?_ofInt, hlow, hhigh]

/-! ## Fields -/

/-- The value of the first member of a name. -/
def member? (members : List (Literal × Json)) (name : String) : Option Json :=
  (members.find? fun m => m.1 == some name).map Prod.snd

/-- The fields of an object are its members, if the names of all are texts and no field is given twice. -/
theorem fields?_object {names : List String} {members : List (Literal × Json)} (hnames : ∀ m ∈ members, m.1.isSome)
    (honce : ∀ name ∈ names, countName members name ≤ 1) :
    fields? names (.object members) = some (member? members) := by
  have hall : (members.any (fun m => m.1.isNone) || names.any fun name => 1 < countName members name) = false := by
    simp only [Bool.or_eq_false_iff, List.any_eq_false]
    constructor
    · intro m hm
      simp [Option.isSome_iff_ne_none.1 (hnames m hm)]
    · intro name hname
      simpa using honce name hname
  simp only [fields?, hall]
  rfl

theorem fields?_ofMembers {names : List String} {members : List (String × Json)}
    (hnodup : (members.map Prod.fst).Nodup) :
    fields? names (.ofMembers members) = some (member? (members.map fun (k, v) => (some k, v))) := by
  have hcount : ∀ name,
      countName (members.map fun (k, v) => (some k, v)) name = (members.map Prod.fst).count name := by
    intro name
    simp [countName, List.count, List.countP_map, Function.comp_def]
  apply fields?_object
  · rintro _ hm
    obtain ⟨m, -, rfl⟩ := List.mem_map.1 hm
    rfl
  · intro name _
    rw [hcount]
    exact List.nodup_iff_count.1 hnodup name

@[simp] theorem member?_cons_self (name : String) (j : Json) (members : List (Literal × Json)) :
    member? ((some name, j) :: members) name = some j := by
  simp [member?]

theorem member?_cons_of_ne {name k : String} (hne : k ≠ name) (j : Json) (members : List (Literal × Json)) :
    member? ((some k, j) :: members) name = member? members name := by
  simp [member?, hne]

end Json

/-! ## Spans of time -/

namespace Duration

/-- Seconds and nanoseconds that make a span. More nanoseconds than a second has carry into the seconds. -/
structure Parts (d : Duration) (s n : Nat) : Prop where
  seconds_lt : s < wordBound
  nanos_lt : n < halfWordBound
  value : s * nanosPerSecond + n = d.toNanos

/-- A span as it may be given: with its fields in either order, or as an array of both. -/
inductive Written (d : Duration) : Json → Prop
  | secondsFirst {s n : Nat} (parts : d.Parts s n) :
    Written d (.ofMembers [("secs", .ofNat s), ("nanos", .ofNat n)])
  | nanosFirst {s n : Nat} (parts : d.Parts s n) :
    Written d (.ofMembers [("nanos", .ofNat n), ("secs", .ofNat s)])
  | array {s n : Nat} (parts : d.Parts s n) : Written d (.array [.ofNat s, .ofNat n])

theorem Parts.ofJson? {d : Duration} {s n : Nat} (hparts : d.Parts s n) {j : Json} {field : String → Option Json}
    (hfields : j.fields? ["secs", "nanos"] = some field) (honly : j.onlyNames ["secs", "nanos"] = true)
    (hseconds : field "secs" = some (.ofNat s)) (hnanos : field "nanos" = some (.ofNat n)) :
    Duration.ofJson? j = some d := by
  have hread : Duration.ofJson? j = (do
      ofParts? (← (Json.ofNat s).natural? wordBound) (← (Json.ofNat n).natural? halfWordBound)) := by
    simp [Duration.ofJson?, hfields, honly, hseconds, hnanos]
  have hsum : ofParts? s n = some d := by rw [ofParts?, hparts.value, ofNanos?_toNanos]
  rw [hread]
  -- rewriting with the readings would leave it to the kernel to compute with the bounds
  exact Option.bind_eq_some_iff.2 ⟨s, Json.natural?_ofNat hparts.seconds_lt,
    Option.bind_eq_some_iff.2 ⟨n, Json.natural?_ofNat hparts.nanos_lt, hsum⟩⟩

theorem ofJson?_written {d : Duration} {j : Json} (hj : d.Written j) : ofJson? j = some d := by
  cases hj with
  | secondsFirst parts => exact parts.ofJson? (Json.fields?_ofMembers (by simp)) rfl rfl rfl
  | nanosFirst parts => exact parts.ofJson? (Json.fields?_ofMembers (by simp)) rfl rfl rfl
  | array parts => exact parts.ofJson? rfl rfl rfl rfl

theorem nullable?_written {d : Duration} {j : Json} (hj : d.Written j) :
    Json.nullable? ofJson? j = some (some d) := by
  have hread := congrArg (Option.map some) (ofJson?_written hj)
  cases hj <;> exact hread

theorem written_toJson (d : Duration) : d.Written d.toJson :=
  .secondsFirst ⟨d.seconds_lt, Nat.lt_trans d.nanos_lt (by decide), rfl⟩

theorem writable_toJson (d : Duration) : d.toJson.Writable :=
  Json.writable_ofMembers (by simp [Json.writable_ofNat])

end Duration

/-! ## Definitions -/

theorem Propagation.ofJson?_toJson (p : Propagation) : ofJson? p.toJson = some p := by
  cases p <;> decide

theorem Isolation.ofJson?_toJson (i : Isolation) : ofJson? i.toJson = some i := by
  cases i <;> decide

theorem Timeout.ofJson?_toJson (t : Timeout) : ofJson? t.toJson = some t := by
  cases t with
  | unspecified => decide
  | after d =>
    have hd := Duration.ofJson?_written d.written_toJson
    simp [ofJson?, toJson, Json.choice?, Json.ofMembers, hd]

namespace Definition

theorem nullable?_name (name : Option String) :
    Json.nullable? Json.string? (name.elim .null .ofString) = some name := by
  cases name <;> rfl

theorem ofJson?_toJson (d : Definition) : ofJson? d.toJson = some d := by
  have hfields : d.toJson.fields? ["propagation", "isolation", "timeout", "read_only", "name"] = some _ :=
    Json.fields?_ofMembers (by simp)
  simp [ofJson?, hfields, Json.member?_cons_of_ne, Json.field?, Propagation.ofJson?_toJson,
    Isolation.ofJson?_toJson, Timeout.ofJson?_toJson, Json.truth?, nullable?_name]

theorem writable_toJson (d : Definition) : d.toJson.Writable := by
  have htimeout : d.timeout.toJson.Writable := by
    cases d.timeout with
    | unspecified => exact .text _
    | after t => exact Json.writable_ofMembers (by simp [t.writable_toJson])
  have hname : (d.name.elim .null .ofString : Json).Writable := by
    cases d.name with
    | none => exact .null
    | some s => exact .text s
  apply Json.writable_ofMembers
  simp only [List.forall_mem_cons, List.not_mem_nil, false_implies, implies_true, and_true]
  exact ⟨.text _, .text _, htimeout, .bool _, hname⟩

end Definition

end Demarcation
