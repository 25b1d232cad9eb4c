/-
Round trips: reading the text that is written for a definition, a configuration or a value gives it back. Values
nest, and are given back exactly as deep as the reader follows.
-/
import Demarcation.Proofs.Json.Settings
import Demarcation.Value.Json

namespace Demarcation

open Json

namespace Value

/-- No part of the value is a floating-point number. -/
inductive FloatFree : Value → Prop
  | null : FloatFree .null
  | boolean (b : Bool) : FloatFree (.boolean b)
  | int (n : Int64) : FloatFree (.int n)
  | text (s : String) : FloatFree (.text s)
  | bytes (bs : List UInt8) : FloatFree (.bytes bs)
  | list {items : List Value} : (∀ v ∈ items, FloatFree v) → FloatFree (.list items)

mutual

/-- How many objects and arrays the text of a value nests. -/
def depth : Value → Nat
  | null => 0
  | boolean _ | int _ | float _ | text _ => 1
  | bytes _ => 2
  | list items => depthOf items + 2

def depthOf : List Value → Nat
  | [] => 0
  | v :: vs => max (depth v) (depthOf vs)

end

theorem writable_toJsonItems {items : List Value} (hitems : ∀ v ∈ items, v.toJson.Writable) :
    ∀ j ∈ toJsonItems items, j.Writable := by
  induction items with
  | nil => simp [toJsonItems]
  | cons v items ih =>
    obtain ⟨hv, hitems⟩ := List.forall_mem_cons.1 hitems
    exact List.forall_mem_cons.2 ⟨hv, ih hitems⟩

/-- What is written for a value with one part. -/
theorem writable_kind (kind : String) {j : Json} (hj : j.Writable) : (ofMembers [(kind, j)]).Writable :=
  writable_ofMembers (by simpa using hj)

theorem FloatFree.writable_toJson {v : Value} (hv : v.FloatFree) : v.toJson.Writable := by
  induction hv with
  | null => exact writable_ofString _
  | boolean b => exact writable_kind _ (.bool b)
  | int n => exact writable_kind _ (writable_ofInt n.toInt)
  | text s => exact writable_kind _ (writable_ofString s)
  | bytes bs =>
    refine writable_kind _ (.array fun j hj => ?_)
    obtain ⟨b, -, rfl⟩ := List.mem_map.1 hj
    exact writable_ofNat b.toNat
  | list _ ih => exact writable_kind _ (.array (writable_toJsonItems ih))

theorem mapM_natural? (bs : List UInt8) :
    (bs.map fun b => Json.ofNat b.toNat).mapM (Json.natural? 256) = some (bs.map UInt8.toNat) := by
  induction bs with
  | nil => rfl
  | cons b bs ih => simp [List.mapM_cons, natural?_ofNat b.toNat_lt, ih]

/-- Reading a kind with a value that is no array. -/
theorem ofJson?_scalar {kind : String} {j : Json} {v : Value} (hj : ∀ items, j ≠ .array items)
    (hread : ofScalar? kind j = some v) (depth : Nat) :
    ofJson? depth (ofMembers [(kind, j)]) = if 1 ≤ depth then some v else none := by
  cases depth with
  | zero => simp [ofMembers, ofJson?]
  | succ depth => cases j <;> simp_all [ofMembers, ofJson?]

theorem ofJsonItems?_toJsonItems {items : List Value}
    (hitems : ∀ v ∈ items, ∀ depth, ofJson? depth v.toJson = if v.depth ≤ depth then some v else none) (depth : Nat) :
    ofJsonItems? depth (toJsonItems items) = if depthOf items ≤ depth then some items else none := by
  induction items with
  | nil => simp [toJsonItems, ofJsonItems?, depthOf]
  | cons v items ih =>
    obtain ⟨hv, hitems⟩ := List.forall_mem_cons.1 hitems
    rw [toJsonItems, ofJsonItems?, hv depth, ih hitems, depthOf]
    simp only [Nat.max_le]
    by_cases hfirst : v.depth ≤ depth <;> by_cases hrest : depthOf items ≤ depth <;> simp [hfirst, hrest]

/-- A value is read from what is written for it, if that does not nest too deep. -/
theorem FloatFree.ofJson?_toJson {v : Value} (hv : v.FloatFree) (depth : Nat) :
    ofJson? depth v.toJson = if v.depth ≤ depth then some v else none := by
  induction hv generalizing depth with
  | null => simp [toJson, ofJson?, Json.ofString, Value.depth]
  | boolean b => exact ofJson?_scalar (by simp) rfl depth
  | int n =>
    have hread : ofScalar? "Int" (.ofInt n.toInt) = some (.int n) := by simp [ofScalar?, integer?_ofInt64]
    exact ofJson?_scalar (by simp [ofInt]) hread depth
  | text s => exact ofJson?_scalar (by simp [ofString]) rfl depth
  | bytes bs =>
    rcases depth with _ | _ | depth
    · simp [toJson, ofMembers, ofJson?, Value.depth]
    · simp [toJson, ofMembers, ofJson?, Value.depth]
    · have hread : ofJson? (depth + 2) (toJson (.bytes bs)) =
          ((bs.map fun b => Json.ofNat b.toNat).mapM (Json.natural? 256)).map fun ns =>
            Value.bytes (ns.map Nat.toUInt8) := rfl
      rw [hread, mapM_natural?]
      simp [Value.depth, Function.comp_def]
  | @list items _ ih =>
    rcases depth with _ | _ | depth
    · simp [toJson, ofMembers, ofJson?, Value.depth]
    · simp [toJson, ofMembers, ofJson?, Value.depth]
    · simp [toJson, ofMembers, ofJson?, Value.depth, ofJsonItems?_toJsonItems ih depth]

end Value

/-! ## Main statement -/

/-- What is written for a definition or a configuration is read as the same again, and so is what is written for a
value without floating-point numbers, unless it nests deeper than the reader follows. And every text of an object
that gives some fields of a configuration, each once, in any order and among any other members, is read as the
default configuration with these fields replaced. -/
theorem json_round_trip :
    (∀ d : Definition, (parse? d.toJson.toText).bind Definition.ofJson? = some d) ∧
    (∀ c : ManagerConfig, ManagerConfig.parse? c.toJson.toText = some c) ∧
    (∀ v : Value, v.FloatFree →
      Value.parse? v.toJson.toText = if v.depth ≤ Value.maxDepth then some v else none) ∧
    (∀ (text : String) (members : List (Literal × Json)) (settings : List ManagerConfig.Setting),
      Spells text (.object members) → ManagerConfig.Gives members settings →
      (settings.map ManagerConfig.Setting.name).Nodup →
      ManagerConfig.parse? text = some (ManagerConfig.replacing settings)) := by
  refine ⟨?definition, ?config, ?value, ?fields⟩
  case definition =>
    intro d
    rw [parse?_toText d.writable_toJson, Option.bind_some, d.ofJson?_toJson]
  case config =>
    intro c
    rw [ManagerConfig.parse?, parse?_toText c.writable_toJson, Option.bind_some, c.ofJson?_toJson]
  case value =>
    intro v hv
    rw [Value.parse?, parse?_toText hv.writable_toJson, Option.bind_some, hv.ofJson?_toJson]
  case fields =>
    intro text members settings hspells hgives honce
    rw [ManagerConfig.parse?, parse?_complete hspells, Option.bind_some, ManagerConfig.ofJson?_gives hgives honce]

/-- A text with a member that is no field, blanks, and a field. -/
theorem spells_mixed : Spells "\x7b\"x\": [null] , \"nested_transaction_allowed\":false\x7d"
    (.object [(some "x", .array [.null]), (some "nested_transaction_allowed", .bool false)]) := by
  have hblank : Gap [' '] := by simp [Gap, isGap]
  have hitems := TreeText.array (.last gap_nil .null gap_nil)
  have hother := MemberText.pair gap_nil (literalText_flatMap "x") gap_nil hblank hitems hblank
  have hfield := MemberText.pair hblank (literalText_flatMap "nested_transaction_allowed") gap_nil gap_nil .no gap_nil
  exact ⟨[], _, [], rfl, gap_nil, .object (.cons hother (.last hfield)), gap_nil⟩

/-- A list with a negative number and a text with a quote, and a configuration from that text. -/
theorem json_round_trip_mixed :
    Value.parse? (Value.list [.int (-5), .text "say \"é\"\n"]).toJson.toText =
      some (.list [.int (-5), .text "say \"é\"\n"]) ∧
    ManagerConfig.parse? "\x7b\"x\": [null] , \"nested_transaction_allowed\":false\x7d" =
      some { nestedTransactionAllowed := false } := by
  obtain ⟨-, -, hvalue, hfields⟩ := json_round_trip
  have hfree : (Value.list [.int (-5), .text "say \"é\"\n"]).FloatFree := by
    refine .list fun v hv => ?_
    simp only [List.mem_cons, List.not_mem_nil, or_false] at hv
    rcases hv with rfl | rfl
    · exact .int _
    · exact .text _
  refine ⟨(hvalue _ hfree).trans (if_pos (by decide)), ?_⟩
  have hgives : ManagerConfig.Gives
      [(some "x", .array [.null]), (some "nested_transaction_allowed", .bool false)]
      [.flag .nestedTransactionAllowed false] :=
    .unknown (by simp [ManagerConfig.fieldNames]) (.setting (.flag .nestedTransactionAllowed false) .nil)
  exact hfields _ _ _ spells_mixed hgives (by simp)

end Demarcation
