/-
The history of a plan of failures: what was planned, which primitives were called, and when the plan was cleared. A
counter for each primitive, which a plan raises and a call lowers by one, tells what is left of a plan, but for a plan
of no failures at all. Such a plan waits for a call like any other.
-/
import Demarcation.Store.Faults

namespace Demarcation

/-! ## Plans -/

namespace FaultPlan

variable (f : FaultPlan) (p q : Primitive)

theorem planned?_cons (n : Nat) : planned? ((p, n) :: f) q = if p = q then some n else f.planned? q := by
  unfold planned?
  by_cases h : p = q <;> simp [h]

theorem planned?_without : (f.without p).planned? q = if p = q then none else f.planned? q := by
  unfold planned? without
  rw [List.find?_filter]
  by_cases h : p = q
  · subst h
    simp
  · rw [if_neg h]
    congr 2
    funext r
    by_cases hr : r.1 = q <;> simp [hr, Ne.symm h]

theorem planned?_failNext (times : Nat) :
    (f.failNext p times).planned? q = if p = q then some ((f.planned? p).getD 0 + times) else f.planned? q := by
  unfold failNext
  rw [planned?_cons, planned?_without]
  by_cases h : p = q <;> simp [h]

theorem take_fst : (f.take p).1 = (f.planned? p).isSome := by
  unfold take
  cases f.planned? p <;> rfl

theorem planned?_take : (f.take p).2.planned? q =
    if p = q then (f.planned? p).bind fun n => if 1 < n then some (n - 1) else none else f.planned? q := by
  unfold take
  cases hp : f.planned? p with
  | none => by_cases h : p = q <;> simp_all
  | some n =>
    dsimp only
    by_cases hn : 1 < n
    · rw [if_pos hn, planned?_cons, planned?_without]
      by_cases h : p = q <;> simp [h, hn]
    · rw [if_neg hn, planned?_without]
      by_cases h : p = q <;> simp [h, hn]

/-- A call takes one of the planned failures of its primitive, and no plan of no failures is kept. -/
theorem planned?_take_self : ((f.take p).2.planned? p).getD 0 = (f.planned? p).getD 0 - 1 ∧
    (((f.take p).2.planned? p).isSome = true ↔ 1 < (f.planned? p).getD 0) := by
  rw [planned?_take, if_pos rfl]
  cases f.planned? p with
  | none => simp
  | some n =>
    by_cases hn : 1 < n
    · simp [hn]
    · simp [hn]
      omega

end FaultPlan

/-! ## Histories -/

/-- What happens to a plan of failures, and to the counts of the calls. -/
inductive FaultEvent
  | planned (p : Primitive) (times : Nat)
  | cleared
  /-- A primitive is called, and fails by the plan or does not. -/
  | called (p : Primitive) (failed : Bool)
  /-- The counts begin again at zero. -/
  | recounted
deriving DecidableEq

namespace FaultEvent

/-- How many failures of a primitive an event plans. -/
def times (p : Primitive) : FaultEvent → Nat
  | planned q n => if q = p then n else 0
  | cleared | called _ _ | recounted => 0

def isCall (p : Primitive) : FaultEvent → Bool
  | called q _ => q == p
  | planned _ _ | cleared | recounted => false

/-- Whether an event is about the failures of a primitive. -/
def concerns (p : Primitive) : FaultEvent → Bool
  | planned q _ | called q _ => q == p
  | cleared => true
  | recounted => false

end FaultEvent

/-- What has happened to a plan so far, the last event first. -/
abbrev FaultHistory := List FaultEvent

namespace FaultHistory

open FaultEvent

/-- What has happened since the plan was cleared. -/
def sinceCleared (past : FaultHistory) : FaultHistory := past.takeWhile (· != .cleared)

/-- What has happened since the counts began at zero. -/
def sinceRecounted (past : FaultHistory) : FaultHistory := past.takeWhile (· != .recounted)

/-- How many failures of a primitive have been planned since the plan was cleared. -/
def planned (p : Primitive) (past : FaultHistory) : Nat := past.sinceCleared.foldr (fun e n => n + e.times p) 0

/-- How many calls of a primitive have failed by the plan since it was cleared. -/
def injected (p : Primitive) (past : FaultHistory) : Nat := past.sinceCleared.count (.called p true)

/-- How often a primitive was called. -/
def calls (p : Primitive) (past : FaultHistory) : Nat := past.countP (isCall p)

/-- How many planned failures of a primitive are left, if each call of it has taken one as long as there were any. -/
def left (p : Primitive) : FaultHistory → Nat
  | [] | .cleared :: _ => 0
  | .planned q n :: past => if q = p then left p past + n else left p past
  | .called q _ :: past => if q = p then left p past - 1 else left p past
  | .recounted :: past => left p past

/-- A primitive has been planned to fail, be it zero times, since it was called and since the plan was cleared. -/
def Renewed (p : Primitive) : FaultHistory → Prop
  | [] | .cleared :: _ => False
  | .planned q _ :: past => q = p ∨ Renewed p past
  | .called q _ :: past => q ≠ p ∧ Renewed p past
  | .recounted :: past => Renewed p past

/-- The next call of a primitive fails. -/
def Strikes (p : Primitive) (past : FaultHistory) : Prop := 0 < left p past ∨ Renewed p past

/-- A primitive is planned to fail, but no times. -/
def Blank (p : Primitive) (past : FaultHistory) : Prop := left p past = 0 ∧ Renewed p past

/-- Something holds at each call of a primitive, of whether it failed and of what had happened before it. -/
def AtCalls (p : Primitive) (Q : Bool → FaultHistory → Prop) (past : FaultHistory) : Prop :=
  ∀ later failed before, past = later ++ .called p failed :: before → Q failed before

/-! ## Counting -/

section Counting

variable {p : Primitive} {past : FaultHistory}

@[simp] theorem planned_cons (e : FaultEvent) :
    planned p (e :: past) = if e = .cleared then 0 else planned p past + e.times p := by
  unfold planned sinceCleared
  by_cases h : e = .cleared
  · simp [h]
  · simp [h]

@[simp] theorem injected_cons (e : FaultEvent) :
    injected p (e :: past) =
      if e = .cleared then 0 else injected p past + if e = .called p true then 1 else 0 := by
  unfold injected sinceCleared
  by_cases h : e = .cleared
  · simp [h]
  · simp [h, List.count_cons]

/-- No more is left than was planned. -/
theorem left_le_planned : left p past ≤ planned p past := by
  induction past with
  | nil => exact Nat.le_refl _
  | cons e past ih =>
    cases e with
    | planned q n =>
      by_cases h : q = p
      · simpa [left, times, h] using ih
      · simpa [left, times, h] using ih
    | cleared => simp [left]
    | called q failed =>
      by_cases h : q = p
      · simp only [left, planned_cons, times, h]
        simp only [reduceCtorEq, if_true, if_false]
        omega
      · simpa [left, times, h] using ih
    | recounted => simpa [left, times] using ih

/-- What is planned is left, but for one failure for each call since then. -/
theorem le_left {since before : FaultHistory} {n : Nat} (hkept : .cleared ∉ since) :
    n ≤ left p (since ++ .planned p n :: before) + calls p since := by
  induction since with
  | nil => simp [left, calls]
  | cons e since ih =>
    rw [List.mem_cons, not_or] at hkept
    obtain ⟨he, hkept⟩ := hkept
    have hle := ih hkept
    unfold calls at hle ⊢
    rw [List.cons_append, List.countP_cons]
    cases e with
    | planned q m =>
      simp only [left, isCall]
      split <;> simp <;> omega
    | cleared => exact absurd rfl he
    | called q failed =>
      by_cases h : q = p
      · simp [left, isCall, h]
        omega
      · simp [left, isCall, h]
        omega
    | recounted =>
      simpa [left, isCall] using hle

end Counting

/-! ## Calls -/

section Calls

variable {p : Primitive} {past : FaultHistory} {Q : Bool → FaultHistory → Prop}

theorem atCalls_nil : AtCalls p Q [] := by
  intro later failed before h
  cases later <;> cases h

theorem atCalls_cons (e : FaultEvent) :
    AtCalls p Q (e :: past) ↔ (∀ failed, e = .called p failed → Q failed past) ∧ AtCalls p Q past := by
  constructor
  · intro h
    refine ⟨?_, ?_⟩
    · rintro failed rfl
      exact h [] failed past rfl
    · rintro later failed before rfl
      exact h (e :: later) failed before rfl
  · rintro ⟨hnow, hbefore⟩ later failed before h
    cases later with
    | nil => cases h; exact hnow failed rfl
    | cons e' later => cases h; exact hbefore later failed before rfl

/-- A plan of no failures is the only one that strikes with nothing left. -/
theorem strikes_iff (h : ¬ Blank p past) : Strikes p past ↔ 0 < left p past := by
  refine ⟨?_, .inl⟩
  rintro (hleft | hrenewed)
  · exact hleft
  · exact Nat.pos_of_ne_zero fun hzero => h ⟨hzero, hrenewed⟩

/-- Planned failures are told from those that were injected, as long as no plan of no failures was met. -/
theorem planned_eq (hstruck : AtCalls p (fun failed before => failed = true ↔ Strikes p before) past)
    (hmet : AtCalls p (fun _ before => ¬ Blank p before) past) : planned p past = left p past + injected p past := by
  induction past with
  | nil => rfl
  | cons e past ih =>
    rw [atCalls_cons] at hstruck hmet
    have heq := ih hstruck.2 hmet.2
    cases e with
    | planned q n =>
      by_cases h : q = p <;> simp [left, times, h] <;> omega
    | cleared => simp [left]
    | called q failed =>
      by_cases h : q = p
      · subst h
        -- no plan of no failures is met here, so the call fails exactly if it takes a failure that is left
        have hleft : failed = true ↔ 0 < left q past := (hstruck.1 failed rfl).trans (strikes_iff (hmet.1 failed rfl))
        cases failed with
        | true =>
          have hpos := hleft.1 rfl
          simp [left, times]
          omega
        | false =>
          have hzero : ¬ 0 < left q past := fun hpos => Bool.false_ne_true (hleft.2 hpos)
          simp [left, times]
          omega
      · simp [left, times, h]
        omega
    | recounted => simpa [left, times] using heq

/-- Counting the planned failures and those that were injected tells at each call whether it fails, exactly if no plan
of no failures is ever met. -/
theorem counted_out_iff (hstruck : AtCalls p (fun failed before => failed = true ↔ Strikes p before) past) :
    AtCalls p (fun failed before => failed = true ↔ injected p before < planned p before) past ↔
      AtCalls p (fun _ before => ¬ Blank p before) past := by
  induction past with
  | nil => exact iff_of_true atCalls_nil atCalls_nil
  | cons e past ih =>
    rw [atCalls_cons] at hstruck
    rw [atCalls_cons, atCalls_cons, ih hstruck.2]
    refine and_congr_left fun hmet => forall₂_congr fun failed he => ?_
    have heq := planned_eq hstruck.2 hmet
    have hcount : injected p past < planned p past ↔ 0 < left p past := by omega
    rw [hstruck.1 failed he, hcount]
    refine ⟨?_, strikes_iff⟩
    rintro h ⟨hzero, hrenewed⟩
    have hleft := h.1 (.inr hrenewed)
    omega

/-- A plan of no failures comes from planning none. -/
theorem left_pos_of_renewed (hpos : ∀ n, .planned p n ∈ past → 0 < n) (hrenewed : Renewed p past) :
    0 < left p past := by
  induction past with
  | nil => exact hrenewed.elim
  | cons e past ih =>
    have hlater : Renewed p past → 0 < left p past := ih fun n hn => hpos n (List.mem_cons_of_mem _ hn)
    cases e with
    | planned q n =>
      by_cases h : q = p
      · subst h
        have hn := hpos n List.mem_cons_self
        simp only [left, if_true]
        omega
      · simpa [left, h] using hlater (hrenewed.resolve_left h)
    | cleared => exact hrenewed.elim
    | called q failed => simpa [left, hrenewed.1] using hlater hrenewed.2
    | recounted => exact hlater hrenewed

theorem not_blank_of_pos (hpos : ∀ n, .planned p n ∈ past → 0 < n) : ¬ Blank p past := fun h =>
  Nat.ne_of_gt (left_pos_of_renewed hpos h.2) h.1

/-- Counting tells which calls fail if every plan is of one failure at least. -/
theorem strikes_iff_counts (hstruck : AtCalls p (fun failed before => failed = true ↔ Strikes p before) past)
    (hpos : ∀ n, .planned p n ∈ past → 0 < n) : Strikes p past ↔ injected p past < planned p past := by
  have hmet : AtCalls p (fun _ before => ¬ Blank p before) past := by
    rintro later failed before rfl
    exact not_blank_of_pos fun n hn => hpos n (by simp [hn])
  rw [strikes_iff (not_blank_of_pos hpos), planned_eq hstruck hmet]
  exact (Nat.lt_add_left_iff_pos).symm

/-! ## Events that are not about a primitive -/

section Elsewhere

variable {more : FaultHistory} (hmore : ∀ e ∈ more, e.concerns p = false)
include hmore

theorem left_append : left p (more ++ past) = left p past := by
  induction more with
  | nil => rfl
  | cons e more ih =>
    have heq := ih fun e' he' => hmore e' (List.mem_cons_of_mem _ he')
    have he := hmore e List.mem_cons_self
    cases e <;> simp_all [left, concerns]

theorem renewed_append : Renewed p (more ++ past) ↔ Renewed p past := by
  induction more with
  | nil => rfl
  | cons e more ih =>
    have heq := ih fun e' he' => hmore e' (List.mem_cons_of_mem _ he')
    have he := hmore e List.mem_cons_self
    cases e <;> simp_all [Renewed, concerns]

/-- Whether the next call of a primitive fails is a matter of its own failures. -/
theorem strikes_append : Strikes p (more ++ past) ↔ Strikes p past := by
  unfold Strikes
  rw [left_append hmore, renewed_append hmore]

end Elsewhere

end Calls

end FaultHistory

/-! ## Plans, by their history -/

namespace FaultPlan

open FaultHistory

variable {f : FaultPlan} {past : FaultHistory}

/-- The plan lists a primitive if its next call fails, with how many failures are left. -/
structure Agrees (f : FaultPlan) (past : FaultHistory) (p : Primitive) : Prop where
  left : (f.planned? p).getD 0 = left p past
  strikes : (f.planned? p).isSome = true ↔ Strikes p past

theorem agrees_nil (p : Primitive) (past : FaultHistory) : Agrees [] (.cleared :: past) p :=
  ⟨rfl, iff_of_false nofun fun h => h.elim (Nat.lt_irrefl 0) id⟩

theorem Agrees.recounted {p : Primitive} (h : f.Agrees past p) : f.Agrees (.recounted :: past) p :=
  ⟨h.left, h.strikes⟩

theorem Agrees.failNext (h : ∀ q, f.Agrees past q) (p : Primitive) (times : Nat) (q : Primitive) :
    (f.failNext p times).Agrees (.planned p times :: past) q := by
  by_cases hpq : p = q
  · subst hpq
    have hleft := (h p).left
    refine ⟨?_, ?_⟩ <;> rw [planned?_failNext, if_pos rfl]
    · simp [FaultHistory.left, hleft]
    · simp [Strikes, Renewed]
  · refine ⟨?_, ?_⟩ <;> rw [planned?_failNext, if_neg hpq]
    · simpa [FaultHistory.left, hpq] using (h q).left
    · simpa [Strikes, Renewed, FaultHistory.left, hpq] using (h q).strikes

theorem Agrees.take (h : ∀ q, f.Agrees past q) (p : Primitive) (failed : Bool) (q : Primitive) :
    (f.take p).2.Agrees (.called p failed :: past) q := by
  by_cases hpq : p = q
  · subst hpq
    obtain ⟨hnumber, hlisted⟩ := planned?_take_self f p
    rw [(h p).left] at hnumber hlisted
    refine ⟨?_, ?_⟩
    · simpa [FaultHistory.left] using hnumber
    · rw [hlisted]
      simp only [Strikes, Renewed, FaultHistory.left, if_true, ne_eq, not_true, false_and, or_false]
      omega
  · refine ⟨?_, ?_⟩ <;> rw [planned?_take, if_neg hpq]
    · simpa [FaultHistory.left, hpq] using (h q).left
    · simpa [Strikes, Renewed, FaultHistory.left, hpq] using (h q).strikes

end FaultPlan

end Demarcation
