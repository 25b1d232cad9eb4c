/-
All levels of a call share one cursor, and the steps of a chain are told apart by it alone. It has to be right
whenever a step proceeds once more, however what it proceeded to ended. It is: a chain does what the
composition of its steps does, where each step is given the rest of the call as a function.
-/
import Demarcation.Interceptor.Basic

namespace Demarcation

variable {ω τ α : Type}

/-- What is still to come of a call. -/
abbrev Rest (ω τ : Type) := Scope ω → Outcome τ × Scope ω

/-! ## Programs at a fixed position -/

namespace Advice

/-- Runs a program that stands at position `p`, with the rest of the call for every proceeding. -/
def apply (p : Nat) (rest : Rest ω τ) : Advice ω τ α → Scope ω → α × Scope ω
  | done a, scope => (a, scope)
  | position next, scope => (next p).apply p rest scope
  | read next, scope => (next scope).apply p rest scope
  | write scope next, _ => next.apply p rest scope
  | proceed next, scope =>
    let (outcome, scope) := rest scope
    (next outcome).apply p rest scope

/-- A program that asks for no position, as it is told that it stands at `p`. -/
def told (p : Nat) : Advice ω τ α → Advice ω τ α
  | done a => done a
  | position next => (next p).told p
  | read next => read fun scope => (next scope).told p
  | write scope next => write scope (next.told p)
  | proceed next => proceed fun outcome => (next outcome).told p

/-- As long as proceeding leaves the cursor where it is, a program finds it there whenever it asks, and
leaves it there. -/
theorem run_eq_apply {proceedWith : Invocation ω → Outcome τ × Invocation ω} {rest : Rest ω τ} {p : Nat}
    (hproceed : ∀ scope, proceedWith ⟨p, scope⟩ = ((rest scope).1, ⟨p, (rest scope).2⟩)) (a : Advice ω τ α)
    (scope : Scope ω) :
    a.run proceedWith ⟨p, scope⟩ = ((a.apply p rest scope).1, ⟨p, (a.apply p rest scope).2⟩) := by
  induction a generalizing scope with
  | done a => rfl
  | position next ih => exact ih p scope
  | read next ih => exact ih scope scope
  | write scope' next ih => exact ih scope'
  | proceed next ih =>
    unfold run apply
    simp only [hproceed]
    exact ih (rest scope).1 (rest scope).2

theorem apply_told (p q : Nat) (rest : Rest ω τ) (a : Advice ω τ α) :
    (a.told p).apply q rest = a.apply p rest := by
  funext scope
  induction a generalizing scope with
  | done a => rfl
  | position next ih => exact ih p scope
  | read next ih => exact ih scope scope
  | write scope' next ih => exact ih scope'
  | proceed next ih => exact ih (rest scope).1 (rest scope).2

end Advice

namespace Interceptor

/-- A step that is told its position. -/
def told (p : Nat) (step : Interceptor ω τ) : Interceptor ω τ := ⟨step.name, fun call => (step.around call).told p⟩

/-- A step that does the same at every position, as it does if it asks for none. -/
def Unplaced (step : Interceptor ω τ) (call : Call) : Prop :=
  ∀ p q, (step.around call).told p = (step.around call).told q

theorem Unplaced.apply {step : Interceptor ω τ} {call : Call} (hstep : step.Unplaced call) (p q : Nat)
    (rest : Rest ω τ) : (step.around call).apply p rest = (step.around call).apply q rest := by
  rw [← Advice.apply_told p 0, hstep p q, Advice.apply_told]

end Interceptor

/-! ## The composition of the steps -/

namespace Chain

section Composition

variable (call : Call) (target : Target ω τ)

/-- The steps of a chain around the operation, as functions of each other: with the first at position `p + 1`,
`f₁ (f₂ (… (fₙ target)))`. -/
def composed : (p : Nat) → Chain ω τ → Rest ω τ
  | p, [] => fun scope => target ⟨p, scope⟩
  | p, step :: chain => (step.around call).apply (p + 1) (composed (p + 1) chain)

theorem composed_drop {chain : Chain ω τ} {p : Nat} {step : Interceptor ω τ} (hstep : chain[p]? = some step) :
    composed call target p (chain.drop p) =
      (step.around call).apply (p + 1) (composed call target (p + 1) (chain.drop (p + 1))) := by
  obtain ⟨hp, rfl⟩ := List.getElem?_eq_some_iff.mp hstep
  rw [List.drop_eq_getElem_cons hp]
  rfl

/-- From position `p`, the chain does what the steps from there on do as functions of each other. -/
theorem proceed_eq (chain : Chain ω τ) {depth p : Nat} (hdepth : p + depth = chain.length) (scope : Scope ω) :
    chain.proceed call target depth ⟨p, scope⟩ =
      ((composed call target p (chain.drop p) scope).1, ⟨p, (composed call target p (chain.drop p) scope).2⟩) := by
  induction depth generalizing p scope with
  | zero =>
    rw [List.drop_of_length_le (by omega)]
    rfl
  | succ depth ih =>
    have hp : p < chain.length := by omega
    have hstep : chain[p]? = some chain[p] := List.getElem?_eq_getElem hp
    have hinner := Advice.run_eq_apply (fun scope => ih (by omega : p + 1 + depth = chain.length) scope)
      (chain[p].around call) scope
    rw [composed_drop call target hstep]
    unfold proceed
    simp only [hstep, hinner]

theorem position_proceed (chain : Chain ω τ) (depth : Nat) (i : Invocation ω) :
    (chain.proceed call target depth i).2.position = i.position := by
  cases depth with
  | zero => rfl
  | succ depth =>
    unfold proceed
    cases chain[i.position]? <;> rfl

theorem execute_eq_composed (chain : Chain ω τ) : chain.execute call target = composed call target 0 chain := by
  funext scope
  unfold execute
  rw [proceed_eq call target chain (Nat.zero_add _) scope]
  rfl

theorem composed_told (p : Nat) (chain : Chain ω τ) :
    composed call (fun i => target { i with position := p + chain.length }) p
      (chain.mapIdx fun i step => step.told (p + i + 1)) = composed call target p chain := by
  induction chain generalizing p with
  | nil => rfl
  | cons step chain ih =>
    have hrest := ih (p + 1)
    rw [show p + 1 + chain.length = p + (step :: chain).length by rw [List.length_cons]; omega,
      show (fun i step => Interceptor.told (ω := ω) (τ := τ) (p + 1 + i + 1) step) =
        fun i step => step.told (p + (i + 1) + 1) by funext i step; congr 1; omega] at hrest
    rw [List.mapIdx_cons]
    unfold composed
    rw [hrest]
    exact Advice.apply_told (p + 1) (p + 1) _ _

end Composition

/-! ## Steps that follow the calls -/

/-- The second chain is the first one with tracing steps put in anywhere. -/
inductive Watched : Chain ω τ → Chain ω τ → Prop
  | nil : Watched [] []
  | step {chain watched : Chain ω τ} (step : Interceptor ω τ) :
    Watched chain watched → Watched (step :: chain) (step :: watched)
  | trace {chain watched : Chain ω τ} : Watched chain watched → Watched chain (Interceptor.trace :: watched)

theorem composed_trace (call : Call) (target : Target ω τ) (p : Nat) (chain : Chain ω τ) :
    composed call target p (Interceptor.trace :: chain) = composed call target (p + 1) chain := rfl

/-- Where steps and operation do not go by their positions, it does not matter that tracing steps shift them. -/
theorem Watched.composed {chain watched : Chain ω τ} (hwatched : Watched chain watched) {call : Call}
    {target : Target ω τ} (hsteps : ∀ step ∈ chain, step.Unplaced call)
    (htarget : ∀ p q scope, target ⟨p, scope⟩ = target ⟨q, scope⟩) (p q : Nat) :
    Chain.composed call target p watched = Chain.composed call target q chain := by
  induction hwatched generalizing p q with
  | nil =>
    funext scope
    exact htarget p q scope
  | @step chain watched step _ ih =>
    have hrest := ih (fun other hother => hsteps other (List.mem_cons_of_mem _ hother)) (p + 1) (q + 1)
    unfold Chain.composed
    rw [hrest]
    exact (hsteps step List.mem_cons_self).apply (p + 1) (q + 1) _
  | trace _ ih =>
    rw [composed_trace]
    exact ih hsteps (p + 1) q

/-! ## Calls of a chain -/

/-- What it means that a chain calls an operation as the composition of its steps does. The world of the scope is
any type, such as one in which every step leaves a record of what it does: that result, arguments and world
are the same is to say that the effects are the same, in the same order. -/
structure Composes (chain : Chain ω τ) (call : Call) (target : Target ω τ) : Prop where
  /-- The call answers what the composition answers, and leaves the same scope. -/
  execute : chain.execute call target = composed call target 0 chain
  /-- Every entry of the `i`-th step finds the cursor at `i + 1`, and each of its proceedings, also a repeated
  one, is the composition of the steps after it. It leaves the cursor at `i`, from where it was entered. -/
  enters (i : Nat) (step : Interceptor ω τ) (scope : Scope ω) : chain[i]? = some step →
    chain.proceed call target (chain.length - i) ⟨i, scope⟩ =
      let (outcome, left) :=
        (step.around call).apply (i + 1) (composed call target (i + 1) (chain.drop (i + 1))) scope
      (outcome, ⟨i, left⟩)
  /-- Behind the last step is the operation, and it finds the cursor at the end. -/
  reaches (scope : Scope ω) : chain.proceed call target 0 ⟨chain.length, scope⟩ =
    let (outcome, left) := target ⟨chain.length, scope⟩
    (outcome, ⟨chain.length, left⟩)
  /-- No proceeding moves the cursor, whether it succeeds or fails. -/
  restores (depth : Nat) (i : Invocation ω) : (chain.proceed call target depth i).2.position = i.position
  /-- Steps and operation can be told beforehand which positions they will find. -/
  positions : Chain.execute (chain.mapIdx fun i step => step.told (i + 1)) call
    (fun i => target { i with position := chain.length }) = chain.execute call target
  /-- Tracing steps change nothing for steps and an operation that do not go by their positions. -/
  traces (watched : Chain ω τ) : Watched chain watched → (∀ step ∈ chain, step.Unplaced call) →
    (∀ p q scope, target ⟨p, scope⟩ = target ⟨q, scope⟩) →
    watched.execute call target = chain.execute call target

/-- Every chain calls every operation as the composition of its steps does, whatever the steps do: rewrite the
arguments, change the world, proceed not at all, once or many times, and answer what they like. -/
theorem composes (chain : Chain ω τ) (call : Call) (target : Target ω τ) : Composes chain call target := by
  constructor
  case execute => exact execute_eq_composed call target chain
  case enters =>
    intro i step scope hstep
    obtain ⟨hi, -⟩ := List.getElem?_eq_some_iff.mp hstep
    rw [proceed_eq call target chain (by omega), composed_drop call target hstep]
  case reaches => intro scope; rfl
  case restores => exact position_proceed call target chain
  case positions =>
    have htold := composed_told call target 0 chain
    simp only [Nat.zero_add] at htold
    rw [execute_eq_composed, execute_eq_composed, htold]
  case traces =>
    intro watched hwatched hsteps htarget
    rw [execute_eq_composed, execute_eq_composed]
    exact hwatched.composed hsteps htarget 0 0

end Chain

end Demarcation
