/-
What a translating step does to the failures that come up a chain. It invents none and loses none: results and
failures of the contract pass untouched, without asking the translator; what the translator does not understand
passes too; and what it translates keeps a source. Translating the failures of a store a second time changes
nothing.
-/
import Demarcation.Interceptor.Translation
import Demarcation.Proofs.Composition

namespace Demarcation

variable {ω τ : Type}

/-! ## The answer of a translating step -/

/-- What a translating step answers and which world it leaves, for the outcome and the world that the rest of
the call left to it. The translator is asked in that world, and asking may change it. -/
inductive Translates (always : Bool) (ask : Failure → ω → Option DataAccessError × ω) (o : Operation) :
    Outcome τ → ω → Outcome τ → ω → Prop
  | result {v : τ} {w : ω} : Translates always ask o (.ok v) w (.ok v) w
  /-- A failure of the contract. The translator is not asked. -/
  | declared {f : Failure} {w : ω} (off : always = false) (declares : o.declares f = true) :
    Translates always ask o (.error f) w (.error f) w
  /-- The translator has no answer. -/
  | unknown {f : Failure} {w w' : ω} (asks : always = true ∨ o.declares f = false)
    (answer : ask f w = (none, w')) : Translates always ask o (.error f) w (.error f) w'
  /-- The translator has an answer with a source. -/
  | sourced {f s : Failure} {e : DataAccessError} {w w' : ω} (asks : always = true ∨ o.declares f = false)
    (answer : ask f w = (some e, w')) (source : e.source = some s) :
    Translates always ask o (.error f) w (.error (.dataAccess e)) w'
  /-- The translator has an answer without a source. -/
  | unsourced {f : Failure} {e : DataAccessError} {w w' : ω} (asks : always = true ∨ o.declares f = false)
    (answer : ask f w = (some e, w')) (source : e.source = none) :
    Translates always ask o (.error f) w (.error (.dataAccess { e with source := some f })) w'

section Answers

variable {always : Bool} {ask : Failure → ω → Option DataAccessError × ω} {o : Operation} {f : Failure}
  {answer : Outcome τ} {w w' : ω}

/-- The answer of a translator keeps its source, or else has the failure for its source. -/
theorem translated_some (f : Failure) (e : DataAccessError) :
    (∃ s, e.source = some s ∧ Translator.translated f (some e) = .dataAccess e) ∨
    (e.source = none ∧ Translator.translated f (some e) = .dataAccess { e with source := some f }) := by
  rcases e with ⟨kind, text, _ | s⟩
  · exact .inr ⟨rfl, rfl⟩
  · exact .inl ⟨s, rfl, rfl⟩

/-- A failure passes without a question, or the translator is asked. -/
theorem passes_or_asks (always : Bool) (o : Operation) (f : Failure) :
    (always = false ∧ o.declares f = true) ∨ always = true ∨ o.declares f = false := by
  cases always <;> simp

theorem translates_of_declared (off : always = false) (declares : o.declares f = true) :
    Translates always ask o (.error f) w answer w' ↔ answer = .error f ∧ w' = w := by
  have hasks : ¬ (always = true ∨ o.declares f = false) := by simp [off, declares]
  constructor
  · rintro (_ | _ | ⟨asks, -⟩ | ⟨asks, -⟩ | ⟨asks, -⟩)
    · exact ⟨rfl, rfl⟩
    · exact absurd asks hasks
    · exact absurd asks hasks
    · exact absurd asks hasks
  · rintro ⟨rfl, rfl⟩
    exact .declared off declares

theorem translates_of_asks (asks : always = true ∨ o.declares f = false) :
    Translates always ask o (.error f) w answer w' ↔
      answer = .error (Translator.translated f (ask f w).1) ∧ w' = (ask f w).2 := by
  rcases hasked : ask f w with ⟨_ | e, w₁⟩
  · constructor
    · rintro (_ | ⟨off, declares⟩ | ⟨-, answered⟩ | ⟨-, answered⟩ | ⟨-, answered⟩)
      · simp [off, declares] at asks
      · cases hasked.symm.trans answered
        exact ⟨rfl, rfl⟩
      · cases hasked.symm.trans answered
      · cases hasked.symm.trans answered
    · rintro ⟨rfl, rfl⟩
      exact .unknown asks hasked
  · constructor
    · rintro (_ | ⟨off, declares⟩ | ⟨-, answered⟩ | ⟨-, answered, source⟩ | ⟨-, answered, source⟩)
      · simp [off, declares] at asks
      · cases hasked.symm.trans answered
      · cases hasked.symm.trans answered
        cases e
        cases source
        exact ⟨rfl, rfl⟩
      · cases hasked.symm.trans answered
        cases e
        cases source
        exact ⟨rfl, rfl⟩
    · rintro ⟨rfl, rfl⟩
      rcases translated_some f e with ⟨s, source, heq⟩ | ⟨source, heq⟩
      · rw [heq]
        exact .sourced asks hasked source
      · rw [heq]
        exact .unsourced asks hasked source

end Answers

namespace Interceptor

section Asking

variable (p : Nat) {always : Bool} {ask : Failure → ω → Option DataAccessError × ω} {call : Call}
  {rest : Rest ω τ} {scope : Scope ω} {arguments : List Value} {w : ω}

theorem apply_asking_ok {v : τ} (hrest : rest scope = (.ok v, ⟨arguments, w⟩)) :
    ((asking always ask).around call).apply p rest scope = (.ok v, ⟨arguments, w⟩) := by
  show Advice.apply p rest _ (rest scope).2 = _
  rw [hrest]
  rfl

theorem apply_asking_error {f : Failure} (hrest : rest scope = (.error f, ⟨arguments, w⟩)) :
    ((asking always ask).around call).apply p rest scope =
      if !always && call.operation.declares f then (.error f, ⟨arguments, w⟩)
      else (.error (Translator.translated f (ask f w).1), ⟨arguments, (ask f w).2⟩) := by
  show Advice.apply p rest _ (rest scope).2 = _
  rw [hrest]
  show Advice.apply p rest (if !always && call.operation.declares f then .done (Except.error f)
    else (Advice.onWorld (ask f)).andThen fun answer => .done (Except.error (Translator.translated f answer))) _ = _
  split <;> rfl

theorem apply_asking_declared {f : Failure} (hrest : rest scope = (.error f, ⟨arguments, w⟩)) (off : always = false)
    (declares : call.operation.declares f = true) :
    ((asking always ask).around call).apply p rest scope = (.error f, ⟨arguments, w⟩) := by
  rw [apply_asking_error p hrest, if_pos (by simp [off, declares])]

theorem apply_asking_asks {f : Failure} (hrest : rest scope = (.error f, ⟨arguments, w⟩))
    (asks : always = true ∨ call.operation.declares f = false) :
    ((asking always ask).around call).apply p rest scope =
      (.error (Translator.translated f (ask f w).1), ⟨arguments, (ask f w).2⟩) := by
  rw [apply_asking_error p hrest, if_neg (by rcases asks with on | undeclared <;> simp [*])]

/-- The step answers what it has to, and nothing else would do. -/
theorem translates_iff {outcome answer : Outcome τ} {w' : ω} (hrest : rest scope = (outcome, ⟨arguments, w⟩)) :
    Translates always ask call.operation outcome w answer w' ↔
      ((asking always ask).around call).apply p rest scope = (answer, ⟨arguments, w'⟩) := by
  cases outcome with
  | ok v =>
    rw [apply_asking_ok p hrest]
    constructor
    · rintro ⟨⟩
      rfl
    · rintro ⟨⟩
      exact .result
  | error f =>
    rcases passes_or_asks always call.operation f with ⟨off, declares⟩ | asks
    · rw [apply_asking_declared p hrest off declares, translates_of_declared off declares]
      simp [eq_comm]
    · rw [apply_asking_asks p hrest asks, translates_of_asks asks]
      simp [eq_comm]

end Asking

/-! ## Translating twice -/

/-- What is translated once is a data-access error, or is not understood. -/
theorem translateIfNecessary_twice {t : Translator} (hsilent : ∀ e, t.translate (.dataAccess e) = none) (f : Failure) :
    t.translateIfNecessary (t.translateIfNecessary f) = t.translateIfNecessary f := by
  unfold Translator.translateIfNecessary
  cases hanswer : t.translate f with
  | none => simp [Translator.translated, hanswer]
  | some e => simp [Translator.translated, hsilent]

/-- A translator that understands no data-access error has nothing to say about what it answered before. -/
theorem apply_translatingBy_twice {t : Translator} (hsilent : ∀ e, t.translate (.dataAccess e) = none) (always : Bool)
    (call : Call) (p q : Nat) (rest : Rest ω τ) :
    ((translatingBy always t).around call).apply p (((translatingBy always t).around call).apply q rest) =
      ((translatingBy always t).around call).apply p rest := by
  funext scope
  unfold translatingBy
  rcases hrest : rest scope with ⟨f | v, arguments, w⟩
  · rcases passes_or_asks always call.operation f with ⟨off, declares⟩ | asks
    · rw [apply_asking_declared p hrest off declares]
      exact apply_asking_declared p (apply_asking_declared q hrest off declares) off declares
    · have hfirst : ((asking always fun f w => (t.translate f, w)).around call).apply q rest scope =
          (.error (t.translateIfNecessary f), ⟨arguments, w⟩) := apply_asking_asks q hrest asks
      rw [apply_asking_asks p hrest asks]
      rcases passes_or_asks always call.operation (t.translateIfNecessary f) with ⟨off, declares⟩ | again
      · exact apply_asking_declared p hfirst off declares
      · rw [apply_asking_asks p hfirst again]
        exact congrArg (fun f => (Except.error f, _)) (translateIfNecessary_twice hsilent f)
  · rw [apply_asking_ok p hrest, apply_asking_ok p (apply_asking_ok q hrest)]

end Interceptor

theorem storage_silent (e : DataAccessError) : Translator.storage.translate (.dataAccess e) = none := rfl

/-! ## Steps behind an added one -/

namespace Advice

theorem told_told (p q : Nat) {α : Type} (a : Advice ω τ α) : (a.told p).told q = a.told p := by
  induction a with
  | done a => rfl
  | position next ih => exact ih p
  | read next ih => exact congrArg read (funext ih)
  | write scope next ih => exact congrArg (write scope) ih
  | proceed next ih => exact congrArg proceed (funext ih)

end Advice

namespace Chain

variable {call : Call} {target : Target ω τ}

theorem watched_refl : ∀ chain : Chain ω τ, Watched chain chain
  | [] => .nil
  | step :: chain => .step step (watched_refl chain)

/-- Where nothing goes by its position, it does not matter at which the steps stand. -/
theorem composed_shift {chain : Chain ω τ} (hsteps : ∀ step ∈ chain, step.Unplaced call)
    (htarget : ∀ p q scope, target ⟨p, scope⟩ = target ⟨q, scope⟩) (p q : Nat) :
    composed call target p chain = composed call target q chain :=
  (watched_refl chain).composed hsteps htarget p q

/-- Chains that differ behind their first steps do the same if they do the same from there on. -/
theorem composed_append_congr {target' : Target ω τ} {chain chain' : Chain ω τ} (outer : Chain ω τ) {p : Nat}
    (h : composed call target (p + outer.length) chain = composed call target' (p + outer.length) chain') :
    composed call target p (outer ++ chain) = composed call target' p (outer ++ chain') := by
  induction outer generalizing p with
  | nil => exact h
  | cons step outer ih =>
    have hrest := @ih (p + 1) (by rwa [show p + 1 + outer.length = p + (step :: outer).length by simp; omega])
    exact congrArg (fun rest => (step.around call).apply (p + 1) rest) hrest

/-- The chain with steps that are told their places, the first of them the place `p`. -/
def placed (p : Nat) (chain : Chain ω τ) : Chain ω τ := chain.mapIdx fun i step => step.told (p + i + 1)

theorem unplaced_of_placed {p : Nat} {chain : Chain ω τ} {step : Interceptor ω τ} (h : step ∈ placed p chain) :
    step.Unplaced call := by
  obtain ⟨i, hi, rfl⟩ := List.mem_mapIdx.1 h
  intro q r
  exact (Advice.told_told ..).trans (Advice.told_told ..).symm

/-- Steps and operation that are told their places do at any place what they do at those. -/
theorem composed_placed (chain : Chain ω τ) (p q : Nat) :
    composed call (fun i => target { i with position := q + chain.length }) p (placed q chain) =
      composed call target q chain :=
  (composed_shift (fun _ => unplaced_of_placed) (fun _ _ _ => rfl) p q).trans (composed_told call target q chain)

/-- Of two translating steps one behind the other, one can be left out. -/
theorem composed_twice {t : Translator} (hsilent : ∀ e, t.translate (.dataAccess e) = none) (always : Bool)
    {target' : Target ω τ} {chain chain' : Chain ω τ} {p : Nat}
    (h : composed call target (p + 2) chain = composed call target' (p + 1) chain') :
    composed call target p (.translatingBy always t :: .translatingBy always t :: chain) =
      composed call target' p (.translatingBy always t :: chain') :=
  (Interceptor.apply_translatingBy_twice hsilent always call (p + 1) (p + 2) _).trans
    (congrArg (fun rest => ((Interceptor.translatingBy always t).around call).apply (p + 1) rest) h)

end Chain

/-! ## Main statement -/

/-- For any operation and any translator, whatever it does when asked, and at any place of any chain: the step
answers what is due to the outcome of the steps behind it, and leaves the rest as they left it. Of two steps
one behind the other that translate the failures of stores, one can be left out; the steps and the operation
behind them may even be told the places that they have without it. -/
theorem translation_exact (always : Bool) (call : Call) (target : Target ω τ) :
    (∀ (chain : Chain ω τ) (ask : Failure → ω → Option DataAccessError × ω) (i : Nat) (scope : Scope ω)
      (outcome answer : Outcome τ) (arguments : List Value) (w w' : ω),
      chain[i]? = some (.asking always ask) →
      chain.proceed call target (chain.length - (i + 1)) ⟨i + 1, scope⟩ = (outcome, ⟨i + 1, arguments, w⟩) →
      (Translates always ask call.operation outcome w answer w' ↔
        chain.proceed call target (chain.length - i) ⟨i, scope⟩ = (answer, ⟨i, arguments, w'⟩))) ∧
    (∀ outer inner : Chain ω τ,
      Chain.execute (outer ++ .translatingBy always .storage :: .translatingBy always .storage ::
          Chain.placed (outer.length + 1) inner) call
        (fun i => target { i with position := outer.length + 1 + inner.length }) =
      Chain.execute (outer ++ .translatingBy always .storage :: inner) call target) ∧
    (∀ outer inner : Chain ω τ, (∀ step ∈ inner, step.Unplaced call) →
      (∀ p q scope, target ⟨p, scope⟩ = target ⟨q, scope⟩) →
      Chain.execute (outer ++ .translatingBy always .storage :: .translatingBy always .storage :: inner) call target =
      Chain.execute (outer ++ .translatingBy always .storage :: inner) call target) := by
  refine ⟨?answer, ?placed, ?unplaced⟩
  case answer =>
    intro chain ask i scope outcome answer arguments w w' hstep hrest
    obtain ⟨hi, -⟩ := List.getElem?_eq_some_iff.1 hstep
    rw [Chain.proceed_eq call target chain (by omega)] at hrest ⊢
    rw [Chain.composed_drop call target hstep]
    have hbehind : Chain.composed call target (i + 1) (chain.drop (i + 1)) scope = (outcome, ⟨arguments, w⟩) := by
      simp only [Prod.mk.injEq, Invocation.mk.injEq, true_and] at hrest
      exact Prod.ext hrest.1 hrest.2
    rw [Interceptor.translates_iff (i + 1) hbehind]
    simp only [Prod.ext_iff, Invocation.mk.injEq, true_and]
  case placed =>
    intro outer inner
    rw [Chain.execute_eq_composed, Chain.execute_eq_composed]
    apply Chain.composed_append_congr
    rw [Nat.zero_add]
    exact Chain.composed_twice storage_silent always (Chain.composed_placed inner _ _)
  case unplaced =>
    intro outer inner hsteps htarget
    rw [Chain.execute_eq_composed, Chain.execute_eq_composed]
    apply Chain.composed_append_congr
    exact Chain.composed_twice storage_silent always (Chain.composed_shift hsteps htarget _ _)

/-- The translator of stores, in a world that counts how often it is asked. -/
def askCounted (f : Failure) (n : Nat) : Option DataAccessError × Nat := (Translator.storage.translate f, n + 1)

/-- An operation whose contract has the errors of stores. -/
def loading : Operation := ⟨"load", [.ofType .storage]⟩

/-- Fails as a busy store does, and leaves everything as it is. -/
def busyTarget : Target ω Unit := fun i => (.error (.storage (.busy "ledger")), i.scope)

/-- A failure of the contract passes without a question, and with `always` it is translated after one; two steps
around a tracing one do what one does. -/
theorem translation_exact_declared :
    Chain.proceed [.asking false askCounted, .trace] { operation := loading } busyTarget 2 ⟨0, [], 0⟩ =
      (.error (.storage (.busy "ledger")), ⟨0, [], 0⟩) ∧
    Chain.proceed [.asking true askCounted, .trace] { operation := loading } busyTarget 2 ⟨0, [], 0⟩ =
      (.error (.dataAccess ⟨.transient, "store ledger is busy", some (.storage (.busy "ledger"))⟩), ⟨0, [], 1⟩) ∧
    Chain.execute [.trace, .translatingBy true .storage, .translatingBy true .storage, .trace]
        { operation := loading } busyTarget (⟨[], 0⟩ : Scope Nat) =
      Chain.execute [.trace, .translatingBy true .storage, .trace] { operation := loading } busyTarget ⟨[], 0⟩ := by
  obtain ⟨hdeclared, -, -⟩ := translation_exact false { operation := loading } (@busyTarget Nat)
  obtain ⟨halways, -, htwice⟩ := translation_exact true { operation := loading } (@busyTarget Nat)
  have hbehind : ∀ step : Interceptor Nat Unit, Chain.proceed [step, .trace] { operation := loading } busyTarget 1
      ⟨1, [], 0⟩ = (.error (.storage (.busy "ledger")), ⟨1, [], 0⟩) := fun _ => rfl
  refine ⟨?_, ?_, ?_⟩
  · exact (hdeclared _ askCounted 0 _ _ _ _ _ _ rfl (hbehind _)).1 (.declared rfl rfl)
  · have hanswer : askCounted (.storage (.busy "ledger")) 0 =
        (some ⟨.transient, "store ledger is busy", none⟩, 1) := rfl
    exact (halways _ askCounted 0 _ _ _ _ _ _ rfl (hbehind _)).1 (.unsourced (.inl rfl) hanswer rfl)
  · have htraces : ∀ step ∈ [(Interceptor.trace : Interceptor Nat Unit)], step.Unplaced { operation := loading } := by
      simp only [List.forall_mem_singleton]
      exact fun _ _ => rfl
    exact congrFun (htwice [.trace] [.trace] htraces fun _ _ _ => rfl) _

end Demarcation
