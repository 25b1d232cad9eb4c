/-
Bodies wrapped in a scope. A template and a transactional step treat a body alike: they differ in what the
body is given, and in the failures that roll it back.
-/
import Demarcation.Interceptor.Transaction
import Demarcation.Template
import Demarcation.Proofs.Manager.Completing

namespace Demarcation

open Session Manager

variable {σ ρ ς τ : Type}

/-- A body that runs in a scope, given the status of the scope. -/
abbrev Body (σ ρ ς τ : Type) := StatusId → StateM (Session σ ρ ς) (Outcome τ)

/-- Running a body in a scope of its own: what is answered, and which session is left. -/
structure Wraps (m : Manager σ ρ ς) (c : ContextIndex) (d : Definition) (rollsBack : Failure → Bool)
    (body : Body σ ρ ς τ) (run : StateM (Session σ ρ ς) (Outcome τ)) : Prop where
  /-- A scope that cannot be opened is answered with the error, and the body is not run. -/
  refused {s s₁ : Session σ ρ ς} {e : TransactionError} : m.getTransaction c d s = (.error e, s₁) →
    run s = (.error (.transaction e), s₁)
  /-- A result is committed, and answered if the commit succeeds. -/
  succeeded {s s₁ s₂ : Session σ ρ ς} {t : StatusId} {v : τ} : m.getTransaction c d s = (.ok t, s₁) →
    body t s₁ = (.ok v, s₂) →
    run s = (((m.commit c t s₂).1.mapError .transaction).map fun _ => v, (m.commit c t s₂).2.forget t)
  /-- A failure is answered whatever becomes of the scope. -/
  failed {s s₁ s₂ : Session σ ρ ς} {t : StatusId} {f : Failure} : m.getTransaction c d s = (.ok t, s₁) →
    body t s₁ = (.error f, s₂) →
    run s = (.error f, (if rollsBack f then m.rollback c t s₂ else m.commit c t s₂).2.forget t)

/-- Whether the scope of a body that ended with an outcome is committed. -/
def commits (rollsBack : Failure → Bool) : Outcome τ → Bool
  | .ok _ => true
  | .error f => !rollsBack f

theorem Wraps.session {m : Manager σ ρ ς} {c : ContextIndex} {d : Definition} {rollsBack : Failure → Bool}
    {body : Body σ ρ ς τ} {run : StateM (Session σ ρ ς) (Outcome τ)} {s s₁ : Session σ ρ ς} {t : StatusId}
    (hw : Wraps m c d rollsBack body run) (hopened : m.getTransaction c d s = (.ok t, s₁)) :
    (run s).2 = (m.conclude (commits rollsBack (body t s₁).1) c t (body t s₁).2).2.forget t := by
  rcases hended : body t s₁ with ⟨f | v, s₂⟩
  · rw [hw.failed hopened hended]
    show _ = (m.conclude (!rollsBack f) c t s₂).2.forget t
    cases rollsBack f <;> rfl
  · rw [hw.succeeded hopened hended]
    rfl

/-! ## Templates -/

section Templates

variable (m : Manager σ ρ ς) (c : ContextIndex) (d : Definition) (body : Body σ ρ ς τ)

theorem execute_eq (s : Session σ ρ ς) :
    Template.execute ⟨m, d⟩ .whole c body s =
      match m.getTransaction c d s with
      | (.error e, s₁) => (.error (.transaction e), s₁)
      | (.ok t, s₁) => Template.complete m c t (body t s₁).1 (body t s₁).2 := by
  unfold Template.execute
  rw [step_bind, show Slot.whole.run (m.getTransaction c d) s = m.getTransaction c d s from rfl]
  rcases m.getTransaction c d s with ⟨_ | _, _⟩ <;> rfl

/-- A template rolls back after every failure. -/
theorem template_wraps : Wraps m c d (fun _ => true) body (Template.execute ⟨m, d⟩ .whole c body) := by
  refine ⟨?_, ?_, ?_⟩
  · intro s s₁ e hopened
    rw [execute_eq, hopened]
  · intro s s₁ s₂ t v hopened hbody
    rw [execute_eq, hopened]
    show Template.complete m c t (body t s₁).1 (body t s₁).2 = _
    rw [hbody]
    rcases hcommit : m.commit c t s₂ with ⟨e | ⟨⟩, s₃⟩ <;> exact (step_bind_of (step_bind_of hcommit)).trans rfl
  · intro s s₁ s₂ t f hopened hbody
    rw [execute_eq, hopened]
    show Template.complete m c t (body t s₁).1 (body t s₁).2 = _
    rw [hbody]
    rfl

end Templates

/-! ## Transactional steps -/

/-- Calls an operation with a transactional step around it. -/
def Manager.intercepted (m : Manager σ ρ ς) (c : ContextIndex) (source : AttributeSource) (operation : Operation)
    (body : StateM (Session σ ρ ς) (Outcome τ)) : StateM (Session σ ρ ς) (Outcome τ) := fun s =>
  let (outcome, scope) := Chain.execute [Interceptor.transactional .whole m source] { operation, context := c }
    (fun i => ((body i.scope.world).1, { i.scope with world := (body i.scope.world).2 })) ⟨[], s⟩
  (outcome, scope.world)

/-- A failure is committed exactly if the first rule that recognizes it says so. -/
theorem Attribute.rollsBackOn_eq_false {a : Attribute} {f : Failure} :
    a.rollsBackOn f = false ↔ ∃ x, a.rules.find? (fun r => r.matcher.accepts f) = some (.commitOn x) := by
  unfold rollsBackOn
  cases a.rules.find? fun r => r.matcher.accepts f with
  | none => simp
  | some r => cases r <;> simp [RollbackRule.rollsBack]

section Steps

variable (m : Manager σ ρ ς) (c : ContextIndex) {source : AttributeSource} {operation : Operation}
  (body : StateM (Session σ ρ ς) (Outcome τ))

/-- A step that works on the session goes on with the answer, in the session that is left. -/
theorem run_within {α β ω : Type} (proceedWith : Invocation ω → Outcome τ × Invocation ω) (op : ω → α × ω)
    (next : α → Advice ω τ β) (i : Invocation ω) :
    (Advice.within .whole op >>= next).run proceedWith i =
      (next (op i.scope.world).1).run proceedWith
        { i with scope := { i.scope with world := (op i.scope.world).2 } } := rfl

/-- An operation that the source does not know runs by itself. -/
theorem intercepted_unknown (hsource : source operation = none) : m.intercepted c source operation body = body := by
  have haround : (Interceptor.transactional (τ := τ) .whole m source).around { operation, context := c } =
      .proceeding := by
    unfold Interceptor.transactional
    simp only [hsource]
  funext s
  unfold Manager.intercepted Chain.execute Chain.proceed
  simp only [List.length_singleton, List.getElem?_cons_zero, haround]
  rfl

/-- What a step does around an operation that the source knows. -/
theorem around_transactional {a : Attribute} (hsource : source operation = some a) :
    (Interceptor.transactional (τ := τ) .whole m source).around { operation, context := c } = (do
      match ← Advice.within .whole (m.getTransaction c (a.definition.withName operation.name)) with
      | .error e => pure (.error (.transaction e))
      | .ok t =>
        let outcome ← Advice.proceeding
        let completed ← Advice.within .whole (Interceptor.completeFor m c t a outcome)
        pure (Interceptor.answer outcome completed)) := by
  unfold Interceptor.transactional
  dsimp only
  split
  · rename_i hnone
    rw [hsource] at hnone
    cases hnone
  · rename_i a' hsome
    obtain rfl : a = a' := Option.some.inj (hsource.symm.trans hsome)
    rfl

theorem intercepted_eq {a : Attribute} (hsource : source operation = some a) (s : Session σ ρ ς) :
    m.intercepted c source operation body s =
      match m.getTransaction c (a.definition.withName operation.name) s with
      | (.error e, s₁) => (.error (.transaction e), s₁)
      | (.ok t, s₁) =>
        (Interceptor.answer (body s₁).1 (Interceptor.completeFor m c t a (body s₁).1 (body s₁).2).1,
          (Interceptor.completeFor m c t a (body s₁).1 (body s₁).2).2) := by
  unfold Manager.intercepted Chain.execute Chain.proceed
  simp only [List.length_singleton, List.getElem?_cons_zero, around_transactional m c hsource, run_within]
  rcases m.getTransaction c (a.definition.withName operation.name) s with ⟨_ | _, _⟩ <;> rfl

theorem intercepted_wraps {a : Attribute} (hsource : source operation = some a) :
    Wraps m c (a.definition.withName operation.name) a.rollsBackOn (fun _ => body)
      (m.intercepted c source operation body) := by
  refine ⟨?_, ?_, ?_⟩
  · intro s s₁ e hopened
    rw [intercepted_eq m c body hsource, hopened]
  · intro s s₁ s₂ t v hopened hbody
    rw [intercepted_eq m c body hsource, hopened]
    dsimp only at hbody ⊢
    rw [hbody]
    have hcompleted : Interceptor.completeFor m c t a (.ok v) s₂ =
        ((m.commit c t s₂).1, (m.commit c t s₂).2.forget t) := rfl
    rw [hcompleted]
    cases (m.commit c t s₂).1 <;> rfl
  · intro s s₁ s₂ t f hopened hbody
    rw [intercepted_eq m c body hsource, hopened]
    dsimp only at hbody ⊢
    rw [hbody]
    have hcompleted : (Interceptor.completeFor m c t a (.error f : Outcome τ) s₂).2 =
        (if a.rollsBackOn f then m.rollback c t s₂ else m.commit c t s₂).2.forget t := by
      unfold Interceptor.completeFor
      dsimp only
      cases a.rollsBackOn f <;> rfl
    rw [hcompleted]
    rfl

end Steps

end Demarcation
