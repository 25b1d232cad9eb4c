/-
What a registry answers, told by its history. A new registry takes calls in any order and for any
keys and types, and writes down each call with its answer. What is bound under a key is then the
holder of the last bind on it that succeeded, as long as nothing has taken it away since, and every
look-up and unbinding answers by that holder alone.
-/
import Mathlib.Data.List.Induction
import Demarcation.Proofs.Registry.Calls

namespace Demarcation

variable {η : Type}

namespace Registry

variable (r : Registry η) (view : HolderView η) (key : ResourceKey)

/-! ## When an operation answers a holder -/

theorem get_answers_iff (expected : HolderKind) (h : η) :
    (r.get view expected key).1 = .ok (some h) ↔
      r.binding? key = some h ∧ view.isVoid h = false ∧ view.kind h = expected := by
  cases hb : r.binding? key with
  | none =>
    rw [get_unbound r view hb]
    simp
  | some held =>
    cases hv : view.isVoid held with
    | true =>
      rw [get_void r view hb hv]
      simp only [Except.ok.injEq, reduceCtorEq, Option.some.injEq, false_iff, not_and]
      rintro rfl hlive
      rw [hv] at hlive
      cases hlive
    | false =>
      rw [get_live r view hb hv]
      by_cases hk : view.kind held = expected
      · simp only [if_pos hk, Except.ok.injEq, Option.some.injEq]
        constructor
        · rintro rfl; exact ⟨rfl, hv, hk⟩
        · exact And.left
      · simp only [if_neg hk, reduceCtorEq, Option.some.injEq, false_iff, not_and]
        rintro rfl - hkind
        exact hk hkind

theorem unbindIfPossible_answers_iff (expected : HolderKind) (h : η) :
    (r.unbindIfPossible view expected key).1 = .ok (some h) ↔
      r.binding? key = some h ∧ view.isVoid h = false ∧ view.kind h = expected := by
  cases hb : r.binding? key with
  | none =>
    rw [unbindIfPossible_unbound r view hb]
    simp
  | some held =>
    by_cases hk : view.kind held = expected
    · rw [unbindIfPossible_own r view hb hk]
      cases hv : view.isVoid held with
      | true =>
        simp only [if_true, Except.ok.injEq, reduceCtorEq, Option.some.injEq, false_iff, not_and]
        rintro rfl hlive
        rw [hv] at hlive
        cases hlive
      | false =>
        simp only [Bool.false_eq_true, if_false, Except.ok.injEq, Option.some.injEq]
        constructor
        · rintro rfl; exact ⟨rfl, hv, hk⟩
        · exact And.left
    · rw [unbindIfPossible_foreign r view hb hk]
      simp only [reduceCtorEq, Option.some.injEq, false_iff, not_and]
      rintro rfl - hkind
      exact hk hkind

/-- Only the answers differ where nothing is unbound. -/
theorem unbind_eq_ok_iff (expected : HolderKind) (h : η) :
    (r.unbind view expected key).1 = .ok h ↔
      (r.unbindIfPossible view expected key).1 = .ok (some h) := by
  unfold unbind
  split <;> rename_i heq <;> rw [heq] <;> simp

theorem bind_fails_iff (h : η) :
    (∃ e, r.bind view key h = .error e) ↔
      ∃ held, r.binding? key = some held ∧ view.isVoid held = false := by
  cases hb : r.binding? key with
  | none =>
    rw [bind_of_not_has r view (has_of_unbound r view hb)]
    simp
  | some held =>
    cases hv : view.isVoid held with
    | true =>
      rw [bind_of_not_has r view (by simp [has, hb, hv])]
      simp [hv]
    | false =>
      rw [bind_of_has r view (by simp [has, hb, hv])]
      simp [hv]

/-! ## Failures -/

theorem get_error_unchanged {expected : HolderKind} {e : RegistryError}
    (hfail : (r.get view expected key).1 = .error e) : (r.get view expected key).2 = r := by
  cases hb : r.binding? key with
  | none => rw [get_unbound r view hb]
  | some held =>
    cases hv : view.isVoid held with
    | true =>
      rw [get_void r view hb hv] at hfail
      cases hfail
    | false => rw [get_live r view hb hv]

theorem unbindIfPossible_error_unchanged {expected : HolderKind} {e : RegistryError}
    (hfail : (r.unbindIfPossible view expected key).1 = .error e) :
    (r.unbindIfPossible view expected key).2 = r := by
  cases hb : r.binding? key with
  | none => rw [unbindIfPossible_unbound r view hb]
  | some held =>
    by_cases hk : view.kind held = expected
    · rw [unbindIfPossible_own r view hb hk] at hfail
      cases hfail
    · rw [unbindIfPossible_foreign r view hb hk]

/-- An unbinding that failed found nothing live to remove, or failed as the other unbinding. -/
theorem unbind_error {expected : HolderKind} {e : RegistryError}
    (hfail : (r.unbind view expected key).1 = .error e) :
    e = .notBound key (r.unbind view expected key).2.context ∨
      (r.unbindIfPossible view expected key).1 = .error e := by
  unfold unbind at hfail ⊢
  split at hfail
  · rename_i heq
    rw [heq]
    cases hfail
    exact .inr rfl
  · cases hfail
  · rename_i heq
    rw [heq]
    cases hfail
    exact .inl rfl

end Registry

theorem RegistryReply.ofLookup_failed {a : Except RegistryError (Option η)} {e : RegistryError}
    (h : RegistryReply.ofLookup a = .failed e) : a = .error e := by
  cases a with
  | error e' => cases h; rfl
  | ok held => cases h

namespace RegistryCall

variable (call : RegistryCall η) (view : HolderView η) (r : Registry η)

/-! ## What a call leaves alone -/

theorem bind_failed_unchanged {k : ResourceKey} {h : η} {e : RegistryError}
    (hfail : ((bind k h).run view r).1 = .failed e) : ((bind k h).run view r).2 = r := by
  simp only [run] at hfail ⊢
  split at hfail
  · cases hfail
  · rfl

/-- A mismatch is only answered where the binding stays. -/
theorem mismatch_unchanged {k : ResourceKey} {context : ContextId} {expected : String}
    (hfail : (call.run view r).1 = .failed (.holderTypeMismatch k context expected)) :
    (call.run view r).2 = r := by
  cases call with
  | has key => rfl
  | get kind key => exact r.get_error_unchanged view key (RegistryReply.ofLookup_failed hfail)
  | bind key h => exact bind_failed_unchanged view r hfail
  | unbind kind key =>
    have hmapped : (r.unbind view kind key).1.map some =
        .error (.holderTypeMismatch k context expected) := RegistryReply.ofLookup_failed hfail
    have herror : (r.unbind view kind key).1 =
        .error (.holderTypeMismatch k context expected) := by
      cases ha : (r.unbind view kind key).1 with
      | error e => rw [ha] at hmapped; cases hmapped; rfl
      | ok h => rw [ha] at hmapped; cases hmapped
    rcases r.unbind_error view key herror with hnot | hmismatch
    · cases hnot
    · exact (unbind_registry view r kind key).trans
        (r.unbindIfPossible_error_unchanged view key hmismatch)
  | unbindIfPossible kind key =>
    exact r.unbindIfPossible_error_unchanged view key (RegistryReply.ofLookup_failed hfail)
  | clear => cases hfail

end RegistryCall

/-! ## A registry with its history -/

/-- A call as it was made, and what it answered. -/
structure RegistryEvent (η : Type) where
  view : HolderView η
  call : RegistryCall η
  reply : RegistryReply η

/-- A registry and the calls that it has taken, the last one at the end. -/
structure RecordedRegistry (η : Type) where
  registry : Registry η
  history : List (RegistryEvent η) := []

namespace RecordedRegistry

def take (run : RecordedRegistry η) (asked : HolderView η × RegistryCall η) :
    RecordedRegistry η where
  registry := (asked.2.run asked.1 run.registry).2
  history := run.history ++ [⟨asked.1, asked.2, (asked.2.run asked.1 run.registry).1⟩]

/-- The new registry of a context after any calls. -/
def ofCalls (context : ContextId) (calls : List (HolderView η × RegistryCall η)) :
    RecordedRegistry η :=
  calls.foldl take { registry := { context } }

end RecordedRegistry

/-- The last bind of a key that succeeded bound this holder, and no call has taken it away since. -/
def BoundLast (history : List (RegistryEvent η)) (key : ResourceKey) (h : η) : Prop :=
  ∃ before event after, history = before ++ event :: after ∧
    event.call.binds? key event.reply = some h ∧
    ∀ later ∈ after, later.call.binds? key later.reply = none ∧
      later.call.removes later.view key h = false

theorem boundLast_concat (history : List (RegistryEvent η)) (event : RegistryEvent η)
    (key : ResourceKey) (h : η) :
    BoundLast (history ++ [event]) key h ↔
      event.call.binds? key event.reply = some h ∨
        event.call.binds? key event.reply = none ∧
          BoundLast history key h ∧ event.call.removes event.view key h = false := by
  constructor
  · rintro ⟨before, bound, after, hhist, hbinds, hlater⟩
    rcases List.eq_nil_or_concat after with rfl | ⟨front, last, rfl⟩
    · obtain ⟨-, heq⟩ := List.append_inj' hhist rfl
      cases heq
      exact .inl hbinds
    · rw [List.concat_eq_append] at hhist hlater
      rw [← List.cons_append, ← List.append_assoc] at hhist
      obtain ⟨rfl, heq⟩ := List.append_inj' hhist rfl
      cases heq
      obtain ⟨hnone, hkeeps⟩ := hlater event (by simp)
      refine .inr ⟨hnone, ⟨before, bound, front, rfl, hbinds, ?_⟩, hkeeps⟩
      intro later hin
      exact hlater later (List.mem_append_left _ hin)
  · rintro (hbinds | ⟨hnone, ⟨before, bound, after, rfl, hbinds, hlater⟩, hkeeps⟩)
    · exact ⟨history, event, [], rfl, hbinds, by simp⟩
    · refine ⟨before, bound, after ++ [event], by simp, hbinds, ?_⟩
      intro later hin
      rcases List.mem_append.1 hin with hin | hin
      · exact hlater later hin
      · rw [List.mem_singleton.1 hin]
        exact ⟨hnone, hkeeps⟩

theorem not_boundLast_nil (key : ResourceKey) (h : η) : ¬ BoundLast [] key h := by
  rintro ⟨before, event, after, hhist, -⟩
  simp at hhist

/-- What is bound under a key, read off the history. -/
theorem RecordedRegistry.binding?_iff (context : ContextId)
    (calls : List (HolderView η × RegistryCall η)) (key : ResourceKey) (h : η) :
    (ofCalls context calls).registry.binding? key = some h ↔
      BoundLast (ofCalls context calls).history key h := by
  induction calls using List.reverseRecOn with
  | nil =>
    constructor
    · intro hb; cases hb
    · intro hlast; exact absurd hlast (not_boundLast_nil key h)
  | append_singleton calls asked ih =>
    have hstep : ofCalls context (calls ++ [asked]) = (ofCalls context calls).take asked := by
      unfold ofCalls
      rw [List.foldl_append]
      rfl
    rw [hstep]
    unfold RecordedRegistry.take
    rw [boundLast_concat, ← ih]
    exact asked.2.binding?_run asked.1 _ key h

/-- The holder bound last under a key has not been removed and is not void. -/
def RecordedRegistry.BoundLive (run : RecordedRegistry η) (view : HolderView η)
    (key : ResourceKey) (h : η) : Prop :=
  BoundLast run.history key h ∧ view.isVoid h = false

/-- A registry is a map of single live bindings. However it was called, and whenever its holders
turned void: a holder is answered exactly if it was bound last under the key and has not been
removed since, is live now and of the type asked for; it is one at most. A bind fails exactly if
such a holder is live, and neither a bind that fails nor a mismatch changes anything. Only a clear
touches the bindings of other keys. -/
theorem registry_answers_last_bound (context : ContextId)
    (calls : List (HolderView η × RegistryCall η)) (view : HolderView η) (key : ResourceKey) :
    let run := RecordedRegistry.ofCalls context calls
    (∀ h h', BoundLast run.history key h → BoundLast run.history key h' → h' = h) ∧
    (∀ expected h, (run.registry.get view expected key).1 = .ok (some h) ↔
      run.BoundLive view key h ∧ view.kind h = expected) ∧
    (∀ expected h, (run.registry.unbind view expected key).1 = .ok h ↔
      run.BoundLive view key h ∧ view.kind h = expected) ∧
    (∀ expected h, (run.registry.unbindIfPossible view expected key).1 = .ok (some h) ↔
      run.BoundLive view key h ∧ view.kind h = expected) ∧
    (∀ h, (∃ e, run.registry.bind view key h = .error e) ↔
      ∃ held, run.BoundLive view key held) ∧
    (∀ h e, ((RegistryCall.bind key h).run view run.registry).1 = .failed e →
      ((RegistryCall.bind key h).run view run.registry).2 = run.registry) ∧
    (∀ (call : RegistryCall η) k context expected,
      (call.run view run.registry).1 = .failed (.holderTypeMismatch k context expected) →
      (call.run view run.registry).2 = run.registry) ∧
    (∀ (call : RegistryCall η) k, call.key? = some k → key ≠ k →
      (call.run view run.registry).2.binding? key = run.registry.binding? key) := by
  intro run
  have hbinding : ∀ h, run.registry.binding? key = some h ↔ BoundLast run.history key h :=
    RecordedRegistry.binding?_iff context calls key
  refine ⟨?unique, ?get, ?unbind, ?unbindIfPossible, ?bind, ?failed, ?mismatch, ?elsewhere⟩
  case unique =>
    intro h h' hlast hlast'
    rw [← hbinding] at hlast hlast'
    rw [hlast] at hlast'
    exact (Option.some.inj hlast').symm
  case get =>
    intro expected h
    rw [Registry.get_answers_iff, hbinding, RecordedRegistry.BoundLive, and_assoc]
  case unbind =>
    intro expected h
    rw [Registry.unbind_eq_ok_iff, Registry.unbindIfPossible_answers_iff, hbinding,
      RecordedRegistry.BoundLive, and_assoc]
  case unbindIfPossible =>
    intro expected h
    rw [Registry.unbindIfPossible_answers_iff, hbinding, RecordedRegistry.BoundLive, and_assoc]
  case bind =>
    intro h
    rw [Registry.bind_fails_iff]
    simp only [hbinding, RecordedRegistry.BoundLive]
  case failed =>
    intro h e hfail
    exact RegistryCall.bind_failed_unchanged view _ hfail
  case mismatch =>
    intro call k context expected hfail
    exact call.mismatch_unchanged view _ hfail
  case elsewhere =>
    intro call k hkey hne
    exact call.binding?_elsewhere view _ hkey hne

end Demarcation
