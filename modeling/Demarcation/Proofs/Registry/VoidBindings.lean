/-
A binding whose holder is void counts as absent. A registry with such a binding is compared with
the same one without it: call by call, and over any calls as long as the holder stays void. The
unbindings look at the type before they look at the holder, so that they see a void binding that
has another type than the one asked for.
-/
import Demarcation.Proofs.Registry.Calls
import Demarcation.Script.Registry

namespace Demarcation

variable {η : Type}

namespace Registry

variable (r : Registry η)

/-! ## Taking a binding away and changing another -/

theorem erase_comm (key k : ResourceKey) : (r.erase key).erase k = (r.erase k).erase key := by
  unfold erase
  simp only [List.filter_filter, Bool.and_comm]

theorem insert_comm_erase {key k : ResourceKey} (hne : k ≠ key) (h : η) :
    (r.erase key).insert k h = (r.insert k h).erase key := by
  unfold insert erase
  have hkeeps : ((k, h).1 != key) = true := by simpa using hne
  simp only [List.filter_append, List.filter_filter, List.filter_cons, hkeeps, if_true,
    List.filter_nil, Bool.and_comm]

theorem binding?_erase_self (key : ResourceKey) : (r.erase key).binding? key = none := by
  rw [binding?_erase, if_pos rfl]

theorem binding?_erase_of_ne {key k : ResourceKey} (hne : k ≠ key) :
    (r.erase key).binding? k = r.binding? k := by
  rw [binding?_erase, if_neg hne]

variable (view : HolderView η)

theorem has_of_binding? {key : ResourceKey} {h : η} (hb : r.binding? key = some h) :
    r.has view key = !view.isVoid h := by
  unfold has; rw [hb]

theorem has_erase_of_ne {key k : ResourceKey} (hne : k ≠ key) :
    (r.erase key).has view k = r.has view k := by
  unfold has; rw [binding?_erase_of_ne r hne]

/-! ## Operations on another key -/

theorem get_erase_of_ne {key k : ResourceKey} (hne : k ≠ key) (expected : HolderKind) :
    (r.erase key).get view expected k =
      ((r.get view expected k).1, (r.get view expected k).2.erase key) := by
  have hsame := binding?_erase_of_ne r hne
  cases hb : r.binding? k with
  | none =>
    rw [hb] at hsame
    rw [get_unbound _ view hb, get_unbound _ view hsame]
  | some held =>
    rw [hb] at hsame
    cases hv : view.isVoid held with
    | true => rw [get_void _ view hb hv, get_void _ view hsame hv, erase_comm]
    | false => rw [get_live _ view hb hv, get_live _ view hsame hv]; rfl

theorem unbindIfPossible_erase_of_ne {key k : ResourceKey} (hne : k ≠ key)
    (expected : HolderKind) :
    (r.erase key).unbindIfPossible view expected k =
      ((r.unbindIfPossible view expected k).1,
        (r.unbindIfPossible view expected k).2.erase key) := by
  have hsame := binding?_erase_of_ne r hne
  cases hb : r.binding? k with
  | none =>
    rw [hb] at hsame
    rw [unbindIfPossible_unbound _ view hb, unbindIfPossible_unbound _ view hsame]
  | some held =>
    rw [hb] at hsame
    by_cases hk : view.kind held = expected
    · rw [unbindIfPossible_own _ view hb hk, unbindIfPossible_own _ view hsame hk, erase_comm]
    · rw [unbindIfPossible_foreign _ view hb hk, unbindIfPossible_foreign _ view hsame hk]; rfl

theorem unbind_erase_of_ne {key k : ResourceKey} (hne : k ≠ key) (expected : HolderKind) :
    (r.erase key).unbind view expected k =
      ((r.unbind view expected k).1, (r.unbind view expected k).2.erase key) := by
  unfold unbind
  rw [unbindIfPossible_erase_of_ne r view hne]
  rcases r.unbindIfPossible view expected k with ⟨_ | _ | _, r'⟩ <;> rfl

end Registry

/-! ## Calls on a registry without a binding -/

namespace RegistryCall

variable (call : RegistryCall η) (view : HolderView η) (r : Registry η)

/-- A call that is not about a key does the same without its binding. -/
theorem run_erase {key k : ResourceKey} (hkey : call.key? = some k) (hne : k ≠ key) :
    call.run view (r.erase key) =
      ((call.run view r).1, (call.run view r).2.erase key) := by
  cases call with
  | has _ =>
    cases hkey
    simp only [run, Registry.has_erase_of_ne r view hne]
  | get expected _ =>
    cases hkey
    simp only [run, Registry.get_erase_of_ne r view hne, Prod.map, id]
  | bind _ h =>
    cases hkey
    have hhas := Registry.has_erase_of_ne r view hne
    cases hf : r.has view k with
    | true =>
      rw [hf] at hhas
      simp only [run, Registry.bind_of_has _ view hf, Registry.bind_of_has _ view hhas]
      rfl
    | false =>
      rw [hf] at hhas
      simp only [run, Registry.bind_of_not_has _ view hf, Registry.bind_of_not_has _ view hhas,
        Registry.insert_comm_erase r hne h]
  | unbind expected _ =>
    cases hkey
    simp only [run, Registry.unbind_erase_of_ne r view hne, Prod.map, id]
  | unbindIfPossible expected _ =>
    cases hkey
    simp only [run, Registry.unbindIfPossible_erase_of_ne r view hne, Prod.map, id]
  | clear => cases hkey

/-- How the answer of a registry with a void binding compares with the answer of the one without
it. Only a clear, by its count, and an unbinding as another type can tell them apart. -/
inductive Alike (view : HolderView η) (key : ResourceKey) (h : η) :
    RegistryCall η → RegistryReply η → RegistryReply η → Prop
  | same (call : RegistryCall η) (reply : RegistryReply η) : Alike view key h call reply reply
  | cleared (n n' : Nat) (hle : n' ≤ n) : Alike view key h .clear (.removed n) (.removed n')
  | foreignUnbind (expected : HolderKind) (context : ContextId) (hkind : view.kind h ≠ expected) :
    Alike view key h (.unbind expected key)
      (.failed (.holderTypeMismatch key context expected.text)) (.failed (.notBound key context))
  | foreignUnbindIfPossible (expected : HolderKind) (context : ContextId)
      (hkind : view.kind h ≠ expected) :
    Alike view key h (.unbindIfPossible expected key)
      (.failed (.holderTypeMismatch key context expected.text)) (.holder none)

end RegistryCall

/-- The second registry is the first one, or the first one without this binding. -/
def Registry.SameOrErased (key : ResourceKey) (h : η) (r r' : Registry η) : Prop :=
  r' = r ∨ r.binding? key = some h ∧ r' = r.erase key

namespace RegistryCall

variable {view : HolderView η} {r r' : Registry η} {key : ResourceKey} {h : η}

/-- A call on the key of a void binding. -/
theorem alike_of_void (call : RegistryCall η) (hkey : call.key? = some key)
    (hb : r.binding? key = some h) (hv : view.isVoid h = true) :
    Alike view key h call (call.run view r).1 (call.run view (r.erase key)).1 ∧
      Registry.SameOrErased key h (call.run view r).2 (call.run view (r.erase key)).2 := by
  have herased := Registry.binding?_erase_self r key
  have hhas : r.has view key = false := by rw [Registry.has_of_binding? r view hb, hv]; rfl
  cases call with
  | has _ =>
    cases hkey
    simp only [run, hhas, Registry.has_of_unbound _ view herased]
    exact ⟨.same .., .inr ⟨hb, rfl⟩⟩
  | get expected _ =>
    cases hkey
    simp only [run, Registry.get_void r view hb hv, Registry.get_unbound _ view herased]
    exact ⟨.same .., .inl rfl⟩
  | bind _ h' =>
    cases hkey
    simp only [run, Registry.bind_of_not_has r view hhas, Registry.bind_of_not_has _ view
      (Registry.has_of_unbound _ view herased), Registry.insert_erase]
    exact ⟨.same .., .inl rfl⟩
  | unbind expected _ =>
    cases hkey
    simp only [run, Registry.unbind_unbound _ view herased]
    by_cases hk : view.kind h = expected
    · rw [Registry.unbind_void r view hb hv hk]
      exact ⟨.same .., .inl rfl⟩
    · rw [Registry.unbind_foreign r view hb hk]
      exact ⟨.foreignUnbind expected r.context hk, .inr ⟨hb, rfl⟩⟩
  | unbindIfPossible expected _ =>
    cases hkey
    simp only [run, Registry.unbindIfPossible_unbound _ view herased]
    by_cases hk : view.kind h = expected
    · rw [Registry.unbindIfPossible_own r view hb hk, if_pos hv]
      exact ⟨.same .., .inl rfl⟩
    · rw [Registry.unbindIfPossible_foreign r view hb hk]
      exact ⟨.foreignUnbindIfPossible expected r.context hk, .inr ⟨hb, rfl⟩⟩
  | clear => cases hkey

/-- One call keeps two registries alike that differ in a void binding at most. -/
theorem alike_run (call : RegistryCall η) (hrel : Registry.SameOrErased key h r r')
    (hv : view.isVoid h = true) :
    Alike view key h call (call.run view r).1 (call.run view r').1 ∧
      Registry.SameOrErased key h (call.run view r).2 (call.run view r').2 := by
  rcases hrel with rfl | ⟨hb, rfl⟩
  · exact ⟨.same .., .inl rfl⟩
  cases hkey : call.key? with
  | none =>
    cases call with
    | clear => exact ⟨.cleared _ _ (List.length_filter_le _ _), .inl rfl⟩
    | _ => cases hkey
  | some k =>
    by_cases hk : k = key
    · subst hk
      exact alike_of_void call hkey hb hv
    · rw [run_erase call view r hkey hk]
      refine ⟨.same .., .inr ⟨?_, rfl⟩⟩
      rw [binding?_elsewhere call view r hkey (Ne.symm hk), hb]

/-- The answers of two registries are alike call by call, and so are the registries they end in. -/
def AlikeOver (key : ResourceKey) (h : η) :
    List (HolderView η × RegistryCall η) → Registry η → Registry η → Prop
  | [], r, r' => Registry.SameOrErased key h r r'
  | (view, call) :: calls, r, r' =>
    Alike view key h call (call.run view r).1 (call.run view r').1 ∧
      AlikeOver key h calls (call.run view r).2 (call.run view r').2

theorem alikeOver_of_void (calls : List (HolderView η × RegistryCall η))
    (hvoid : ∀ asked ∈ calls, asked.1.isVoid h = true)
    (hrel : Registry.SameOrErased key h r r') : AlikeOver key h calls r r' := by
  induction calls generalizing r r' with
  | nil => exact hrel
  | cons asked calls ih =>
    obtain ⟨hsame, hnext⟩ := alike_run asked.2 hrel (hvoid asked (List.mem_cons_self ..))
    refine ⟨hsame, ih ?_ hnext⟩
    intro later hin
    exact hvoid later (List.mem_cons_of_mem _ hin)

end RegistryCall

/-- A void binding is as good as none to a look-up, to a bind and to an unbinding as the type of
its holder, which all leave the registry as if it had been removed beforehand. An unbinding as
another type sees it: it answers a mismatch and leaves it. And so it goes on for any calls, as
long as the holder stays void. -/
theorem void_binding_absent (r : Registry η) (view : HolderView η) (key : ResourceKey) (h : η)
    (hb : r.binding? key = some h) (hv : view.isVoid h = true) :
    r.has view key = false ∧
    (∀ expected, r.get view expected key = (.ok none, r.erase key)) ∧
    (∀ h', r.bind view key h' = .ok ((r.erase key).insert key h')) ∧
    r.unbind view (view.kind h) key = (.error (.notBound key r.context), r.erase key) ∧
    r.unbindIfPossible view (view.kind h) key = (.ok none, r.erase key) ∧
    (∀ expected, view.kind h ≠ expected →
      r.unbind view expected key = (.error (r.mismatch key expected), r) ∧
      r.unbindIfPossible view expected key = (.error (r.mismatch key expected), r)) ∧
    ∀ calls : List (HolderView η × RegistryCall η),
      (∀ asked ∈ calls, asked.1.isVoid h = true) →
      RegistryCall.AlikeOver key h calls r (r.erase key) := by
  have hhas : r.has view key = false := by rw [Registry.has_of_binding? r view hb, hv]; rfl
  refine ⟨hhas, ?get, ?bind, ?unbind, ?unbindIfPossible, ?foreign, ?calls⟩
  case get =>
    intro expected
    exact Registry.get_void r view hb hv
  case bind =>
    intro h'
    rw [Registry.insert_erase]
    exact Registry.bind_of_not_has r view hhas
  case unbind => exact Registry.unbind_void r view hb hv rfl
  case unbindIfPossible => rw [Registry.unbindIfPossible_own r view hb rfl, if_pos hv]
  case foreign =>
    intro expected hkind
    exact ⟨Registry.unbind_foreign r view hb hkind,
      Registry.unbindIfPossible_foreign r view hb hkind⟩
  case calls =>
    intro calls hvoid
    exact RegistryCall.alikeOver_of_void calls hvoid (.inr ⟨hb, rfl⟩)

/-- A voided holder, and a registry that it is still bound in. -/
def voidedHolder : Script.HolderRef := ⟨Script.RegistryRun.voidable, 1⟩

def voidedView : HolderView Script.HolderRef :=
  Script.RegistryRun.view { registries := #[], voided := [voidedHolder] }

def voidedRegistry : Registry Script.HolderRef where
  context := ⟨1⟩
  bindings := [(⟨5⟩, voidedHolder)]

/-- Look-ups as another type, an unbinding as another type, and then the holder bound again. -/
theorem void_binding_absent_rebound :
    voidedRegistry.binding? ⟨5⟩ = some voidedHolder ∧ voidedView.isVoid voidedHolder = true ∧
    RegistryCall.AlikeOver ⟨5⟩ voidedHolder
      [(voidedView, .unbind Script.RegistryRun.solid ⟨5⟩),
        (voidedView, .get Script.RegistryRun.solid ⟨5⟩), (voidedView, .bind ⟨5⟩ voidedHolder),
        (voidedView, .clear)]
      voidedRegistry (voidedRegistry.erase ⟨5⟩) := by
  have hb : voidedRegistry.binding? ⟨5⟩ = some voidedHolder := by decide
  have hv : voidedView.isVoid voidedHolder = true := by decide
  obtain ⟨-, -, -, -, -, -, hcalls⟩ := void_binding_absent voidedRegistry voidedView ⟨5⟩ voidedHolder hb hv
  refine ⟨hb, hv, hcalls _ ?_⟩
  intro asked hin
  simp only [List.mem_cons, List.not_mem_nil, or_false] at hin
  rcases hin with rfl | rfl | rfl | rfl <;> exact hv

/-- A void holder is absent to every look-up, and an unbinding as another type still finds it. -/
theorem void_binding_mismatch :
    voidedRegistry.binding? ⟨5⟩ = some voidedHolder ∧ voidedView.isVoid voidedHolder = true ∧
    voidedRegistry.has voidedView ⟨5⟩ = false ∧
    (voidedRegistry.unbind voidedView Script.RegistryRun.solid ⟨5⟩).1 ≠
      .error (.notBound ⟨5⟩ voidedRegistry.context) ∧
    (voidedRegistry.unbindIfPossible voidedView Script.RegistryRun.solid ⟨5⟩).1 ≠ .ok none ∧
    (voidedRegistry.unbind voidedView Script.RegistryRun.solid ⟨5⟩).1 =
      .error (.holderTypeMismatch ⟨5⟩ ⟨1⟩ "Solid") := by
  refine ⟨by decide, by decide, by decide, ?_, ?_, rfl⟩
  · intro h; cases h
  · intro h; cases h

end Demarcation
