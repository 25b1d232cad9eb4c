/-
The calls of a registry as data, and what one call makes of the binding of a key: a bind that
succeeds replaces it, and any other call keeps it or takes it away. Each call comes with its own
view of the holders, which may have turned void, or live again, since the call before.
-/
import Demarcation.Proofs.Registry

namespace Demarcation

variable {η : Type}

/-- A call on a registry. `expected` is the type of the holder that is asked for. -/
inductive RegistryCall (η : Type)
  | has (key : ResourceKey)
  | get (expected : HolderKind) (key : ResourceKey)
  | bind (key : ResourceKey) (h : η)
  | unbind (expected : HolderKind) (key : ResourceKey)
  | unbindIfPossible (expected : HolderKind) (key : ResourceKey)
  | clear

/-- What a call answers. -/
inductive RegistryReply (η : Type)
  | truth (b : Bool)
  | holder (h : Option η)
  | bound
  | removed (n : Nat)
  | failed (e : RegistryError)

def RegistryReply.ofLookup : Except RegistryError (Option η) → RegistryReply η
  | .ok h => .holder h
  | .error e => .failed e

namespace RegistryCall

variable (call : RegistryCall η) (view : HolderView η) (r : Registry η)

/-- The answer of a call, and the registry behind it. -/
def run (view : HolderView η) (r : Registry η) : RegistryCall η → RegistryReply η × Registry η
  | has key => (.truth (r.has view key), r)
  | get expected key => ((r.get view expected key).map .ofLookup id)
  | bind key h =>
    match r.bind view key h with
    | .ok r' => (.bound, r')
    | .error e => (.failed e, r)
  | unbind expected key => (r.unbind view expected key).map (fun a => .ofLookup (a.map some)) id
  | unbindIfPossible expected key => (r.unbindIfPossible view expected key).map .ofLookup id
  | clear => r.clear.map .removed id

/-- The key that a call is about. -/
def key? : RegistryCall η → Option ResourceKey
  | has key | get _ key | bind key _ | unbind _ key | unbindIfPossible _ key => some key
  | clear => none

/-- Whether a call takes the binding of a key to this holder away: a look-up takes a void one, an
unbinding takes one of its type, and a clear takes any. -/
def removes (view : HolderView η) (key : ResourceKey) (h : η) : RegistryCall η → Bool
  | has _ | bind _ _ => false
  | get _ k => decide (k = key) && view.isVoid h
  | unbind expected k | unbindIfPossible expected k =>
    decide (k = key) && decide (view.kind h = expected)
  | clear => true

/-- The holder that a call has bound under a key, by what it answered. -/
def binds? (key : ResourceKey) : RegistryCall η → RegistryReply η → Option η
  | bind k h, .bound => if k = key then some h else none
  | _, _ => none

/-! ## One call and the binding of one key -/

/-- What a look-up or an unbinding leaves: it takes the binding of its key, or all is as before. -/
theorem binding?_of_erased {r r' : Registry η} {k : ResourceKey} (takes : η → Bool)
    (hnone : r.binding? k = none → r' = r)
    (hsome : ∀ h, r.binding? k = some h → r' = if takes h then r.erase k else r)
    (key : ResourceKey) (h : η) :
    r'.binding? key = some h ↔
      r.binding? key = some h ∧ (decide (k = key) && takes h) = false := by
  cases hb : r.binding? k with
  | none =>
    rw [hnone hb]
    constructor
    · intro hkey
      have hne : k ≠ key := by rintro rfl; rw [hb] at hkey; cases hkey
      exact ⟨hkey, by simp [hne]⟩
    · exact And.left
  | some held =>
    rw [hsome held hb]
    by_cases hk : k = key
    · subst hk
      rw [hb]
      cases ht : takes held with
      | true =>
        rw [if_pos rfl, Registry.binding?_erase, if_pos rfl]
        constructor
        · intro hfalse; cases hfalse
        · rintro ⟨heq, hkeeps⟩
          cases heq
          rw [ht] at hkeeps
          simp at hkeeps
      | false =>
        rw [if_neg (by decide), hb]
        constructor
        · intro heq
          cases heq
          exact ⟨rfl, by rw [ht]; simp⟩
        · exact And.left
    · have hsame : (if takes held then r.erase k else r).binding? key = r.binding? key := by
        split
        · rw [Registry.binding?_erase, if_neg (Ne.symm hk)]
        · rfl
      rw [hsame]
      simp [hk]

theorem get_erases (expected : HolderKind) (k key : ResourceKey) (h : η) :
    (r.get view expected k).2.binding? key = some h ↔
      r.binding? key = some h ∧ (decide (k = key) && view.isVoid h) = false := by
  apply binding?_of_erased view.isVoid
  · intro hb
    rw [Registry.get_unbound r view hb]
  · intro held hb
    cases hv : view.isVoid held with
    | true => rw [Registry.get_void r view hb hv]; rfl
    | false => rw [Registry.get_live r view hb hv]; rfl

theorem unbindIfPossible_erases (expected : HolderKind) (k key : ResourceKey) (h : η) :
    (r.unbindIfPossible view expected k).2.binding? key = some h ↔
      r.binding? key = some h ∧
        (decide (k = key) && decide (view.kind h = expected)) = false := by
  apply binding?_of_erased fun h => decide (view.kind h = expected)
  · intro hb
    rw [Registry.unbindIfPossible_unbound r view hb]
  · intro held hb
    by_cases hk : view.kind held = expected
    · rw [Registry.unbindIfPossible_own r view hb hk, if_pos (decide_eq_true hk)]
    · rw [Registry.unbindIfPossible_foreign r view hb hk, if_neg (by simpa using hk)]

theorem unbind_registry (expected : HolderKind) (k : ResourceKey) :
    (r.unbind view expected k).2 = (r.unbindIfPossible view expected k).2 := by
  unfold Registry.unbind
  split <;> rename_i heq <;> rw [heq]

/-- What is bound under a key behind a call: what the call bound, or what was bound before it and
the call did not take away. -/
theorem binding?_run (key : ResourceKey) (h : η) :
    (call.run view r).2.binding? key = some h ↔
      call.binds? key (call.run view r).1 = some h ∨
        call.binds? key (call.run view r).1 = none ∧
          r.binding? key = some h ∧ call.removes view key h = false := by
  cases call with
  | has k => simp [run, binds?, removes]
  | get expected k => simpa [run, binds?, removes] using get_erases view r expected k key h
  | bind k held =>
    cases hf : r.has view k with
    | true => simp [run, Registry.bind_of_has r view hf, binds?, removes]
    | false =>
      simp only [run, Registry.bind_of_not_has r view hf, binds?, removes,
        Registry.binding?_insert]
      by_cases hk : k = key
      · simp [hk]
      · simp [hk, Ne.symm hk]
  | unbind expected k =>
    have herased := unbindIfPossible_erases view r expected k key h
    rw [← unbind_registry] at herased
    simpa [run, binds?, removes] using herased
  | unbindIfPossible expected k =>
    simpa [run, binds?, removes] using unbindIfPossible_erases view r expected k key h
  | clear => simp [run, binds?, removes, Registry.clear, Registry.binding?]

/-- A call that is not a clear changes nothing under the keys that it is not about. -/
theorem binding?_elsewhere {k key : ResourceKey} (hkey : call.key? = some k) (hne : key ≠ k) :
    (call.run view r).2.binding? key = r.binding? key := by
  have hbinds : ∀ reply, call.binds? key reply = none := by
    intro reply
    cases call <;> cases reply <;> simp_all [binds?, key?, Ne.symm hne]
  have hremoves : ∀ h, call.removes view key h = false := by
    intro h
    cases call <;> simp_all [removes, key?, Ne.symm hne]
  apply Option.ext
  intro h
  rw [binding?_run, hbinds]
  simp [hremoves]

end RegistryCall

end Demarcation
