/-
Sessions seen part by part: running operations one after another, what a change of one part does
to the others, and what looking up, binding and unbinding holders does to a session.
-/
import Demarcation.Proofs.Registry
import Demarcation.Session

namespace Demarcation

theorem Status.isCompleted_of_some {ς : Type} {st : Status ς} {state : TransactionState}
    (h : st.completion = some state) : st.isCompleted = true := by
  unfold isCompleted
  rw [h]; rfl

theorem Status.isCompleted_of_none {ς : Type} {st : Status ς} (h : st.completion = none) :
    st.isCompleted = false := by
  unfold isCompleted
  rw [h]; rfl

theorem Status.isCompleted_congr {ς : Type} {st st' : Status ς} (h : st'.completion = st.completion) :
    st'.isCompleted = st.isCompleted := by
  unfold isCompleted
  rw [h]

theorem mapError_ok {ε δ α : Type} (f : ε → δ) (a : α) : (Except.ok a : Except ε α).mapError f = .ok a := rfl

theorem mapError_error {ε δ α : Type} (f : ε → δ) (e : ε) :
    (Except.error e : Except ε α).mapError f = .error (f e) := rfl

namespace Session

variable {σ ρ ς α β ε δ : Type}

/-! ## Running operations -/

@[simp] theorem attempt_pure (a : α) (s : Session σ ρ ς) :
    (pure a : Attempt σ ρ ς ε α) s = (.ok a, s) := rfl

@[simp] theorem attempt_get (s : Session σ ρ ς) :
    (get : Attempt σ ρ ς ε (Session σ ρ ς)) s = (.ok s, s) := rfl

@[simp] theorem attempt_modify (f : Session σ ρ ς → Session σ ρ ς) (s : Session σ ρ ς) :
    (modify f : Attempt σ ρ ς ε PUnit) s = (.ok ⟨⟩, f s) := rfl

@[simp] theorem attempt_modifyGet (f : Session σ ρ ς → α × Session σ ρ ς) (s : Session σ ρ ς) :
    (modifyGet f : Attempt σ ρ ς ε α) s = (.ok (f s).1, (f s).2) := rfl

@[simp] theorem attempt_adapt (x : Attempt σ ρ ς ε α) (f : ε → δ) (s : Session σ ρ ς) :
    (x.adapt f) s = ((x s).1.mapError f, (x s).2) := rfl

@[simp] theorem observe_apply (x : Attempt σ ρ ς ε α) (s : Session σ ρ ς) :
    (observe x : Attempt σ ρ ς δ (Except ε α)) s = (.ok (x s).1, (x s).2) := rfl

theorem attempt_bind (x : Attempt σ ρ ς ε α) (f : α → Attempt σ ρ ς ε β) (s : Session σ ρ ς) :
    (x >>= f) s = match x s with
      | (.ok a, s) => f a s
      | (.error e, s) => (.error e, s) := by
  show (ExceptT.bindCont f (x s).1) (x s).2 = _
  rcases x s with ⟨_ | _, _⟩ <;> rfl

theorem attempt_bind_ok {x : Attempt σ ρ ς ε α} {f : α → Attempt σ ρ ς ε β} {s s' : Session σ ρ ς} {a : α}
    (h : x s = (.ok a, s')) : (x >>= f) s = f a s' := by
  rw [attempt_bind, h]

theorem attempt_bind_error {x : Attempt σ ρ ς ε α} {f : α → Attempt σ ρ ς ε β} {s s' : Session σ ρ ς}
    {e : ε} (h : x s = (.error e, s')) : (x >>= f) s = (.error e, s') := by
  rw [attempt_bind, h]

theorem attempt_map (f : α → β) (x : Attempt σ ρ ς ε α) (s : Session σ ρ ς) :
    (f <$> x) s = ((x s).1.map f, (x s).2) := by
  show ((f <$> x : Attempt σ ρ ς ε β) : StateM (Session σ ρ ς) (Except ε β)) s = _
  simp only [Functor.map, ExceptT.map, ExceptT.mk]
  show (_ : StateM (Session σ ρ ς) (Except ε β)) (x s).2 = _
  rcases x s with ⟨_ | _, _⟩ <;> rfl

theorem step_bind (x : Step σ ρ ς α) (f : α → Step σ ρ ς β) (s : Session σ ρ ς) :
    (x >>= f) s = f (x s).1 (x s).2 := rfl

theorem step_bind_of {x : Step σ ρ ς α} {f : α → Step σ ρ ς β} {s s' : Session σ ρ ς} {a : α}
    (h : x s = (a, s')) : (x >>= f) s = f a s' := by
  rw [step_bind, h]

/-! ## Changes -/

/-- The session with another native state. -/
def withNative (s : Session σ ρ ς) (native : σ) : Session σ ρ ς := { s with native }

@[simp] theorem call_apply (op : Native σ α) (s : Session σ ρ ς) :
    (call op : Attempt σ ρ ς Failure α) s = ((op s.native).1, s.withNative (op s.native).2) := rfl

/-- The holder bound under a key in a context, void or not. -/
def bound (s : Session σ ρ ς) (c : ContextIndex) (key : ResourceKey) : Option HolderId :=
  (s.registry c).binding? key

/-- The session without a binding. -/
def dropBinding (s : Session σ ρ ς) (c : ContextIndex) (key : ResourceKey) : Session σ ρ ς :=
  s.setRegistry c ((s.registry c).erase key)

/-- The session with a binding in place of an older one. -/
def putBinding (s : Session σ ρ ς) (c : ContextIndex) (key : ResourceKey) (h : HolderId) :
    Session σ ρ ς :=
  s.setRegistry c ((s.registry c).insert key h)

section Registries

variable (s : Session σ ρ ς) (c c' : ContextIndex) (key k : ResourceKey) (r : Registry HolderId)

theorem registry_setRegistry_ne {c c' : ContextIndex} (hc : c' ≠ c) :
    (s.setRegistry c r).registry c' = s.registry c' := by
  unfold registry setRegistry
  simp only [Array.getD_eq_getD_getElem?, Array.getElem?_setIfInBounds_ne (Ne.symm hc)]

theorem registry_setRegistry_self {c : ContextIndex} (hc : c < s.registries.size) :
    (s.setRegistry c r).registry c = r := by
  unfold registry setRegistry
  simp [Array.getD_eq_getD_getElem?, hc]

theorem registry_eq_default {c : ContextIndex} (hc : ¬ c < s.registries.size) : s.registry c = default := by
  unfold registry
  rw [Array.getD_eq_getD_getElem?, Array.getElem?_eq_none (Nat.le_of_not_lt hc)]; rfl

theorem setRegistry_of_not_lt {c : ContextIndex} (hc : ¬ c < s.registries.size) : s.setRegistry c r = s := by
  unfold setRegistry
  rw [Array.setIfInBounds_eq_of_size_le (Nat.le_of_not_lt hc)]

theorem setRegistry_registry : s.setRegistry c (s.registry c) = s := by
  unfold setRegistry
  have hsame : s.registries.setIfInBounds c (s.registry c) = s.registries := by
    apply Array.ext
    · simp
    · intro i hi hi'
      rw [Array.getElem_setIfInBounds (by simpa using hi)]
      split
      · rename_i hci
        subst hci
        simp [registry, Array.getD_eq_getD_getElem?, hi']
      · rfl
  rw [hsame]

@[simp] theorem dropBinding_size : (s.dropBinding c key).registries.size = s.registries.size := by
  simp [dropBinding, setRegistry]

@[simp] theorem putBinding_size (h : HolderId) :
    (s.putBinding c key h).registries.size = s.registries.size := by
  simp [putBinding, setRegistry]

theorem bound_dropBinding :
    (s.dropBinding c key).bound c' k = if c' = c ∧ k = key then none else s.bound c' k := by
  unfold bound dropBinding
  by_cases hc : c' = c
  · subst hc
    by_cases hs : c' < s.registries.size
    · rw [registry_setRegistry_self s _ hs, Registry.binding?_erase]; simp
    · rw [registry_eq_default _ (by simpa [setRegistry] using hs), registry_eq_default _ hs]
      split <;> rfl
  · rw [registry_setRegistry_ne s _ hc]; simp [hc]

theorem bound_putBinding (hs : c < s.registries.size) (h : HolderId) :
    (s.putBinding c key h).bound c' k = if c' = c ∧ k = key then some h else s.bound c' k := by
  unfold bound putBinding
  by_cases hc : c' = c
  · subst hc
    rw [registry_setRegistry_self s _ hs, Registry.binding?_insert]; simp
  · rw [registry_setRegistry_ne s _ hc]; simp [hc]

/-- A binding takes the place of the one that was there. -/
theorem putBinding_dropBinding (h : HolderId) : (s.dropBinding c key).putBinding c key h = s.putBinding c key h := by
  unfold putBinding
  by_cases hc : c < s.registries.size
  · unfold dropBinding
    rw [registry_setRegistry_self s _ hc, Registry.insert_erase]
    unfold setRegistry
    simp only [Array.setIfInBounds_setIfInBounds]
  · rw [setRegistry_of_not_lt _ _ (by simpa using hc), setRegistry_of_not_lt _ _ hc]
    exact setRegistry_of_not_lt _ _ hc

end Registries

theorem bound_ofContexts (count : Nat) (native : σ) (c : ContextIndex) (key : ResourceKey) :
    (ofContexts count native : Session σ ρ ς).bound c key = none := by
  unfold bound registry ofContexts
  rw [Array.getD_eq_getD_getElem?, Array.getElem?_map, Array.getElem?_range]
  split <;> rfl

/-! ## Holders and statuses after a change -/

/-- A status more is there. -/
theorem status?_pushed {s s' : Session σ ρ ς} {st : Status ς} (hpushed : s'.statuses = s.statuses.push st)
    (u : StatusId) : s'.status? u = if u = s.statuses.size then some st else s.status? u := by
  unfold status?
  rw [hpushed]
  exact Array.getElem?_push

section Parts

variable (s : Session σ ρ ς) (n : σ) (c : ContextIndex) (key : ResourceKey) (h k : HolderId)
  (t u : StatusId) (x : Holder ρ) (st : Status ς) (f : Holder ρ → Holder ρ) (g : Status ς → Status ς)

@[simp] theorem holder?_withNative : (s.withNative n).holder? k = s.holder? k := rfl
@[simp] theorem holder?_dropBinding : (s.dropBinding c key).holder? k = s.holder? k := rfl
@[simp] theorem holder?_putBinding : (s.putBinding c key h).holder? k = s.holder? k := rfl
@[simp] theorem holder?_addStatus : (s.addStatus st).2.holder? k = s.holder? k := rfl
@[simp] theorem holder?_modifyStatus : (s.modifyStatus t g).holder? k = s.holder? k := rfl

@[simp] theorem holder?_modifyHolder :
    (s.modifyHolder h f).holder? k = if k = h then (s.holder? k).map f else s.holder? k := by
  unfold holder? modifyHolder
  simp only [Array.getElem?_modify, eq_comm]

@[simp] theorem holder?_addHolder :
    (s.addHolder x).2.holder? k = if k = s.holders.size then some x else s.holder? k := by
  unfold holder? addHolder
  exact Array.getElem?_push

@[simp] theorem status?_withNative : (s.withNative n).status? u = s.status? u := rfl
@[simp] theorem status?_dropBinding : (s.dropBinding c key).status? u = s.status? u := rfl
@[simp] theorem status?_putBinding : (s.putBinding c key h).status? u = s.status? u := rfl
@[simp] theorem status?_modifyHolder : (s.modifyHolder h f).status? u = s.status? u := rfl
@[simp] theorem status?_addHolder : (s.addHolder x).2.status? u = s.status? u := rfl

@[simp] theorem status?_modifyStatus :
    (s.modifyStatus t g).status? u = if u = t then (s.status? u).map g else s.status? u := by
  unfold status? modifyStatus
  simp only [Array.getElem?_modify, eq_comm]

@[simp] theorem status?_addStatus :
    (s.addStatus st).2.status? u = if u = s.statuses.size then some st else s.status? u :=
  status?_pushed rfl u

@[simp] theorem bound_withNative : (s.withNative n).bound c key = s.bound c key := rfl
@[simp] theorem bound_modifyHolder : (s.modifyHolder h f).bound c key = s.bound c key := rfl
@[simp] theorem bound_addHolder : (s.addHolder x).2.bound c key = s.bound c key := rfl
@[simp] theorem bound_modifyStatus : (s.modifyStatus t g).bound c key = s.bound c key := rfl
@[simp] theorem bound_addStatus : (s.addStatus st).2.bound c key = s.bound c key := rfl

theorem holder?_lt {s : Session σ ρ ς} {h : HolderId} {x : Holder ρ} (hx : s.holder? h = some x) :
    h < s.holders.size := (Array.getElem?_eq_some_iff.1 hx).1

theorem exists_holder {s : Session σ ρ ς} {h : HolderId} (hlt : h < s.holders.size) : ∃ x, s.holder? h = some x :=
  ⟨_, Array.getElem?_eq_getElem hlt⟩

theorem registries_lt {s : Session σ ρ ς} {c : ContextIndex} {key : ResourceKey} {h : HolderId}
    (hb : s.bound c key = some h) : c < s.registries.size := by
  refine Nat.lt_of_not_le fun hle => ?_
  unfold bound at hb
  rw [registry_eq_default s (Nat.not_lt.2 hle)] at hb
  cases hb

theorem status?_lt {s : Session σ ρ ς} {t : StatusId} {st : Status ς} (hst : s.status? t = some st) :
    t < s.statuses.size := (Array.getElem?_eq_some_iff.1 hst).1

theorem addStatus_size (s : Session σ ρ ς) (st : Status ς) :
    (s.addStatus st).2.statuses.size = s.statuses.size + 1 := Array.size_push st

theorem addHolder_size (s : Session σ ρ ς) (x : Holder ρ) :
    (s.addHolder x).2.holders.size = s.holders.size + 1 := Array.size_push x

theorem status?_addStatus_old {s : Session σ ρ ς} {t : StatusId} {st : Status ς} (hst : s.status? t = some st)
    (st' : Status ς) : (s.addStatus st').2.status? t = some st := by
  rw [status?_addStatus, if_neg (Nat.ne_of_lt (status?_lt hst))]
  exact hst

/-- A session in which no status got lost has no fewer of them. -/
theorem statuses_le {s s' : Session σ ρ ς} (h : ∀ t st, s.status? t = some st → ∃ st', s'.status? t = some st') :
    s.statuses.size ≤ s'.statuses.size := by
  rcases Nat.lt_or_ge s'.statuses.size s.statuses.size with hlt | hle
  · obtain ⟨st', hst'⟩ := h s'.statuses.size s.statuses[s'.statuses.size] (Array.getElem?_eq_getElem hlt)
    exact absurd (status?_lt hst') (Nat.lt_irrefl _)
  · exact hle

end Parts

/-! ## Looking up, binding and unbinding -/

section Lookup

variable {s : Session σ ρ ς} {c : ContextIndex} {kind : HolderKind} {key : ResourceKey} {h : HolderId}
  {x : Holder ρ}

/-- The session after a look-up: a void holder is not bound any more. -/
def purge (s : Session σ ρ ς) (c : ContextIndex) (key : ResourceKey) : Session σ ρ ς :=
  match s.bound c key with
  | none => s
  | some h => if s.view.isVoid h then s.dropBinding c key else s

theorem native_purge (s : Session σ ρ ς) (c : ContextIndex) (key : ResourceKey) :
    (s.purge c key).native = s.native := by
  unfold purge
  split
  · rfl
  · split <;> rfl

theorem purge_size (s : Session σ ρ ς) (c : ContextIndex) (key : ResourceKey) :
    (s.purge c key).registries.size = s.registries.size := by
  unfold purge
  split
  · rfl
  · split
    · exact dropBinding_size s c key
    · rfl

theorem holder?_purge (s : Session σ ρ ς) (c : ContextIndex) (key : ResourceKey) (k : HolderId) :
    (s.purge c key).holder? k = s.holder? k := by
  unfold purge
  split
  · rfl
  · split <;> rfl

/-- What a look-up finds in the session that it leaves. -/
inductive Lookup (s : Session σ ρ ς) (c : ContextIndex) (kind : HolderKind) (key : ResourceKey) :
    Except RegistryError (Option HolderId) → Prop
  | unbound : s.bound c key = none → Lookup s c kind key (.ok none)
  | live {h : HolderId} {x : Holder ρ} : s.bound c key = some h → s.holder? h = some x →
    x.cleared = false → x.kind = kind → Lookup s c kind key (.ok (some h))
  | foreign {h : HolderId} {x : Holder ρ} (e : RegistryError) : s.bound c key = some h →
    s.holder? h = some x → x.cleared = false → x.kind ≠ kind → Lookup s c kind key (.error e)

theorem isVoid_of_holder (hx : s.holder? h = some x) : s.view.isVoid h = x.cleared := by
  simp [view, hx]

theorem holder_of_not_void (hv : s.view.isVoid h = false) : ∃ x, s.holder? h = some x ∧ x.cleared = false := by
  unfold view at hv
  cases hx : s.holder? h with
  | none => simp [hx] at hv
  | some x => exact ⟨x, rfl, by simpa [hx] using hv⟩

theorem kind_of_holder (hx : s.holder? h = some x) : s.view.kind h = x.kind := by
  simp [view, hx]

theorem purge_of_unbound (hb : s.bound c key = none) : s.purge c key = s := by
  unfold purge; rw [hb]

theorem purge_of_void (hb : s.bound c key = some h) (hv : s.view.isVoid h = true) :
    s.purge c key = s.dropBinding c key := by
  unfold purge; rw [hb]; simp [hv]

theorem purge_of_live (hb : s.bound c key = some h) (hx : s.holder? h = some x) (hl : x.cleared = false) :
    s.purge c key = s := by
  unfold purge; rw [hb]; simp [isVoid_of_holder hx, hl]

theorem purge_of_bound (hb : (s.purge c key).bound c key = some h) : s.purge c key = s := by
  revert hb
  unfold purge
  split
  · exact fun _ => rfl
  · split
    · intro hb
      rw [bound_dropBinding, if_pos ⟨rfl, rfl⟩] at hb
      cases hb
    · exact fun _ => rfl

/-- A look-up unbinds nothing but a void holder. -/
theorem bound_purge (s : Session σ ρ ς) (c c' : ContextIndex) (key k : ResourceKey) :
    (s.purge c key).bound c' k = s.bound c' k ∨ (c' = c ∧ k = key ∧ (s.purge c key).bound c' k = none ∧
      ∃ h, s.bound c' k = some h ∧ s.view.isVoid h = true) := by
  cases hb : s.bound c key with
  | none => rw [purge_of_unbound hb]; exact .inl rfl
  | some h =>
    cases hv : s.view.isVoid h with
    | false =>
      obtain ⟨x, hx, hl⟩ := holder_of_not_void hv
      rw [purge_of_live hb hx hl]; exact .inl rfl
    | true =>
      rw [purge_of_void hb hv, bound_dropBinding]
      split
      · rename_i heq
        obtain ⟨rfl, rfl⟩ := heq
        exact .inr ⟨rfl, rfl, rfl, h, hb, hv⟩
      · exact .inl rfl

theorem holders_purge (s : Session σ ρ ς) (c : ContextIndex) (key : ResourceKey) :
    (s.purge c key).holders = s.holders := by
  unfold purge
  split
  · rfl
  · split <;> rfl

theorem find_spec (s : Session σ ρ ς) (c : ContextIndex) (kind : HolderKind) (key : ResourceKey) :
    ∃ r, find c kind key s = (r, s.purge c key) ∧ Lookup (s.purge c key) c kind key r := by
  unfold find
  cases hb : s.bound c key with
  | none =>
    rw [Registry.get_unbound _ _ hb, purge_of_unbound hb]
    exact ⟨.ok none, by simp only [setRegistry_registry], .unbound hb⟩
  | some h =>
    cases hv : s.view.isVoid h with
    | true =>
      rw [Registry.get_void _ _ hb hv, purge_of_void hb hv]
      exact ⟨.ok none, rfl, .unbound (by rw [bound_dropBinding]; simp)⟩
    | false =>
      obtain ⟨x, hx, hl⟩ := holder_of_not_void hv
      rw [Registry.get_live _ _ hb hv, purge_of_live hb hx hl, kind_of_holder hx]
      simp only [setRegistry_registry]
      by_cases hk : x.kind = kind
      · rw [if_pos hk]; exact ⟨_, rfl, .live hb hx hl hk⟩
      · rw [if_neg hk]; exact ⟨_, rfl, .foreign _ hb hx hl hk⟩

theorem bind_unbound (hb : s.bound c key = none) (h : HolderId) :
    bind c key h s = (.ok (), s.putBinding c key h) := by
  unfold bind
  rw [Registry.bind_of_not_has _ _ (Registry.has_of_unbound _ _ hb)]; rfl

theorem bind_spec (s : Session σ ρ ς) (c : ContextIndex) (key : ResourceKey) (h : HolderId) :
    bind c key h s = (.ok (), s.putBinding c key h) ∨ ∃ e, bind c key h s = (.error e, s) := by
  unfold bind
  cases hf : (s.registry c).has s.view key with
  | false => rw [Registry.bind_of_not_has _ _ hf]; exact .inl rfl
  | true => rw [Registry.bind_of_has _ _ hf]; exact .inr ⟨_, rfl⟩

theorem unbind_live (hb : s.bound c key = some h) (hx : s.holder? h = some x) (hl : x.cleared = false)
    (hk : x.kind = kind) : unbind c kind key s = (.ok h, s.dropBinding c key) := by
  unfold unbind
  rw [Registry.unbind_live _ _ hb (by rw [isVoid_of_holder hx, hl]) (by rw [kind_of_holder hx, hk])]
  rfl

end Lookup

end Session

/-- A client between its calls of the manager: the native state and the clock become anything. -/
def elapse {σ ρ ς : Type} (a : σ × Instant) (s : Session σ ρ ς) : Session σ ρ ς := { s with native := a.1, now := a.2 }

end Demarcation
