/-
Asking for the connection of a context: the three things it can do to a session, of which each one is
steady, and quiet where no void holder is bound.
-/
import Demarcation.Proofs.Session.Steady
import Demarcation.Store.Access

namespace Demarcation

namespace StoreSite

open Session

variable {ς : Type}

/-- How asking for a connection ends in a context in which no void holder is bound. -/
inductive Accessing (s : Session Store ConnectionId ς) :
    Except StorageError Access → Session Store ConnectionId ς → Prop
  | refused (e : StorageError) : Accessing s (.error e) s
  /-- A fresh connection that publishes at once was opened. -/
  | alone : Accessing s (.ok (.autoCommit s.native.connections.size))
    (s.withNative (s.native.connect false true .unspecified).2)
  /-- The deadline of the bound transaction is over. -/
  | timedOut {h : HolderId} {x y : Holder ConnectionId} (e : StorageError) : s.holder? h = some x →
    y = x ∨ y = x.setRollbackOnly → Accessing s (.error e) (s.modifyHolder h fun _ => y)
  | bound {h : HolderId} {x y : Holder ConnectionId} : s.holder? h = some x →
    y = x ∨ y = x.setRollbackOnly →
    Accessing s (.ok (.transactional h x.resource)) (s.modifyHolder h fun _ => y)

theorem timeToLive_spec {σ ρ : Type} {s : Session σ ρ ς} {h : HolderId} {x : Holder ρ}
    (hx : s.holder? h = some x) :
    ∃ r y, timeToLive h s = (r, s.modifyHolder h fun _ => y) ∧ (y = x ∨ y = x.setRollbackOnly) := by
  refine ⟨_, (x.timeToLive s.now).2, by unfold timeToLive; rw [hx], ?_⟩
  unfold Holder.timeToLive
  split
  · exact .inl rfl
  · split
    · exact .inr rfl
    · exact .inl rfl

section Finding

variable {key : ResourceKey} {c : ContextIndex} {s s₁ : Session Store ConnectionId ς}

theorem find_adapted {r : Except RegistryError (Option HolderId)} (hfind : find c kind key s = (r, s₁)) :
    ((find c kind (whole key).key).adapt (StorageErrorFrom.transaction ∘ TransactionErrorFrom.registry) :
      Attempt Store ConnectionId ς StorageError _) s =
      (r.mapError (StorageErrorFrom.transaction ∘ TransactionErrorFrom.registry), s₁) := by
  rw [attempt_adapt]
  show ((find c kind key s).1.mapError _, (find c kind key s).2) = _
  rw [hfind]

/-- Without a transaction, a fresh connection is opened. -/
theorem access_alone (hfind : find c kind key s = (.ok none, s₁)) :
    (whole key).access c s = (.ok (.autoCommit s₁.native.connections.size),
      s₁.withNative (s₁.native.connect false true .unspecified).2) := by
  unfold access
  exact attempt_bind_ok (find_adapted hfind)

/-- With a transaction, it is its connection, unless its deadline is over. -/
theorem access_bound {h : HolderId} {x : Holder ConnectionId}
    (hfind : find c kind key s = (.ok (some h), s₁)) (hx : s₁.holder? h = some x) :
    ∃ r y, (whole key).access c s = (r, s₁.modifyHolder h fun _ => y) ∧ (y = x ∨ y = x.setRollbackOnly) ∧
      ∀ a, r = .ok a → a = .transactional h x.resource := by
  obtain ⟨r, y, htime, hy⟩ := timeToLive_spec hx
  have hadapt : ((timeToLive h).adapt StorageErrorFrom.transaction : Attempt Store ConnectionId ς StorageError _) s₁ =
      (r.mapError .transaction, s₁.modifyHolder h fun _ => y) := by
    rw [attempt_adapt, htime]
  unfold access
  rw [attempt_bind_ok (find_adapted hfind)]
  dsimp only
  cases r with
  | error e => exact ⟨_, _, attempt_bind_error hadapt, hy, nofun⟩
  | ok d =>
    have hy' : (s₁.modifyHolder h fun _ => y).holder? h = some y := by
      rw [holder?_modifyHolder, if_pos rfl, hx]; rfl
    refine ⟨.ok (.transactional h x.resource), y, ?_, hy, ?_⟩
    · -- a mark does not change whose connection it is
      have hres : y.resource = x.resource := by rcases hy with rfl | rfl <;> rfl
      rw [attempt_bind_ok hadapt, attempt_bind, attempt_get, ← hres]
      dsimp only
      rw [hy']
      rfl
    · rintro _ ⟨⟩
      rfl

end Finding

theorem access_spec (key : ResourceKey) (c : ContextIndex) (s : Session Store ConnectionId ς) :
    ∃ r s', (whole key).access c s = (r, s') ∧ Accessing (s.purge c key) r s' := by
  obtain ⟨r, hfind, hlook⟩ := find_spec s c kind key
  cases hlook with
  | foreign e => exact ⟨_, _, attempt_bind_error (find_adapted hfind), .refused _⟩
  | unbound hb => exact ⟨_, _, access_alone hfind, .alone⟩
  | @live h x hb hx hl hk =>
    obtain ⟨r, y, hrun, hy, hanswer⟩ := access_bound hfind hx
    refine ⟨r, _, hrun, ?_⟩
    cases r with
    | error e => exact .timedOut e hx hy
    | ok a =>
      obtain rfl := hanswer a rfl
      exact .bound hx hy

/-- An operation through a context: the connection is asked for, used, and left. -/
theorem through_eq {α : Type} (key : ResourceKey) (c : ContextIndex)
    (op : ConnectionId → Store → Except StorageError (α × Store)) (s : Session Store ConnectionId ς) :
    (whole key).through c op s = match (whole key).access c s with
      | (.error e, s₁) => (.error e, s₁)
      | (.ok a, s₁) => (((whole key).perform (op a.connection) s₁).1,
          (whole key).leave a ((whole key).perform (op a.connection) s₁).2) := by
  unfold through
  rw [attempt_bind]
  rcases (whole key).access c s with ⟨_ | a, s₁⟩
  · rfl
  · dsimp only
    rw [attempt_bind, observe_apply]
    dsimp only
    rcases (whole key).perform (op a.connection) s₁ with ⟨_ | _, s₂⟩ <;> rfl

theorem through_spec {α : Type} (key : ResourceKey) (c : ContextIndex)
    (op : ConnectionId → Store → Except StorageError (α × Store)) (s : Session Store ConnectionId ς) :
    ∃ r s₁, Accessing (s.purge c key) r s₁ ∧ (whole key).through c op s = match r with
      | .error e => (.error e, s₁)
      | .ok a => (((whole key).perform (op a.connection) s₁).1,
          (whole key).leave a ((whole key).perform (op a.connection) s₁).2) := by
  obtain ⟨r, s₁, hrun, haccess⟩ := access_spec key c s
  refine ⟨r, s₁, haccess, ?_⟩
  rw [through_eq, hrun]
  cases r <;> rfl

section Asking

variable {key : ResourceKey} {c : ContextIndex} {s s' : Session Store ConnectionId ς}
  {r : Except StorageError Access}

/-- Looking at a deadline at most marks the transaction. -/
theorem alike_of_timed {γ : Type} {φ : Holder ConnectionId → γ} {h : HolderId} {x y : Holder ConnectionId}
    (hφ : ∀ x : Holder ConnectionId, φ x.setRollbackOnly = φ x) (hx : s.holder? h = some x)
    (hy : y = x ∨ y = x.setRollbackOnly) : Alike φ s (s.modifyHolder h fun _ => y) := by
  refine .modifyHolder_at fun z hz => ?_
  obtain rfl := Option.some.inj (hz.symm.trans hx)
  rcases hy with rfl | rfl
  · rfl
  · exact hφ z

theorem Accessing.alike {γ : Type} {φ : Holder ConnectionId → γ}
    (hφ : ∀ x : Holder ConnectionId, φ x.setRollbackOnly = φ x) (h : Accessing s r s') : Alike φ s s' := by
  cases h with
  | refused => exact .refl s
  | alone => exact .withNative s _
  | timedOut _ hx hy | bound hx hy => exact alike_of_timed hφ hx hy

theorem access_alike {γ : Type} {φ : Holder ConnectionId → γ} (key : ResourceKey) (c : ContextIndex)
    (s : Session Store ConnectionId ς) (hφ : ∀ x : Holder ConnectionId, φ x.setRollbackOnly = φ x) :
    Alike φ s ((whole key).access c s).2 := by
  obtain ⟨r, s', hrun, haccess⟩ := access_spec key c s
  rw [hrun]
  exact (Alike.purge s c key).trans (haccess.alike hφ)

end Asking

end StoreSite

end Demarcation
