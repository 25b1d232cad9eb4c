/-
What a client of a store does between its calls of the manager: it works on data, on the connection of
its context or on another one, opens connections, plans failures, and waits. None of it ends a
transaction, takes anything from a log, or takes a mark back.
-/
import Demarcation.Proofs.Store.Access
import Demarcation.Proofs.Store.Logs

namespace Demarcation

open Session

/-- A change of a session in which every transaction goes on. -/
structure Session.Onward (s s' : Session Store ConnectionId Savepoint) : Prop where
  quiet : Quiet s s'
  marked : ∀ h, s.marked h = true → s'.marked h = true
  grows : s.native.Grows s'.native

namespace Session.Onward

variable {s s' s'' : Session Store ConnectionId Savepoint}

theorem refl (s : Session Store ConnectionId Savepoint) : Onward s s := ⟨.refl s, fun _ => id, .refl _⟩

theorem trans (h : Onward s s') (h' : Onward s' s'') : Onward s s'' :=
  ⟨h.quiet.trans h'.quiet, fun k hk => h'.marked k (h.marked k hk), h.grows.trans h'.grows⟩

theorem withNative {n : Store} (h : s.native.Grows n) : Onward s (s.withNative n) :=
  ⟨.withNative s n, fun _ => id, h⟩

theorem setRollbackOnly (s : Session Store ConnectionId Savepoint) (t : StatusId) :
    Onward s (s.setRollbackOnly t) := ⟨.setRollbackOnly s t, fun _ => id, .refl _⟩

end Session.Onward

namespace StoreSite

variable {key : ResourceKey} {c : ContextIndex} {s s' : Session Store ConnectionId Savepoint} {α : Type}

theorem marked_of_timed {h : HolderId} {x y : Holder ConnectionId} (hx : s.holder? h = some x)
    (hy : y = x ∨ y = x.setRollbackOnly) (k : HolderId) (hk : s.marked k = true) :
    (s.modifyHolder h fun _ => y).marked k = true := by
  rw [marked_modifyHolder hx]
  split
  · rename_i hkh
    rw [hkh, marked_of_holder hx] at hk
    rcases hy with rfl | rfl
    · exact hk
    · rfl
  · exact hk

theorem Accessing.onward {r : Except StorageError Access} (h : Accessing s r s') : Onward s s' := by
  cases h with
  | refused => exact .refl s
  | alone => exact .withNative (.connect s.native false true .unspecified)
  | timedOut _ hx hy | bound hx hy =>
    exact ⟨Quiet.of_alike (alike_of_timed (fun _ => rfl) hx hy) rfl, marked_of_timed hx hy, .refl _⟩

theorem perform_onward {op : Store → Except StorageError (α × Store)}
    (hop : ∀ n a n', op n = .ok (a, n') → n.Grows n') (s : Session Store ConnectionId Savepoint) :
    Onward s ((whole key).perform op s).2 := by
  unfold perform
  cases h : op ((whole key).store s) with
  | error e => exact .refl s
  | ok q => exact .withNative (hop s.native q.1 q.2 h)

/-- Working on data through a context, behind the look-up of what is bound there. -/
theorem through_onward {op : ConnectionId → Store → Except StorageError (α × Store)}
    (hop : ∀ k n a n', op k n = .ok (a, n') → n.Grows n') (c : ContextIndex)
    (s : Session Store ConnectionId Savepoint) : Onward (s.purge c key) ((whole key).through c op s).2 := by
  obtain ⟨r, s₁, haccess, hrun⟩ := through_spec key c op s
  rw [hrun]
  cases r with
  | error e => exact haccess.onward
  | ok a =>
    have hperform : Onward s₁ ((whole key).perform (op a.connection) s₁).2 :=
      perform_onward (hop a.connection) s₁
    have hdone := haccess.onward.trans hperform
    dsimp only
    generalize ((whole key).perform (op a.connection) s₁).2 = s₂ at hdone
    cases haccess with
    | bound => exact hdone
    | alone =>
      -- the connection that is closed was opened on the way, so that nothing was staged on it before
      have hclose := Store.Only.close s₂.native (s.purge c key).native.connections.size
      refine ⟨hdone.quiet.trans (.withNative s₂ _), hdone.marked, ?_, fun k => ?_⟩
      · exact Nat.le_trans hdone.grows.size (Nat.le_of_eq hclose.size.symm)
      · by_cases hk : k = (s.purge c key).native.connections.size
        · rw [hk, Store.log_next]
          exact List.nil_prefix
        · show (s.purge c key).native.log k <+: (s₂.native.close _).log k
          rw [hclose.others k hk]
          exact hdone.grows.logs k

end StoreSite

/-- What a client does between its calls of the manager. -/
inductive StagingAct
  /-- Works on data through the context. -/
  | data (d : Script.DataStep)
  /-- Works on data on any connection. -/
  | direct (k : ConnectionId) (d : Script.DataStep)
  | connect (readOnly autoCommit : Bool) (isolation : Isolation)
  | store (step : Script.StoreStep)
  /-- The clock becomes anything. -/
  | wait (now : Instant)

namespace StagingAct

def perform (key : ResourceKey) (c : ContextIndex) (a : StagingAct)
    (s : Session Store ConnectionId Savepoint) : Session Store ConnectionId Savepoint :=
  match a with
  | data d => ((StoreSite.whole key).through c d.run s).2
  | direct k d => ((StoreSite.whole key).perform (d.run k) s).2
  | connect readOnly autoCommit isolation => s.withNative (s.native.connect readOnly autoCommit isolation).2
  | store step => s.withNative (step.run s.native).2
  | wait now => { s with now }

theorem data_onward (key : ResourceKey) (c : ContextIndex) (d : Script.DataStep)
    (s : Session Store ConnectionId Savepoint) : Onward (s.purge c key) ((data d).perform key c s) :=
  StoreSite.through_onward (fun _ _ _ _ => .data) c s

theorem onward {key : ResourceKey} {c : ContextIndex} {s : Session Store ConnectionId Savepoint}
    (a : StagingAct) (hpurge : s.purge c key = s) : Onward s (a.perform key c s) := by
  cases a with
  | data d =>
    have honward := data_onward key c d s
    rwa [hpurge] at honward
  | direct k d => exact StoreSite.perform_onward (fun _ _ _ => .data) s
  | connect readOnly autoCommit isolation => exact .withNative (.connect _ _ _ _)
  | store step =>
    refine .withNative (.of_staging ?_)
    cases step <;> rfl
  | wait now => exact ⟨⟨rfl, fun _ => rfl, fun _ => rfl⟩, fun _ => id, .refl _⟩

/-- Nothing is taken from any log. -/
theorem grows (key : ResourceKey) (c : ContextIndex) (a : StagingAct) (s : Session Store ConnectionId Savepoint) :
    s.native.Grows (a.perform key c s).native := by
  cases a with
  | data d =>
    have hgrown := (data_onward key c d s).grows
    rwa [native_purge] at hgrown
  | direct k d => exact (StoreSite.perform_onward (fun _ _ _ => .data) s).grows
  | connect readOnly autoCommit isolation => exact .connect _ _ _ _
  | store step =>
    refine .of_staging ?_
    cases step <;> rfl
  | wait now => exact .refl _

end StagingAct

end Demarcation
