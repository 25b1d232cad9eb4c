/-
Work on a store between the calls of its manager, through the contexts and by calls on any of its connections. All
that the work changes of the store are calls on it, and so are the primitives of the manager: what every call
maintains, holds throughout.
-/
import Demarcation.Proofs.Maintenance
import Demarcation.Proofs.Store.Replay
import Demarcation.Proofs.Store.Staging

namespace Demarcation

open Session Manager

/-- The call neither opens a connection nor closes one. -/
def StoreCall.lasts : StoreCall → Bool
  | connect _ _ _ | close _ => false
  | data _ _ | commit _ | rollback _ | savepoint _ | rollbackTo _ _ | release _ _ | store _ => true
  | primitive _ call => call.lasts

namespace Store

variable {α β : Type} {P : Store → Prop} {s : Store}

/-! ## Primitives as calls -/

theorem primitive_snd (p : Primitive) {op : Native Store α} {op' : Native Store β} (h : ∀ s, (op s).2 = (op' s).2)
    (s : Store) : (primitive p op s).2 = (primitive p op' s).2 := by
  unfold primitive
  rcases enter p s with ⟨_ | _, s'⟩
  · rfl
  · exact h s'

/-- A primitive that does what a call does maintains what the call maintains. -/
theorem maintained_primitive (p : Primitive) {op : Native Store α} (call : StoreCall)
    (hP : ∀ s, P s → P ((StoreCall.primitive p call).run s).2) (h : ∀ s, (op s).2 = (call.run s).2) (hs : P s) :
    P (primitive p op s).2 := by
  rw [primitive_snd p h]
  exact hP s hs

/-- What every call on a store maintains but for those that open and close connections, its primitives sustain. -/
theorem sustains_of_calls (hP : ∀ call : StoreCall, call.lasts = true → ∀ s, P s → P (call.run s).2)
    (key : ResourceKey) (capabilities : Capabilities) : (backend key capabilities).Sustains P where
  suspend c s := maintained_primitive .suspend (.store .statsText) (hP _ rfl) fun _ => rfl
  resume c s := maintained_primitive .resume (.store .statsText) (hP _ rfl) fun _ => rfl
  commit c s := hP (.primitive .commit (.commit c)) rfl s
  rollback c s := hP (.primitive .rollback (.rollback c)) rfl s
  createSavepoint c s := maintained_primitive .createSavepoint (.savepoint c) (hP _ rfl) fun s => by
    unfold StoreCall.run changing
    dsimp only
    cases s.savepoint c <;> rfl
  rollbackToSavepoint c sp s := hP (.primitive .rollbackToSavepoint (.rollbackTo c sp)) rfl s
  releaseSavepoint c sp s := maintained_primitive .releaseSavepoint (.release c sp) (hP _ rfl) fun s => by
    unfold StoreCall.run changing
    dsimp only
    cases s.release c sp <;> rfl

/-- What every call on a store maintains, its primitives maintain. -/
theorem maintains_of_calls (hP : ∀ (call : StoreCall) s, P s → P (call.run s).2) (key : ResourceKey)
    (capabilities : Capabilities) : (backend key capabilities).Maintains P where
  toSustains := sustains_of_calls (fun call _ => hP call) key capabilities
  start d _ := maintained_primitive .begin (.connect d.readOnly false d.isolation) (hP _) fun _ => rfl
  cleanup c s := hP (.primitive .cleanup (.close c)) s

end Store

/-! ## Work in a context -/

/-- What is done with a store between the calls of its manager. -/
inductive StoreWork
  /-- Works on data through the context. -/
  | data (d : Script.DataStep)
  /-- Asks for the connection of the context, and keeps it. -/
  | access
  /-- A call on any connection, or on the store itself. -/
  | direct (call : StoreCall)
  /-- The clock becomes anything. -/
  | wait (now : Instant)

namespace StoreWork

variable {key : ResourceKey} {c : ContextIndex} {s : Session Store ConnectionId Savepoint}

def perform (key : ResourceKey) (work : ContextIndex × StoreWork) (s : Session Store ConnectionId Savepoint) :
    Session Store ConnectionId Savepoint :=
  match work.2 with
  | .data d => ((StoreSite.whole key).through work.1 d.run s).2
  | .access => ((StoreSite.whole key).access work.1 s).2
  | .direct call => s.withNative (call.run s.native).2
  | .wait now => { s with now }

/-- An operation on data changes the store as a call does. -/
theorem perform_data (key : ResourceKey) (k : ConnectionId) (d : Script.DataStep)
    (s : Session Store ConnectionId Savepoint) :
    ((StoreSite.whole key).perform (d.run k) s).2 = s.withNative ((StoreCall.data k d).run s.native).2 := by
  have hcall : (StoreCall.data k d).run s.native = Store.changing (fun s => (d.run k s).map Prod.snd) s.native := rfl
  rw [hcall]
  unfold StoreSite.perform Store.changing
  rw [show (StoreSite.whole key).store s = s.native from rfl]
  dsimp only
  rcases d.run k s.native with e | ⟨a, n⟩ <;> rfl

theorem steady (work : ContextIndex × StoreWork) (s : Session Store ConnectionId Savepoint) :
    Steady s (perform key work s) := by
  rcases work with ⟨c, d | _ | call | now⟩
  · obtain ⟨r, s₁, haccess, hrun⟩ := StoreSite.through_spec key c d.run s
    have hasked : Steady s s₁ := (Alike.purge s c key).trans (haccess.alike fun _ => rfl)
    show Steady s ((StoreSite.whole key).through c d.run s).2
    rw [hrun]
    cases r with
    | error e => exact hasked
    | ok a =>
      dsimp only
      rw [perform_data]
      cases a with
      | transactional => exact hasked.trans (.withNative s₁ _)
      | autoCommit k => exact hasked.trans ((Alike.withNative s₁ _).trans (.withNative _ _))
  · exact StoreSite.access_alike key c s fun _ => rfl
  · exact .withNative s _
  · exact ⟨rfl, fun _ => rfl⟩

variable {P : Store → Prop}

theorem accessing_maintained (hP : ∀ (call : StoreCall) s, P s → P (call.run s).2)
    {r : Except StorageError Access} {s s' : Session Store ConnectionId Savepoint}
    (h : StoreSite.Accessing s r s') (hs : P s.native) : P s'.native := by
  cases h with
  | refused | timedOut | bound => exact hs
  | alone => exact hP (.connect false true .unspecified) _ hs

theorem maintained (hP : ∀ (call : StoreCall) s, P s → P (call.run s).2) (work : ContextIndex × StoreWork)
    (hs : P s.native) : P (perform key work s).native := by
  have hpurged : ∀ c, P (s.purge c key).native := by
    intro c
    rw [native_purge]
    exact hs
  rcases work with ⟨c, d | _ | call | now⟩
  · obtain ⟨r, s₁, haccess, hrun⟩ := StoreSite.through_spec key c d.run s
    have hasked := accessing_maintained hP haccess (hpurged c)
    show P ((StoreSite.whole key).through c d.run s).2.native
    rw [hrun]
    cases r with
    | error e => exact hasked
    | ok a =>
      have hworked : P ((StoreCall.data a.connection d).run s₁.native).2 := hP (.data a.connection d) _ hasked
      dsimp only
      rw [perform_data]
      cases a with
      | transactional => exact hworked
      | autoCommit k => exact hP (.close k) _ hworked
  · obtain ⟨r, s₁, hrun, haccess⟩ := StoreSite.access_spec key c s
    show P ((StoreSite.whole key).access c s).2.native
    rw [hrun]
    exact accessing_maintained hP haccess (hpurged c)
  · exact hP call _ hs
  · exact hs

end StoreWork

end Demarcation
