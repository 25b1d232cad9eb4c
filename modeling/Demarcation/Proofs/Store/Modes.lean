/-
What a call on a store leaves of its connections. It changes one of them at most, and none ever changes its
number or its mode.
-/
import Demarcation.Proofs.Store.Replay

namespace Demarcation

/-- What is fixed when a connection is opened. -/
structure ConnectionMode where
  id : UInt64
  readOnly : Bool
  autoCommit : Bool
  isolation : Isolation

def Connection.mode (conn : Connection) : ConnectionMode :=
  ⟨conn.id, conn.readOnly, conn.autoCommit, conn.isolation⟩

namespace Store

variable {s s' : Store} {c k : ConnectionId} {conn conn' : Connection}

/-- The connections stay, with their modes, and all but one of them are as they were. A connection that has been
opened shows its number, and nothing is staged on it. -/
structure Keeps (one : Option ConnectionId) (s s' : Store) : Prop where
  mode : ∀ k conn, s.connection? k = some conn →
    ∃ conn', s'.connection? k = some conn' ∧ conn'.mode = conn.mode
  others : ∀ k conn, one ≠ some k → s.connection? k = some conn → s'.connection? k = some conn
  opened : ∀ k conn', s'.connection? k = some conn' → s.connection? k = none →
    conn'.id = k.number ∧ conn'.log = []

namespace Keeps

variable {one : Option ConnectionId}

theorem of_connections (h : s'.connections = s.connections) : Keeps one s s' := by
  have hsame : s'.connection? = s.connection? := by
    funext k
    unfold connection?
    rw [h]
  refine ⟨fun k conn hk => ⟨conn, ?_, rfl⟩, fun k conn _ hk => ?_, fun k conn' hk hnone => ?_⟩
  · rw [hsame, hk]
  · rw [hsame, hk]
  · rw [hsame, hnone] at hk
    cases hk

theorem setConnection (h : s.connection? c = some conn) (hmode : conn'.mode = conn.mode) :
    Keeps (some c) s (s.setConnection c conn') := by
  refine ⟨fun k conn₁ hk => ?_, fun k conn₁ hne hk => ?_, fun k conn₁ hk hnone => ?_⟩
  · rw [connection?_setConnection]
    split
    · rename_i hkc
      subst hkc
      cases h.symm.trans hk
      exact ⟨conn', by simp [h], hmode⟩
    · exact ⟨conn₁, hk, rfl⟩
  · have hkc : k ≠ c := fun heq => hne (congrArg some heq.symm)
    rw [connection?_setConnection, if_neg hkc]
    exact hk
  · rw [connection?_setConnection, hnone] at hk
    split at hk <;> cases hk

theorem connect (s : Store) (readOnly autoCommit : Bool) (isolation : Isolation) :
    Keeps one s (s.connect readOnly autoCommit isolation).2 := by
  have hold : ∀ k conn, s.connection? k = some conn →
      (s.connect readOnly autoCommit isolation).2.connection? k = some conn := by
    intro k conn hk
    have hlt : k < s.connections.size := (Array.getElem?_eq_some_iff.1 hk).1
    show (s.connections.push _)[k]? = some conn
    rw [Array.getElem?_push, if_neg (Nat.ne_of_lt hlt)]
    exact hk
  refine ⟨fun k conn hk => ⟨conn, hold k conn hk, rfl⟩, fun k conn _ hk => hold k conn hk, ?_⟩
  intro k conn' hk hnone
  change (s.connections.push _)[k]? = some conn' at hk
  change s.connections[k]? = none at hnone
  rw [Array.getElem?_push, hnone] at hk
  split at hk
  · rename_i hsize
    cases hk
    exact ⟨congrArg ConnectionId.number hsize.symm, rfl⟩
  · cases hk

theorem write {w : Write} (h : s.write c w = .ok s') : Keeps (some c) s s' := by
  unfold Store.write at h
  split at h
  · cases h
  · obtain ⟨conn, hu, h⟩ := except_bind_ok h
    split at h <;> cases h
    · exact of_connections rfl
    · exact setConnection (usable_ok hu).1 rfl

theorem close (s : Store) (c : ConnectionId) : Keeps (some c) s (s.close c) := by
  unfold Store.close
  split
  · exact of_connections rfl
  · rename_i conn hconn
    split
    · exact of_connections rfl
    · have hset : Keeps (some c) s (s.setConnection c { conn with closed := true, log := [] }) :=
        setConnection hconn rfl
      exact ⟨hset.mode, hset.others, hset.opened⟩

theorem changing {op : Store → Except StorageError Store} (hop : ∀ s', op s = .ok s' → Keeps one s s') :
    Keeps one s (changing op s).2 := by
  unfold Store.changing
  cases h : op s with
  | error e => exact of_connections rfl
  | ok s' => exact hop s' h

/-- A call changes the connection that it is made on at most. -/
theorem called (call : StoreCall) (s : Store) : Keeps call.connection? s (call.run s).2 := by
  induction call generalizing s with
  | connect readOnly autoCommit isolation => exact connect s readOnly autoCommit isolation
  | data c d =>
    refine changing fun s' h => ?_
    obtain ⟨⟨a, s₁⟩, hrun, rfl⟩ := except_map_ok h
    rcases data_written hrun with rfl | ⟨w, hw⟩
    · exact of_connections rfl
    · exact write hw
  | commit c =>
    refine changing fun s' h => ?_
    obtain ⟨conn, hu, hs'⟩ := except_bind_ok h
    cases hs'
    have hset : Keeps (some c) s (s.setConnection c { conn with log := [] }) := setConnection (usable_ok hu).1 rfl
    exact ⟨hset.mode, hset.others, hset.opened⟩
  | rollback c =>
    refine changing fun s' h => ?_
    obtain ⟨conn, hu, hs'⟩ := except_bind_ok h
    cases hs'
    exact setConnection (usable_ok hu).1 rfl
  | savepoint c =>
    refine changing fun s' h => ?_
    obtain ⟨⟨sp, s₁⟩, hrun, rfl⟩ := except_map_ok h
    obtain ⟨conn, hu, hs'⟩ := except_bind_ok hrun
    cases hs'
    exact setConnection (usable_ok hu).1 rfl
  | rollbackTo c sp =>
    refine changing fun s' h => ?_
    obtain ⟨_, _, h⟩ := except_bind_ok h
    obtain ⟨conn, hu, h⟩ := except_bind_ok h
    split at h <;> cases h
    exact setConnection (usable_ok hu).1 rfl
  | release c sp =>
    refine changing fun s' h => ?_
    obtain ⟨_, _, rfl⟩ := except_map_ok h
    exact of_connections rfl
  | close c => exact close s c
  | store step => cases step <;> exact of_connections rfl
  | primitive p call ih =>
    have hcounted : Keeps call.connection? s (call.run (s.counted p)).2 :=
      ⟨(ih (s.counted p)).mode, (ih (s.counted p)).others, (ih (s.counted p)).opened⟩
    show Keeps call.connection? s (Store.primitive p call.run s).2
    rcases primitive_cases p call.run s with hp | hp
    · rw [hp]
      exact of_connections rfl
    · rw [hp]
      exact hcounted

end Keeps

end Store

end Demarcation
