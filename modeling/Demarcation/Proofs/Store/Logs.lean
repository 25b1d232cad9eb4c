/-
What is staged on each connection of a store, and what each primitive and each operation on data does
to it: only data operations add to a log, and only ending a transaction or returning to a savepoint
takes from one.
-/
import Demarcation.Proofs.Store.Primitives
import Demarcation.Script.Basic

namespace Demarcation

/-- The change that an operation on data makes, if it is not refused. -/
def Script.DataStep.write? : Script.DataStep → Option Write
  | .put key value | .insert key value | .update key value => some (.put key value)
  | .delete key => some (.delete key)
  | .get _ | .contains _ | .scan _ | .pending => none

namespace Store

variable {s s' : Store} {c k : ConnectionId} {conn : Connection} {p : Primitive}

/-- The changes staged on a connection. One that was never opened has none. -/
def log (s : Store) (c : ConnectionId) : List Write := (s.connection? c).elim [] Connection.log

theorem log_of_connection (h : s.connection? c = some conn) : s.log c = conn.log := by
  unfold log; rw [h]; rfl

theorem log_setConnection (h : s.connection? c = some conn) (conn' : Connection) (k : ConnectionId) :
    (s.setConnection c conn').log k = if k = c then conn'.log else s.log k := by
  unfold log
  rw [connection?_setConnection]
  split
  · rename_i hk
    rw [hk, h]; rfl
  · rfl

theorem setConnection_size (s : Store) (c : ConnectionId) (conn : Connection) :
    (s.setConnection c conn).connections.size = s.connections.size := Array.size_setIfInBounds ..

/-- On the connection that is opened next nothing is staged yet. -/
theorem log_next (s : Store) : s.log s.connections.size = [] := by
  unfold log connection?
  rw [Array.getElem?_eq_none (Nat.le_refl _)]; rfl

/-- A fresh connection has nothing staged. -/
theorem log_connect (s : Store) (readOnly autoCommit : Bool) (isolation : Isolation) (k : ConnectionId) :
    (s.connect readOnly autoCommit isolation).2.log k = s.log k := by
  unfold log connection? connect
  dsimp only
  rw [Array.getElem?_push]
  split
  · rename_i hk
    rw [hk, Array.getElem?_eq_none (Nat.le_refl _)]; rfl
  · rfl

/-! ## One connection at a time -/

/-- Something may have been taken from the log of one connection; the other logs stay. -/
structure Only (c : ConnectionId) (s s' : Store) : Prop where
  size : s'.connections.size = s.connections.size
  others : ∀ k, k ≠ c → s'.log k = s.log k
  taken : s'.log c <+: s.log c

namespace Only

theorem refl (c : ConnectionId) (s : Store) : Only c s s := ⟨rfl, fun _ _ => rfl, List.prefix_refl _⟩

theorem trans {s'' : Store} (h : Only c s s') (h' : Only c s' s'') : Only c s s'' :=
  ⟨h'.size.trans h.size, fun k hk => (h'.others k hk).trans (h.others k hk), h'.taken.trans h.taken⟩

theorem shrinks (h : Only c s s') (k : ConnectionId) : s'.log k <+: s.log k := by
  by_cases hk : k = c
  · subst hk
    exact h.taken
  · exact (h.others k hk).symm ▸ List.prefix_refl _

theorem counted (c : ConnectionId) (s : Store) (p : Primitive) : Only c s (s.counted p) :=
  ⟨rfl, fun _ _ => rfl, List.prefix_refl _⟩

theorem setConnection (h : s.connection? c = some conn) {conn' : Connection} (hlog : conn'.log <+: conn.log) :
    Only c s (s.setConnection c conn') := by
  refine ⟨setConnection_size s c conn', fun k hk => ?_, ?_⟩
  · rw [log_setConnection h, if_neg hk]
  · rw [log_setConnection h, if_pos rfl, log_of_connection h]; exact hlog

theorem primitive {α : Type} {op : Native Store α} (hop : ∀ s, Only c s (op s).2) (s : Store) :
    Only c s (Store.primitive p op s).2 := by
  rcases primitive_cases p op s with h | h
  · rw [h]; exact counted c s p
  · rw [h]; exact (counted c s p).trans (hop _)

theorem changing {op : Store → Except StorageError Store} (hop : ∀ s s', op s = .ok s' → Only c s s') (s : Store) :
    Only c s (Store.changing op s).2 := by
  unfold Store.changing
  cases h : op s with
  | error e => exact refl c s
  | ok s' => exact hop s s' h

theorem commit (h : s.commit c = .ok s') : Only c s s' := by
  obtain ⟨conn, hu, hs⟩ := except_bind_ok h
  cases hs
  have hset : Only c s (s.setConnection c { conn with log := [] }) :=
    setConnection (usable_ok hu).1 List.nil_prefix
  exact ⟨hset.size, hset.others, hset.taken⟩

theorem rollback (h : s.rollback c = .ok s') : Only c s s' := by
  obtain ⟨conn, hu, hs⟩ := except_bind_ok h
  cases hs
  exact setConnection (usable_ok hu).1 List.nil_prefix

theorem close (s : Store) (c : ConnectionId) : Only c s (s.close c) := by
  unfold Store.close
  split
  · exact refl c s
  · rename_i conn hconn
    split
    · exact refl c s
    · have hset : Only c s (s.setConnection c { conn with closed := true, log := [] }) :=
        setConnection hconn List.nil_prefix
      exact ⟨hset.size, hset.others, hset.taken⟩

end Only

section Primitives

variable (key : ResourceKey) (capabilities : Capabilities)

theorem only_commit (c : ConnectionId) (s : Store) : Only c s ((backend key capabilities).commit c s).2 :=
  .primitive (.changing fun _ _ => .commit) s

theorem only_rollback (c : ConnectionId) (s : Store) : Only c s ((backend key capabilities).rollback c s).2 :=
  .primitive (.changing fun _ _ => .rollback) s

theorem only_cleanup (c : ConnectionId) (s : Store) : Only c s ((backend key capabilities).cleanup c s).2 :=
  .primitive (fun s => .close s c) s

end Primitives

/-! ## What is staged as a whole -/

/-- What is staged on every connection, and how many connections there are. -/
def staging (s : Store) : (ConnectionId → List Write) × Nat := (s.log, s.connections.size)

theorem staging_setConnection (h : s.connection? c = some conn) {conn' : Connection} (hlog : conn'.log = conn.log) :
    (s.setConnection c conn').staging = s.staging := by
  refine Prod.ext (funext fun k => ?_) (setConnection_size s c conn')
  show (s.setConnection c conn').log k = s.log k
  rw [log_setConnection h]
  split
  · rename_i hk
    rw [hk, log_of_connection h, hlog]
  · rfl

theorem staging_primitive {α : Type} {op : Native Store α} (hop : ∀ s, (op s).2.staging = s.staging) (s : Store) :
    (primitive p op s).2.staging = s.staging := by
  rcases primitive_cases p op s with h | h
  · rw [h]; rfl
  · rw [h, hop]; rfl

theorem Only.of_staging {s'' : Store} (h : Only c s s') (hs : s''.staging = s'.staging) : Only c s s'' := by
  have hlog : s''.log = s'.log := congrArg Prod.fst hs
  have hsize : s''.connections.size = s'.connections.size := congrArg Prod.snd hs
  refine ⟨hsize.trans h.size, fun k hk => ?_, ?_⟩
  · rw [hlog]; exact h.others k hk
  · rw [hlog]; exact h.taken

section Staging

variable {key : ResourceKey} {capabilities : Capabilities}

/-- A beginning fails, or it opens the next connection. -/
theorem backend_start_cases (key : ResourceKey) (capabilities : Capabilities) (d : Definition) (s : Store) :
    (∃ f s', (backend key capabilities).start d s = (.error f, s') ∧ s'.staging = s.staging) ∨
    (∃ s', (backend key capabilities).start d s = (.ok s.connections.size, s') ∧
      s'.connections.size = s.connections.size + 1 ∧ s'.log = s.log) := by
  rcases primitive_cases .begin (fun s : Store => (.ok (s.connect d.readOnly false d.isolation).1,
    (s.connect d.readOnly false d.isolation).2)) s with hp | hp
  · exact .inl ⟨_, _, hp, rfl⟩
  · exact .inr ⟨_, hp, Array.size_push _, funext fun k => log_connect _ _ _ _ k⟩

theorem backend_start {d : Definition} (h : (backend key capabilities).start d s = (.ok c, s')) :
    c = s.connections.size ∧ s'.connections.size = s.connections.size + 1 ∧ s'.log = s.log := by
  rcases backend_start_cases key capabilities d s with ⟨_, _, hrun, _⟩ | ⟨_, hrun, hsize, hlog⟩
  · cases hrun.symm.trans h
  · cases hrun.symm.trans h
    exact ⟨rfl, hsize, hlog⟩

theorem backend_untouched : (backend key capabilities).Untouched staging := by
  refine ⟨?_, fun r => staging_primitive fun _ => rfl, fun r => staging_primitive fun _ => rfl, fun r => ?_⟩
  · intro d s f s' h
    rcases backend_start_cases key capabilities d s with ⟨_, _, hrun, hsame⟩ | ⟨_, hrun, _⟩
    · cases hrun.symm.trans h
      exact hsame
    · cases hrun.symm.trans h
  · refine staging_primitive fun s => ?_
    cases h : s.savepoint r with
    | error e => rfl
    | ok q =>
      obtain ⟨conn, hu, hq⟩ := except_bind_ok h
      cases hq
      exact staging_setConnection (usable_ok hu).1 rfl

/-- A savepoint is taken at the end of the log. -/
theorem backend_createSavepoint {sp : Savepoint}
    (h : (backend key capabilities).createSavepoint c s = (.ok sp, s')) : sp.mark = (s.log c).length := by
  obtain ⟨conn, hconn, -, hmark⟩ := createSavepoint_ok h
  rw [log_of_connection hconn, hmark]

theorem backend_releaseSavepoint (c : ConnectionId) (sp : Savepoint) (s : Store) :
    ((backend key capabilities).releaseSavepoint c sp s).2.staging = s.staging := by
  refine staging_primitive (fun s => ?_) s
  cases s.release c sp <;> rfl

/-- Returning to a savepoint drops what was staged behind it, or fails and drops nothing. -/
theorem backend_rollbackToSavepoint (c : ConnectionId) (sp : Savepoint) (s : Store) :
    (∃ f s', (backend key capabilities).rollbackToSavepoint c sp s = (.error f, s') ∧ s'.staging = s.staging) ∨
    (∃ s', (backend key capabilities).rollbackToSavepoint c sp s = (.ok (), s') ∧
      s'.connections.size = s.connections.size ∧
      ∀ k, s'.log k = if k = c then (s.log k).take sp.mark else s.log k) := by
  rcases primitive_changing .rollbackToSavepoint (·.rollbackTo c sp) s with ⟨f, h⟩ | ⟨s', hs, h⟩
  · exact .inl ⟨f, _, h, rfl⟩
  · obtain ⟨_, _, hs⟩ := except_bind_ok hs
    obtain ⟨conn, hu, hs⟩ := except_bind_ok hs
    split at hs <;> cases hs
    have hconn : s.connection? c = some conn := (usable_ok hu).1
    refine .inr ⟨_, h, setConnection_size _ _ _, fun k => ?_⟩
    rw [log_setConnection (usable_ok hu).1]
    split
    · rename_i hk
      rw [hk, log_of_connection hconn]
    · rfl

end Staging

/-! ## Staging more -/

/-- An operation on data makes its change, if it has one. -/
theorem data_run {d : Script.DataStep} {a : Script.Answer} (h : d.run c s = .ok (a, s')) :
    d.write?.elim (s' = s) fun w => s.write c w = .ok s' := by
  -- each change is a check of what is there, if any, and a write; the others only read
  cases d with
  | put key value =>
    obtain ⟨s₁, hw, hs⟩ := except_bind_ok h
    cases hs; exact hw
  | insert key value =>
    obtain ⟨s₁, hw, hs⟩ := except_bind_ok h
    cases hs
    obtain ⟨there, _, hw⟩ := except_bind_ok hw
    split at hw
    · cases hw
    · exact hw
  | update key value =>
    obtain ⟨s₁, hw, hs⟩ := except_bind_ok h
    cases hs
    obtain ⟨there, _, hw⟩ := except_bind_ok hw
    split at hw
    · exact hw
    · cases hw
  | delete key =>
    obtain ⟨s₁, hw, hs⟩ := except_bind_ok h
    cases hs
    obtain ⟨there, _, hw⟩ := except_bind_ok hw
    split at hw
    · exact hw
    · cases hw
  | get | contains | scan =>
    obtain ⟨_, _, hs⟩ := except_bind_ok h
    cases hs; rfl
  | pending => cases h; rfl

/-- An operation on data makes one change or none. -/
theorem data_written {d : Script.DataStep} {a : Script.Answer} (h : d.run c s = .ok (a, s')) :
    s' = s ∨ ∃ w, s.write c w = .ok s' := by
  have hrun := data_run h
  cases hw : d.write? with
  | none => rw [hw] at hrun; exact .inl hrun
  | some w => rw [hw] at hrun; exact .inr ⟨w, hrun⟩

/-- Nothing was taken from any log. -/
structure Grows (s s' : Store) : Prop where
  size : s.connections.size ≤ s'.connections.size
  logs : ∀ k, s.log k <+: s'.log k

namespace Grows

theorem refl (s : Store) : Grows s s := ⟨Nat.le_refl _, fun _ => List.prefix_refl _⟩

theorem trans {s'' : Store} (h : Grows s s') (h' : Grows s' s'') : Grows s s'' :=
  ⟨Nat.le_trans h.size h'.size, fun k => (h.logs k).trans (h'.logs k)⟩

theorem of_log (hsize : s.connections.size ≤ s'.connections.size) (hlog : s'.log = s.log) : Grows s s' :=
  ⟨hsize, fun _ => hlog.symm ▸ List.prefix_refl _⟩

theorem of_staging (h : s'.staging = s.staging) : Grows s s' :=
  of_log (Nat.le_of_eq (congrArg Prod.snd h).symm) (congrArg Prod.fst h)

theorem connect (s : Store) (readOnly autoCommit : Bool) (isolation : Isolation) :
    Grows s (s.connect readOnly autoCommit isolation).2 := by
  refine of_log ?_ (funext fun k => log_connect s readOnly autoCommit isolation k)
  show s.connections.size ≤ (s.connections.push _).size
  rw [Array.size_push]
  omega

theorem write {w : Write} (h : s.write c w = .ok s') : Grows s s' := by
  unfold Store.write at h
  split at h
  · cases h
  · obtain ⟨conn, hu, h⟩ := except_bind_ok h
    split at h
    · cases h; exact of_staging rfl
    · cases h
      refine ⟨Nat.le_of_eq (setConnection_size s c _).symm, fun k => ?_⟩
      rw [log_setConnection (usable_ok hu).1]
      split
      · rename_i hk
        rw [hk, log_of_connection (usable_ok hu).1]
        exact List.prefix_append _ _
      · exact List.prefix_refl _

/-- An operation on data only adds to the log of its connection. -/
theorem data {d : Script.DataStep} {a : Script.Answer} (h : d.run c s = .ok (a, s')) : Grows s s' := by
  rcases data_written h with rfl | ⟨w, hw⟩
  · exact refl s'
  · exact write hw

end Grows

end Store

end Demarcation
