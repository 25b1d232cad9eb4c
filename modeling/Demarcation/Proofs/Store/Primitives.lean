/-
The primitives of a store, one by one: a failed one has changed nothing but the counts, and only a
commit that succeeds changes the committed entries.
-/
import Demarcation.Proofs.Client
import Demarcation.Store

namespace Demarcation

theorem except_bind_ok {ε α β : Type} {x : Except ε α} {f : α → Except ε β} {b : β} (h : (x >>= f) = .ok b) :
    ∃ a, x = .ok a ∧ f a = .ok b := by
  cases x with
  | error e => cases h
  | ok a => exact ⟨a, rfl, h⟩

theorem except_bind_error {ε α β : Type} {x : Except ε α} {f : α → Except ε β} {e : ε} (h : (x >>= f) = .error e) :
    x = .error e ∨ ∃ a, x = .ok a ∧ f a = .error e := by
  cases x with
  | error e' => cases h; exact .inl rfl
  | ok a => exact .inr ⟨a, rfl, h⟩

theorem except_map_ok {ε α β : Type} {x : Except ε α} {f : α → β} {b : β} (h : x.map f = .ok b) :
    ∃ a, x = .ok a ∧ f a = b := by
  cases x with
  | error e => cases h
  | ok a => cases h; exact ⟨a, rfl, rfl⟩

theorem except_map_error {ε α β : Type} {x : Except ε α} {f : α → β} {e : ε} (h : x.map f = .error e) : x = .error e := by
  cases x with
  | error e' => cases h; rfl
  | ok a => cases h

namespace Store

variable {α : Type} {s s' : Store} {c : ConnectionId} {conn : Connection} {p : Primitive}

/-! ## Counting -/

/-- The store with one more call of a primitive, which has used up its planned failure. -/
def counted (s : Store) (p : Primitive) : Store := (enter p s).2

@[simp] theorem counted_entries (s : Store) (p : Primitive) : (s.counted p).entries = s.entries := rfl

theorem primitive_cases (p : Primitive) (op : Native Store α) (s : Store) :
    primitive p op s = (.error (.storage (.injected p)), s.counted p) ∨
    primitive p op s = op (s.counted p) := by
  unfold primitive counted
  rcases henter : enter p s with ⟨f | ⟨⟩, s'⟩
  · left
    unfold enter at henter
    dsimp only at henter
    split at henter
    · cases henter; rfl
    · cases henter
  · exact .inr rfl

theorem primitive_ok {op : Native Store α} {a : α} (h : primitive p op s = (.ok a, s')) :
    op (s.counted p) = (.ok a, s') := by
  rcases primitive_cases p op s with hp | hp
  · cases hp.symm.trans h
  · exact hp.symm.trans h

/-- A counted operation that changes the store has done so, or has failed and changed nothing. -/
theorem primitive_changing (p : Primitive) (op : Store → Except StorageError Store) (s : Store) :
    (∃ f, primitive p (changing op) s = (.error f, s.counted p)) ∨
    (∃ s', op (s.counted p) = .ok s' ∧ primitive p (changing op) s = (.ok (), s')) := by
  rcases primitive_cases p (changing op) s with h | h
  · exact .inl ⟨_, h⟩
  · unfold changing at h
    cases hop : op (s.counted p) with
    | error e => rw [hop] at h; exact .inl ⟨_, h⟩
    | ok s' => rw [hop] at h; exact .inr ⟨s', rfl, h⟩

/-! ## Connections -/

theorem usable_ok (h : s.usable c = .ok conn) :
    s.connection? c = some conn ∧ conn.closed = false ∧ s.busy = false := by
  unfold usable at h
  cases hc : s.connection? c with
  | none => rw [hc] at h; cases h
  | some conn' =>
    rw [hc] at h
    dsimp only at h
    cases hclosed : conn'.closed with
    | true => rw [hclosed] at h; cases h
    | false =>
      cases hbusy : s.busy with
      | true => rw [hclosed, hbusy] at h; cases h
      | false =>
        rw [hclosed, hbusy] at h
        cases h
        exact ⟨rfl, hclosed, rfl⟩

theorem connection?_setConnection (s : Store) (c k : ConnectionId) (conn : Connection) :
    (s.setConnection c conn).connection? k =
      if k = c then (s.connection? k).map fun _ => conn else s.connection? k := by
  unfold connection? setConnection
  dsimp only
  by_cases hk : k = c
  · subst hk
    by_cases hlt : k < s.connections.size
    · simp [hlt]
    · simp [hlt]
  · rw [if_neg hk, Array.getElem?_setIfInBounds_ne (Ne.symm hk)]

/-- A savepoint carries the number of its connection and the length of its log. -/
theorem createSavepoint_ok {key : ResourceKey} {capabilities : Capabilities} {sp : Savepoint}
    (h : (backend key capabilities).createSavepoint c s = (.ok sp, s')) :
    ∃ conn, s.connection? c = some conn ∧ sp.connection = conn.id ∧ sp.mark = conn.log.length := by
  have hrun := primitive_ok h
  cases hsp : (s.counted .createSavepoint).savepoint c with
  | error e => rw [hsp] at hrun; cases hrun
  | ok q =>
    obtain ⟨conn, hu, hq⟩ := except_bind_ok hsp
    cases hq
    rw [hsp] at hrun
    cases hrun
    exact ⟨conn, (usable_ok hu).1, rfl, rfl⟩

/-! ## What becomes of the committed entries -/

theorem entries_primitive {op : Native Store α} (hop : ∀ s, (op s).2.entries = s.entries) (s : Store) :
    (primitive p op s).2.entries = s.entries := by
  rcases primitive_cases p op s with h | h
  · rw [h]; rfl
  · rw [h, hop]; rfl

theorem entries_primitive_changing {op : Store → Except StorageError Store}
    (hop : ∀ s s', op s = .ok s' → s'.entries = s.entries) (s : Store) :
    (primitive p (changing op) s).2.entries = s.entries := by
  rcases primitive_changing p op s with ⟨f, h⟩ | ⟨s', hs, h⟩
  · rw [h]; rfl
  · rw [h]
    exact (hop (s.counted p) s' hs).trans (counted_entries s p)

theorem rollback_entries (h : s.rollback c = .ok s') : s'.entries = s.entries := by
  obtain ⟨conn, _, hs⟩ := except_bind_ok h
  cases hs; rfl

theorem rollbackTo_entries {sp : Savepoint} (h : s.rollbackTo c sp = .ok s') : s'.entries = s.entries := by
  obtain ⟨_, _, h⟩ := except_bind_ok h
  obtain ⟨conn, _, h⟩ := except_bind_ok h
  split at h <;> cases h
  rfl

theorem savepoint_entries {sp : Savepoint} (h : s.savepoint c = .ok (sp, s')) : s'.entries = s.entries := by
  obtain ⟨conn, _, hs⟩ := except_bind_ok h
  cases hs; rfl

theorem close_entries (s : Store) (c : ConnectionId) : (s.close c).entries = s.entries := by
  unfold close
  split
  · rfl
  · split <;> rfl

/-- A commit that succeeds overlays the committed entries with everything staged on the connection, in
order. -/
theorem commit_entries (h : s.commit c = .ok s') :
    ∃ conn, s.connection? c = some conn ∧ s'.entries = s.entries.applyAll conn.log := by
  obtain ⟨conn, hu, hs⟩ := except_bind_ok h
  cases hs
  exact ⟨conn, (usable_ok hu).1, rfl⟩

variable (key : ResourceKey) (capabilities : Capabilities)

theorem backend_start_entries (d : Definition) (s : Store) :
    ((backend key capabilities).start d s).2.entries = s.entries := entries_primitive (fun _ => rfl) s

theorem backend_unmoved : (backend key capabilities).Unmoved Store.entries := by
  refine ⟨⟨?_, fun r => entries_primitive fun _ => rfl, fun r => entries_primitive fun _ => rfl, fun r => ?_⟩,
    fun r sp => ?_, fun r sp => ?_⟩
  · intro d s f s' h
    exact (congrArg (·.2.entries) h).symm.trans (backend_start_entries key capabilities d s)
  · refine entries_primitive fun s => ?_
    split
    · rename_i h; exact savepoint_entries h
    · rfl
  · exact entries_primitive_changing fun _ _ => rollbackTo_entries
  · refine entries_primitive fun s => ?_
    split <;> rfl

theorem backend_rollback_entries (c : ConnectionId) (s : Store) :
    ((backend key capabilities).rollback c s).2.entries = s.entries :=
  entries_primitive_changing (fun _ _ => rollback_entries) s

theorem backend_cleanup_entries (c : ConnectionId) (s : Store) :
    ((backend key capabilities).cleanup c s).2.entries = s.entries :=
  entries_primitive (fun s => close_entries s c) s

/-- The native commit publishes everything staged on the connection, or it fails and publishes
nothing. -/
theorem backend_commit (c : ConnectionId) (s : Store) :
    (∃ conn, ((backend key capabilities).commit c s).1 = .ok () ∧ s.connection? c = some conn ∧
      ((backend key capabilities).commit c s).2.entries = s.entries.applyAll conn.log) ∨
    (∃ f, ((backend key capabilities).commit c s).1 = .error f ∧
      ((backend key capabilities).commit c s).2.entries = s.entries) := by
  have hcommit : (backend key capabilities).commit c s = primitive .commit (changing (·.commit c)) s := rfl
  rw [hcommit]
  rcases primitive_changing .commit (·.commit c) s with ⟨f, h⟩ | ⟨s', hs, h⟩
  · rw [h]; exact .inr ⟨f, rfl, rfl⟩
  · obtain ⟨conn, hconn, hentries⟩ := commit_entries hs
    rw [h]; exact .inl ⟨conn, rfl, hconn, hentries⟩

end Store

end Demarcation
