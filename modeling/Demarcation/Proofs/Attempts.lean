/-
Completing a scope, step by step. Whatever fails, every step that applies is attempted, and of several failures
the first one in the order of the steps is reported.
-/
import Demarcation.Proofs.Exchanges
import Demarcation.Proofs.References
import Demarcation.Proofs.Retirement
import Demarcation.Proofs.Sidelined

namespace Demarcation

open Session Manager

variable {σ ρ ς : Type}

/-! ## Statuses whose transactions are there -/

/-- What the status needs a holder for has one, and what it refers to is among the first `n` holders. -/
structure Status.Anchored (n : Nat) (st : Status ς) : Prop where
  owner : st.newTransaction = true → st.holder.isSome = true
  nested : st.savepoint.isSome = true → st.holder.isSome = true
  holder : ∀ h, st.holder = some h → h < n
  suspended : ∀ h, st.suspended = some h → h < n

theorem Status.Anchored.mono {n n' : Nat} {st : Status ς} (ha : st.Anchored n) (hle : n ≤ n') : st.Anchored n' :=
  ⟨ha.owner, ha.nested, fun h hh => Nat.lt_of_lt_of_le (ha.holder h hh) hle,
    fun h hh => Nat.lt_of_lt_of_le (ha.suspended h hh) hle⟩

/-- Calls of any managers, one after the other. -/
def Session.calledBy (s : Session σ ρ ς) (calls : List (Manager σ ρ ς × ManagerCall (Meantime σ ρ))) :
    Session σ ρ ς :=
  calls.foldl (fun s call => call.1.called Meantime.pass s call.2) s

def Anchored (s : Session σ ρ ς) : Prop := ∀ t st, s.status? t = some st → st.Anchored s.holders.size

namespace Anchored

variable {m : Manager σ ρ ς} {s s' : Session σ ρ ς} {c : ContextIndex} {d : Definition}

theorem congr (hs : Anchored s) (hstatuses : ∀ t, s'.status? t = s.status? t)
    (hsize : s'.holders.size = s.holders.size) : Anchored s' := by
  intro t st hst
  rw [hsize]
  exact hs t st ((hstatuses t).symm.trans hst)

theorem opening (hs : Anchored s) {r : Except TransactionError StatusId} (ho : Opening m c d s r s') :
    Anchored s' := by
  have hflagged : ∀ t st h, r = .ok t → s'.status? t = some st → st.suspended = some h → h < s'.holders.size := by
    rintro t st h rfl hst hh
    obtain ⟨x, hx, -⟩ := ho.flagged hst hh
    exact holder?_lt hx
  cases ho.outline (.const m.backend) with
  | failed halike => exact hs.congr halike.status? halike.holders_size
  | @entered s₁ st halike _ _ hnew hrange hsaved =>
    intro t st' hst'
    have hlast := hst'
    rw [status?_addStatus] at hst'
    have hsize : s₁.holders.size = s.holders.size := halike.holders_size
    split at hst'
    · rename_i ht
      obtain rfl := Option.some.inj hst'
      subst ht
      refine ⟨fun h => ?_, fun h => ?_, fun h hh => ?_, fun h hh => hflagged _ _ h rfl hlast hh⟩
      · rw [hnew] at h; cases h
      · obtain ⟨sp, hsp⟩ := Option.isSome_iff_exists.1 h
        obtain ⟨_, k, _, hk, _⟩ := hsaved sp hsp
        rw [hk]; rfl
      · exact Nat.lt_of_lt_of_eq (hrange h hh) hsize.symm
    · exact (hs t st' ((halike.status? t).symm.trans hst')).mono (Nat.le_of_eq hsize.symm)
  | @begun s₁ st x n halike _ _ _ _ _ hnone _ hh =>
    intro t st' hst'
    have hlast := hst'
    have hsize : s₁.holders.size = s.holders.size := halike.holders_size
    have hgrown : ((s₁.started c m.backend.key x n).addStatus st).2.holders.size = s₁.holders.size + 1 :=
      started_size s₁ c m.backend.key x n
    rw [status?_addStatus] at hst'
    split at hst'
    · rename_i ht
      obtain rfl := Option.some.inj hst'
      subst ht
      refine ⟨fun _ => ?_, fun h => ?_, fun h hh' => ?_, fun h hh' => hflagged _ _ h rfl hlast hh'⟩
      · rw [hh]; rfl
      · rw [hnone] at h; cases h
      · obtain rfl := Option.some.inj (hh.symm.trans hh')
        exact Nat.lt_of_lt_of_eq (Nat.lt_succ_self _) hgrown.symm
    · rw [status?_started, halike.status?] at hst'
      exact (hs t st' hst').mono (by omega)

theorem called (hs : Anchored s) (call : ManagerCall (Meantime σ ρ)) :
    Anchored (m.called Meantime.pass s call) := by
  cases call with
  | enter c d =>
    obtain ⟨r, s', hrun, hopen⟩ := getTransaction_spec m c d s
    have hpurged : Anchored (s.purge c m.backend.key) :=
      hs.congr (Alike.purge (φ := id) s c m.backend.key).status? (by rw [holders_purge])
    show Anchored (m.getTransaction c d s).2
    rw [hrun]
    exact hpurged.opening hopen
  | conclude commit c t =>
    show Anchored (m.conclude commit c t s).2
    rcases conclude_statuses m s commit c t with hsame | ⟨st, state, hst, -, hstatuses, hresources⟩
    · rw [hsame]; exact hs
    · have hsize : (m.conclude commit c t s).2.holders.size = s.holders.size := holders_size_of_alike hresources
      intro u st' hst'
      rw [hstatuses] at hst'
      rw [hsize]
      split at hst'
      · obtain rfl := Option.some.inj hst'
        have ha := hs t st hst
        exact ⟨ha.owner, nofun, ha.holder, nofun⟩
      · exact hs u st' hst'
  | mark t =>
    intro u st hst
    have hmarked := (status?_modifyStatus s t u _).symm.trans hst
    split at hmarked
    · obtain ⟨st', hst', rfl⟩ := Option.map_eq_some_iff.1 hmarked
      have ha := hs u st' hst'
      exact ⟨ha.owner, ha.nested, ha.holder, ha.suspended⟩
    · exact hs u st hmarked
  | act a => exact hs.congr (a.steady s).status? (a.steady s).holders_size

theorem calledBy (hs : Anchored s) (calls : List (Manager σ ρ ς × ManagerCall (Meantime σ ρ))) :
    Anchored (s.calledBy calls) := by
  induction calls generalizing s with
  | nil => exact hs
  | cons call calls ih => exact ih (hs.called call.2)

theorem ofContexts (contexts : Nat) (native : σ) : Anchored (Session.ofContexts contexts native : Session σ ρ ς) := by
  intro t st hst
  cases hst

end Anchored

/-! ## What is bound -/

/-- A live holder is bound. -/
def Session.LiveBound (s : Session σ ρ ς) (c : ContextIndex) (key : ResourceKey) (h : HolderId) (x : Holder ρ) :
    Prop := s.bound c key = some h ∧ s.holder? h = some x ∧ x.cleared = false

section Bound

variable {m : Manager σ ρ ς} {s s' : Session σ ρ ς} {c : ContextIndex} {key : ResourceKey} {h h' : HolderId}
  {x : Holder ρ}

theorem purge_liveBound : (s.purge c key).LiveBound c key h x ↔ s.LiveBound c key h x := by
  constructor
  · rintro ⟨hb, hx, hl⟩
    rw [purge_of_bound hb] at hb
    exact ⟨hb, (holder?_purge s c key h).symm.trans hx, hl⟩
  · rintro ⟨hb, hx, hl⟩
    rw [purge_of_live hb hx hl]
    exact ⟨hb, hx, hl⟩

/-- What was released is void. -/
theorem giveUp_liveBound {k : HolderId} {y : Holder ρ} :
    (s.modifyHolder h giveUp).LiveBound c key k y ↔ k ≠ h ∧ s.LiveBound c key k y := by
  unfold Session.LiveBound
  rw [bound_modifyHolder, holder?_modifyHolder]
  by_cases hk : k = h
  · rw [if_pos hk]
    constructor
    · rintro ⟨-, hy, hl⟩
      obtain ⟨x, -, rfl⟩ := Option.map_eq_some_iff.1 hy
      cases hl
    · exact fun hboth => absurd hk hboth.1
  · rw [if_neg hk]
    exact ⟨fun hlive => ⟨hk, hlive⟩, And.right⟩

/-- A change that clears nothing leaves the live holders live. -/
theorem modifyHolder_liveBound {k : HolderId} {f : Holder ρ → Holder ρ} (hf : ∀ x, (f x).cleared = x.cleared) :
    (∃ x, (s.modifyHolder h f).LiveBound c key k x) ↔ ∃ x, s.LiveBound c key k x := by
  have hcleared : Alike Holder.cleared s (s.modifyHolder h f) := .modifyHolder s h hf
  constructor
  · rintro ⟨x, hb, hx, hl⟩
    have heq := hcleared.holders k
    rw [hx] at heq
    obtain ⟨y, hy, hsame⟩ := Option.map_eq_some_iff.1 heq.symm
    exact ⟨y, hb, hy, hsame.trans hl⟩
  · rintro ⟨x, hb, hx, hl⟩
    obtain ⟨y, hy, hsame⟩ := hcleared.holder hx
    exact ⟨y, hb, hy, hsame.trans hl⟩

/-- Binding is refused exactly if a live holder is bound. -/
theorem bind_refused : (∃ e, bind c key h s = (.error e, s)) ↔ ∃ h' x, s.LiveBound c key h' x := by
  unfold Session.bind
  constructor
  · rintro ⟨e, hrun⟩
    cases hf : (s.registry c).has s.view key with
    | false => rw [Registry.bind_of_not_has _ _ hf] at hrun; cases hrun
    | true =>
      unfold Registry.has at hf
      split at hf
      · rename_i h' hb
        obtain ⟨x, hx, hl⟩ := holder_of_not_void (by simpa using hf)
        exact ⟨h', x, hb, hx, hl⟩
      · cases hf
  · rintro ⟨h', x, hb, hx, hl⟩
    have hf : (s.registry c).has s.view key = true := by
      unfold Registry.has
      rw [show (s.registry c).binding? key = some h' from hb]
      dsimp only
      rw [isVoid_of_holder hx, hl]
      rfl
    rw [Registry.bind_of_has _ _ hf]
    exact ⟨_, rfl⟩

/-- Unbinding a completed transaction is refused exactly if a live holder of another type is bound, with an error of
the registry. -/
theorem Manager.Unbinding.refused {r : Except TransactionError Unit}
    (hun : Unbinding m c h (s.purge c m.backend.key) r s') :
    (r = .ok () ∨ ∃ e, r = .error (.registry e)) ∧
      (r ≠ .ok () ↔ ∃ h' x, s.LiveBound c m.backend.key h' x ∧ x.kind ≠ m.backend.kind) := by
  have hsame : ∀ {h₁ h₂ x₁ x₂}, s.LiveBound c m.backend.key h₁ x₁ → s.LiveBound c m.backend.key h₂ x₂ → x₁ = x₂ := by
    rintro h₁ h₂ x₁ x₂ ⟨hb₁, hx₁, -⟩ ⟨hb₂, hx₂, -⟩
    obtain rfl := Option.some.inj (hb₁.symm.trans hb₂)
    exact Option.some.inj (hx₁.symm.trans hx₂)
  cases hun with
  | unbound hb =>
    refine ⟨.inl rfl, fun hne => absurd rfl hne, ?_⟩
    rintro ⟨h', x, hlive, -⟩
    cases hb.symm.trans (purge_liveBound.2 hlive).1
  | removed hb hx hl hk =>
    refine ⟨.inl rfl, fun hne => absurd rfl hne, ?_⟩
    rintro ⟨h', x, hlive, hne⟩
    exact absurd (hsame (purge_liveBound.1 ⟨hb, hx, hl⟩) hlive ▸ hk) hne
  | other hb _ hx hl hk =>
    refine ⟨.inl rfl, fun hne => absurd rfl hne, ?_⟩
    rintro ⟨h', x, hlive, hne⟩
    exact absurd (hsame (purge_liveBound.1 ⟨hb, hx, hl⟩) hlive ▸ hk) hne
  | foreign e hb hx hk hl =>
    exact ⟨.inr ⟨e, rfl⟩, fun _ => ⟨_, _, purge_liveBound.1 ⟨hb, hx, hl⟩, hk⟩, fun _ => nofun⟩

theorem Manager.Unbinding.size {r : Except TransactionError Unit} (hun : Unbinding m c h s r s') :
    s'.registries.size = s.registries.size := by
  cases hun with
  | removed => exact dropBinding_size s c _
  | unbound | other | foreign => rfl

/-- A completed transaction is unbound unless that is refused, and no other live holder is. -/
theorem Manager.Unbinding.leaves {r : Except TransactionError Unit}
    (hun : Unbinding m c h (s.purge c m.backend.key) r s') :
    (r = .ok () → s'.bound c m.backend.key ≠ some h) ∧
      ∀ h' x, h' ≠ h → (s'.LiveBound c m.backend.key h' x ↔ s.LiveBound c m.backend.key h' x) := by
  cases hun with
  | unbound hb =>
    refine ⟨fun _ hsome => ?_, fun h' x _ => purge_liveBound⟩
    cases hb.symm.trans hsome
  | removed hb hx hl =>
    have hgone : ((s.purge c m.backend.key).dropBinding c m.backend.key).bound c m.backend.key = none := by
      rw [bound_dropBinding, if_pos ⟨rfl, rfl⟩]
    refine ⟨fun _ hsome => ?_, fun h' x hne => ⟨?_, ?_⟩⟩
    · cases hgone.symm.trans hsome
    · rintro ⟨hb', -⟩
      cases hgone.symm.trans hb'
    · intro hlive
      exact absurd (Option.some.inj ((purge_liveBound.2 hlive).1.symm.trans hb)) hne
  | other hb hne => exact ⟨fun _ hsome => hne (Option.some.inj (hb.symm.trans hsome)), fun h' x _ => purge_liveBound⟩
  | foreign => exact ⟨nofun, fun h' x _ => purge_liveBound⟩

end Bound

/-! ## What the steps ask for -/

/-- The results of the steps that complete a scope, in their order. A step that does not apply succeeds. -/
structure StepResults where
  /-- The work of the scope is kept or undone natively. -/
  work : Except TransactionError Unit
  unbind : Except TransactionError Unit
  cleanup : Except TransactionError Unit
  rebind : Except TransactionError Unit
  resume : Except TransactionError Unit

namespace StepResults

def firstFailure (r : StepResults) : Option TransactionError :=
  [r.work, r.unbind, r.cleanup, r.rebind, r.resume].findSome? fun
    | .error e => some e
    | .ok () => none

/-- Merging the results in the order in which completing a scope does it leaves the first failure. -/
theorem firstError_eq (r : StepResults) :
    firstError r.work (firstError (firstError r.unbind r.cleanup) (firstError r.rebind r.resume)) =
      match r.firstFailure with
      | some e => .error e
      | none => .ok () := by
  obtain ⟨work, unbind, cleanup, rebind, resume⟩ := r
  rcases work with e | ⟨⟩
  · rfl
  rcases unbind with e | ⟨⟩
  · rfl
  rcases cleanup with e | ⟨⟩
  · rfl
  rcases rebind with e | ⟨⟩
  · rfl
  rcases resume with e | ⟨⟩ <;> rfl

/-- What holds of the failure of every step holds of the first one. -/
theorem firstFailure_of_each {r : StepResults} {P : TransactionError → Prop} (hwork : ∀ e, r.work = .error e → P e)
    (hunbind : ∀ e, r.unbind = .error e → P e) (hcleanup : ∀ e, r.cleanup = .error e → P e)
    (hrebind : ∀ e, r.rebind = .error e → P e) (hresume : ∀ e, r.resume = .error e → P e) {e : TransactionError}
    (hfirst : r.firstFailure = some e) : P e := by
  obtain ⟨result, hmem, hresult⟩ := List.exists_of_findSome?_eq_some hfirst
  have herror : result = .error e := by
    cases result with
    | error e' => exact congrArg Except.error (Option.some.inj hresult)
    | ok => cases hresult
  simp only [List.mem_cons, List.not_mem_nil, or_false] at hmem
  rcases hmem with rfl | rfl | rfl | rfl | rfl
  · exact hwork e herror
  · exact hunbind e herror
  · exact hcleanup e herror
  · exact hrebind e herror
  · exact hresume e herror

end StepResults

/-- What is asked of the resource of a scope to keep or to undo the scope's work, and the result. -/
inductive AsksWork (config : ManagerConfig) (keep : Bool) (st : Status ς) (r : Option ρ) :
    List (Exchange ρ ς) → Except TransactionError Unit → Prop
  /-- A participant leaves its work to the owner. -/
  | nothing : st.savepoint = none → st.newTransaction = false → AsksWork config keep st r [] (.ok ())
  | released {x : ρ} {sp : ς} {a : Except Failure Unit} : keep = true → st.savepoint = some sp → r = some x →
    AsksWork config keep st r [.releaseSavepoint x sp a] (a.mapError (.systemFailed "could not release savepoint"))
  | committed {x : ρ} : keep = true → st.savepoint = none → st.newTransaction = true → r = some x →
    AsksWork config keep st r [.commit x (.ok ())] (.ok ())
  | commitFailed {x : ρ} {f : Failure} : keep = true → st.savepoint = none → st.newTransaction = true → r = some x →
    config.rollbackOnCommitFailure = false → AsksWork config keep st r [.commit x (.error f)]
      (.error (.systemFailed "could not commit native transaction" f))
  /-- A rollback after a failed commit does not change what is reported. -/
  | commitUndone {x : ρ} {f : Failure} {a : Except Failure Unit} : keep = true → st.savepoint = none →
    st.newTransaction = true → r = some x → config.rollbackOnCommitFailure = true →
    AsksWork config keep st r [.commit x (.error f), .rollback x a]
      (.error (.systemFailed "could not commit native transaction" f))
  | returnFailed {x : ρ} {sp : ς} {f : Failure} : keep = false → st.savepoint = some sp → r = some x →
    AsksWork config keep st r [.rollbackToSavepoint x sp (.error f)]
      (.error (.systemFailed "could not roll back to savepoint" f))
  | returned {x : ρ} {sp : ς} {a : Except Failure Unit} : keep = false → st.savepoint = some sp → r = some x →
    AsksWork config keep st r [.rollbackToSavepoint x sp (.ok ()), .releaseSavepoint x sp a]
      (a.mapError (.systemFailed "could not release savepoint"))
  | undone {x : ρ} {a : Except Failure Unit} : keep = false → st.savepoint = none → st.newTransaction = true →
    r = some x → AsksWork config keep st r [.rollback x a]
      (a.mapError (.systemFailed "could not roll back native transaction"))

/-- An owner has its resource cleaned up. -/
inductive AsksCleanup (st : Status ς) (r : Option ρ) : List (Exchange ρ ς) → Except TransactionError Unit → Prop
  | nothing : st.newTransaction = false → AsksCleanup st r [] (.ok ())
  | owner {x : ρ} {a : Except Failure Unit} : st.newTransaction = true → r = some x →
    AsksCleanup st r [.cleanup x a]
      (a.mapError (.systemFailed "could not clean up native resource after transaction"))

/-- The resource of what was suspended is resumed once its holder is bound again, and only then. -/
inductive AsksResume (ς : Type) (r : Option ρ) :
    Except TransactionError Unit → List (Exchange ρ ς) → Except TransactionError Unit → Prop
  | nothing : r = none → AsksResume ς r (.ok ()) [] (.ok ())
  | refused {x : ρ} {e : RegistryError} : r = some x → AsksResume ς r (.error (.registry e)) [] (.ok ())
  | resumed {x : ρ} {a : Except Failure Unit} : r = some x →
    AsksResume ς r (.ok ()) [.resume x a] (a.mapError (.systemFailed "could not resume native transaction"))

section Asked

variable {m : Manager σ ρ ς} {s s' : Session (Logged σ ρ ς) ρ ς} {c : ContextIndex} {t : StatusId} {st : Status ς}
  {commit : Bool} {x : Holder ρ} {h : HolderId}

/-- An operation on the resource of a scope, as it was written down. -/
theorem asked_of_applied {q : ρ → Except Failure Unit → Exchange ρ ς} {op : ρ → Native σ Unit}
    {o : Option HolderId} {a : Except Failure Unit} {n : Logged σ ρ ς} (hx : o.bind s.holder? = some x)
    (happ : s.applied o (fun r => Logged.note (q r) (op r)) = (a, n)) : n.log = s.native.log ++ [q x.resource a] := by
  unfold Session.applied at happ
  rw [hx] at happ
  exact Logged.log_of_note happ

theorem Status.Anchored.statusHolder? (ha : st.Anchored s.holders.size)
    (hneeds : st.newTransaction = true ∨ st.savepoint.isSome = true) : ∃ x, s.statusHolder? st = some x := by
  obtain ⟨h, hh⟩ := Option.isSome_iff_exists.1 (hneeds.elim ha.owner ha.nested)
  unfold Session.statusHolder?
  rw [hh]
  exact exists_holder (ha.holder h hh)

theorem Manager.Working.asked (ha : st.Anchored s.holders.size) {state : TransactionState}
    {outcome : Except TransactionError Unit} (hw : Working m.logged commit st s state outcome s') :
    ∃ l, s'.native.log = s.native.log ++ l ∧
      AsksWork m.config (keepsWork commit st s) st ((s.statusHolder? st).map Holder.resource) l outcome := by
  cases hw with
  | kept _ hsp hnew | unmarked _ hsp hnew => exact ⟨[], (List.append_nil _).symm, .nothing hsp hnew⟩
  | marked _ hsp hnew =>
    rw [native_modifyHolderOf]
    exact ⟨[], (List.append_nil _).symm, .nothing hsp hnew⟩
  | savepointReleased hk hsp happ =>
    obtain ⟨x, hx⟩ := ha.statusHolder? (.inr (by rw [hsp]; rfl))
    rw [hx]
    exact ⟨_, asked_of_applied hx happ, .released hk hsp rfl⟩
  | committed hk hsp hnew happ =>
    obtain ⟨x, hx⟩ := ha.statusHolder? (.inl hnew)
    rw [hx]
    exact ⟨_, asked_of_applied hx happ, .committed hk hsp hnew rfl⟩
  | commitFailed hk hsp hnew happ hstays =>
    obtain ⟨x, hx⟩ := ha.statusHolder? (.inl hnew)
    rw [hx]
    exact ⟨_, asked_of_applied hx happ, .commitFailed hk hsp hnew rfl hstays⟩
  | @commitUndone f n r n' hk hsp hnew happ hundoes hundo =>
    obtain ⟨x, hx⟩ := ha.statusHolder? (.inl hnew)
    have hcommit : n.log = s.native.log ++ [.commit x.resource (.error f)] := asked_of_applied hx happ
    have hrollback : n'.log = n.log ++ [.rollback x.resource r] := asked_of_applied (s := s.withNative n) hx hundo
    rw [hcommit, List.append_assoc] at hrollback
    rw [hx]
    exact ⟨_, hrollback, .commitUndone hk hsp hnew rfl hundoes⟩
  | returnFailed hk hsp happ =>
    obtain ⟨x, hx⟩ := ha.statusHolder? (.inr (by rw [hsp]; rfl))
    rw [hx]
    exact ⟨_, asked_of_applied hx happ, .returnFailed hk hsp rfl⟩
  | @returned sp n r n' hk hsp happ hrel =>
    obtain ⟨x, hx⟩ := ha.statusHolder? (.inr (by rw [hsp]; rfl))
    have hreturn : n.log = s.native.log ++ [.rollbackToSavepoint x.resource sp (.ok ())] := asked_of_applied hx happ
    -- the marks that are taken back before the release are on the same holder
    have hreset : st.holder.bind ((s.withNative n).modifyHolderOf st Holder.resetRollbackOnly).holder? =
        some x.resetRollbackOnly := by
      obtain ⟨h, hh, hxh⟩ := Option.bind_eq_some_iff.1 hx
      rw [modifyHolderOf_of_holder _ _ hh, hh, Option.bind_some, holder?_modifyHolder, if_pos rfl,
        holder?_withNative, hxh]
      rfl
    have hrelease := asked_of_applied hreset hrel
    rw [native_modifyHolderOf] at hrelease
    change n'.log = n.log ++ _ at hrelease
    rw [hreturn, List.append_assoc] at hrelease
    rw [hx]
    exact ⟨_, hrelease, .returned hk hsp rfl⟩
  | undone hk hsp hnew happ =>
    obtain ⟨x, hx⟩ := ha.statusHolder? (.inl hnew)
    rw [hx]
    exact ⟨_, asked_of_applied hx happ, .undone hk hsp hnew rfl⟩

/-- Releasing a scope, as the steps that it is made of. -/
structure Released (m : Manager σ ρ ς) (c : ContextIndex) (st : Status ς) (s s' : Session (Logged σ ρ ς) ρ ς)
    (unbind cleanup : Except TransactionError Unit) : Prop where
  size : s'.registries.size = s.registries.size
  asked : ∃ l, s'.native.log = s.native.log ++ l ∧
    AsksCleanup st ((s.statusHolder? st).map Holder.resource) l cleanup
  answer : unbind = .ok () ∨ ∃ e, unbind = .error (.registry e)
  refused : unbind ≠ .ok () ↔ st.newTransaction = true ∧
    ∃ h x, s.LiveBound c m.backend.key h x ∧ x.kind ≠ m.backend.kind
  unbound : st.newTransaction = true → unbind = .ok () → ∀ h, st.holder = some h → s'.bound c m.backend.key ≠ some h
  live : (∃ h x, s'.LiveBound c m.backend.key h x) ↔
    ∃ h x, s.LiveBound c m.backend.key h x ∧ ¬(st.newTransaction = true ∧ st.holder = some h)

theorem Released.participant {cleanup : Except TransactionError Unit} (hnew : st.newTransaction = false)
    (hsize : s'.registries.size = s.registries.size) (hn : s'.native = s.native) (hok : cleanup = .ok ())
    (hlive : ∀ h, (∃ x, s'.LiveBound c m.backend.key h x) ↔ ∃ x, s.LiveBound c m.backend.key h x) :
    Released m c st s s' (.ok ()) cleanup := by
  have hnot : ∀ {p : Prop}, ¬(st.newTransaction = true ∧ p) := fun hboth => by rw [hnew] at hboth; cases hboth.1
  refine ⟨hsize, ⟨[], ?_, hok ▸ .nothing hnew⟩, .inl rfl,
    ⟨fun hne => absurd rfl hne, fun hboth => absurd hboth hnot⟩, fun htrue => ?_, ?_⟩
  · rw [hn, List.append_nil]
  · rw [hnew] at htrue; cases htrue
  · constructor
    · rintro ⟨h, hx⟩
      obtain ⟨x, hbound⟩ := (hlive h).1 hx
      exact ⟨h, x, hbound, hnot⟩
    · rintro ⟨h, x, hbound, -⟩
      exact ⟨h, (hlive h).2 ⟨x, hbound⟩⟩

theorem Manager.Releasing.released (ha : st.Anchored s.holders.size) {r : Except TransactionError Unit}
    (hr : Releasing m.logged c st s r s') :
    ∃ unbind cleanup, r = firstError unbind cleanup ∧ Released m c st s s' unbind cleanup := by
  cases hr with
  | nothing hh =>
    have hnew : st.newTransaction = false := by
      cases hnew : st.newTransaction with
      | false => rfl
      | true =>
        have hsome := ha.owner hnew
        rw [hh] at hsome; cases hsome
    exact ⟨.ok (), .ok (), rfl, .participant hnew rfl rfl rfl fun h => Iff.rfl⟩
  | @reference h hh hnew =>
    exact ⟨.ok (), .ok (), rfl, .participant hnew rfl rfl rfl fun k => modifyHolder_liveBound fun _ => rfl⟩
  | @transaction h r₁ s₁ r₂ n hh hnew hun happ =>
    obtain ⟨hanswer, hrefused⟩ := Unbinding.refused hun
    obtain ⟨hgone, hothers⟩ := Unbinding.leaves hun
    obtain ⟨x, hx⟩ := exists_holder (ha.holder h hh)
    have hx₁ : s₁.holder? h = some x := (hun.holder? h).trans ((holder?_purge s c _ h).trans hx)
    have hgiven : (s₁.modifyHolder h giveUp).holder? h = some (giveUp x) := by
      rw [holder?_modifyHolder, if_pos rfl, hx₁]; rfl
    have hnative : s₁.native = s.native := hun.native.trans (native_purge s c _)
    have hlog : n.log = s₁.native.log ++ [.cleanup x.resource r₂] :=
      asked_of_applied (x := giveUp x) (s := s₁.modifyHolder h giveUp) (o := some h) hgiven happ
    have hsize : s₁.registries.size = s.registries.size := hun.size.trans (purge_size s c _)
    refine ⟨r₁, _, rfl, ⟨hsize, ⟨_, hnative ▸ hlog, .owner hnew ?_⟩, hanswer, ?_, ?_, ?_⟩⟩
    · unfold Session.statusHolder?
      rw [hh, Option.bind_some, hx]; rfl
    · rw [hrefused]
      exact ⟨fun hforeign => ⟨hnew, hforeign⟩, And.right⟩
    · intro _ hok k hk
      obtain rfl := Option.some.inj (hh.symm.trans hk)
      exact hgone hok
    · have hleft : ∀ k y, ((s₁.modifyHolder h giveUp).withNative n).LiveBound c m.backend.key k y ↔
          k ≠ h ∧ s₁.LiveBound c m.backend.key k y :=
        fun _ _ => giveUp_liveBound (s := s₁) (h := h)
      constructor
      · rintro ⟨k, y, hlive⟩
        obtain ⟨hk, hlive⟩ := (hleft k y).1 hlive
        refine ⟨k, y, (hothers k y hk).1 hlive, fun hown => hk ?_⟩
        exact Option.some.inj (hown.2.symm.trans hh)
      · rintro ⟨k, y, hlive, hnot⟩
        have hk : k ≠ h := by
          rintro rfl
          exact hnot ⟨hnew, hh⟩
        exact ⟨k, y, (hleft k y).2 ⟨hk, (hothers k y hk).2 hlive⟩⟩

/-- Resuming what a scope suspended, as the steps that it is made of. -/
structure Resumed (m : Manager σ ρ ς) (c : ContextIndex) (st : Status ς) (s s' : Session (Logged σ ρ ς) ρ ς)
    (rebind resume : Except TransactionError Unit) : Prop where
  size : s'.registries.size = s.registries.size
  asked : ∃ l, s'.native.log = s.native.log ++ l ∧
    AsksResume ς ((st.suspended.bind s.holder?).map Holder.resource) rebind l resume
  refused : rebind ≠ .ok () ↔ st.suspended.isSome = true ∧ ∃ h x, s.LiveBound c m.backend.key h x
  bound : rebind = .ok () → ∀ h, st.suspended = some h → (c < s.registries.size → s'.bound c m.backend.key = some h) ∧
    ∃ x, s'.holder? h = some x ∧ x.suspended = false
  kept : (st.suspended = none ∨ rebind ≠ .ok ()) → s'.bound c m.backend.key = s.bound c m.backend.key

theorem Manager.Resuming.resumes (ha : st.Anchored s.holders.size) {r : Except TransactionError Unit}
    (hr : Resuming m.logged c t st s r s') :
    ∃ rebind resume, r = firstError rebind resume ∧ Resumed m c st s s' rebind resume := by
  have hthere : ∀ h, st.suspended = some h → ∃ x, s.holder? h = some x :=
    fun h hs => exists_holder (ha.suspended h hs)
  cases hr with
  | nothing hs =>
    refine ⟨.ok (), .ok (), rfl, rfl, ⟨[], (List.append_nil _).symm, .nothing ?_⟩, ?_, ?_, fun _ => rfl⟩
    · rw [hs]; rfl
    · rw [hs]
      exact ⟨fun hne => absurd rfl hne, fun hboth => nomatch hboth.1⟩
    · intro _ h hh
      cases hs.symm.trans hh
  | @refused h e hs hbind =>
    obtain ⟨x, hx⟩ := hthere h hs
    have hbound : ∃ h' y, s.LiveBound c m.backend.key h' y := bind_refused (s := s.takeSuspended t) |>.1 ⟨e, hbind⟩
    refine ⟨.error (.registry e), .ok (), rfl, rfl, ⟨[], (List.append_nil _).symm, .refused (x := x.resource) ?_⟩, ?_,
      nofun, fun _ => rfl⟩
    · rw [hs, Option.bind_some, hx]; rfl
    · rw [hs]
      exact ⟨fun _ => ⟨rfl, hbound⟩, fun _ => nofun⟩
  | @resumed h a n hs happ hbind =>
    obtain ⟨x, hx⟩ := hthere h hs
    have hresource : (st.suspended.bind s.holder?).map Holder.resource = some x.resource := by
      rw [hs, Option.bind_some, hx]; rfl
    have hattached : ((s.takeSuspended t).attach c m.backend.key h).holder? h = some (x.setSuspended false) := by
      rw [attach, holder?_modifyHolder, if_pos rfl, holder?_putBinding]
      show (s.holder? h).map _ = _
      rw [hx]; rfl
    have hlog : n.log = s.native.log ++ [.resume x.resource a] :=
      asked_of_applied (x := x.setSuspended false) (s := (s.takeSuspended t).attach c m.backend.key h) (o := some h)
        hattached happ
    refine ⟨.ok (), _, rfl, attach_size (s.takeSuspended t) c _ h, ⟨_, hlog, .resumed hresource⟩,
      ⟨fun hne => absurd rfl hne, ?_⟩, ?_, ?_⟩
    · rintro ⟨-, hlive⟩
      obtain ⟨e, hrefused⟩ := bind_refused (h := h) (s := s.takeSuspended t) |>.2 hlive
      cases hrefused.symm.trans hbind
    · intro _ k hk
      obtain rfl := Option.some.inj (hs.symm.trans hk)
      refine ⟨fun hc => ?_, _, hattached, rfl⟩
      exact (bound_attach (s.takeSuspended t) c c m.backend.key m.backend.key h hc).trans (if_pos ⟨rfl, rfl⟩)
    · rintro (hnone | hne)
      · cases hs.symm.trans hnone
      · exact absurd rfl hne

end Asked

/-! ## Completing a scope -/

theorem Session.Quiet.liveBound {s s' : Session σ ρ ς} {c : ContextIndex} {key : ResourceKey} {h : HolderId}
    {x : Holder ρ} (hq : Quiet s s') (hlive : s.LiveBound c key h x) :
    ∃ x', s'.LiveBound c key h x' ∧ x'.kind = x.kind := by
  obtain ⟨hb, hx, hl⟩ := hlive
  obtain ⟨x', hx', hsame⟩ := hq.holder hx
  have hcleared : x'.resetRollbackOnly.cleared = x.resetRollbackOnly.cleared := by rw [hsame]
  have hkind : x'.resetRollbackOnly.kind = x.resetRollbackOnly.kind := by rw [hsame]
  exact ⟨x', ⟨(hq.bound c key).trans hb, hx', hcleared.trans hl⟩, hkind⟩

theorem Session.Quiet.exists_liveBound {s s' : Session σ ρ ς} (hq : Quiet s s') (c : ContextIndex) (key : ResourceKey)
    (P : HolderId → HolderKind → Prop) :
    (∃ h x, s'.LiveBound c key h x ∧ P h x.kind) ↔ ∃ h x, s.LiveBound c key h x ∧ P h x.kind := by
  have hback : Quiet s' s :=
    ⟨hq.registries.symm, fun h => (hq.holders h).symm, fun t => (hq.statuses t).symm⟩
  constructor
  · rintro ⟨h, x', hlive, hp⟩
    obtain ⟨x, hbefore, hkind⟩ := hback.liveBound hlive
    exact ⟨h, x, hbefore, hkind ▸ hp⟩
  · rintro ⟨h, x, hlive, hp⟩
    obtain ⟨x', hafter, hkind⟩ := hq.liveBound hlive
    exact ⟨h, x', hafter, hkind ▸ hp⟩

/-- Completing a scope, as the steps that it is made of: each is attempted where it applies, whatever the results of
the others are. -/
structure Attempts (m : Manager σ ρ ς) (commit : Bool) (c : ContextIndex) (t : StatusId) (st : Status ς)
    (s : Session σ ρ ς) (s' : Session (Logged σ ρ ς) ρ ς) (r : StepResults) : Prop where
  asked : ∃ work cleanup resume, s'.native.log = work ++ (cleanup ++ resume) ∧
    AsksWork m.config (keepsWork commit st s) st ((s.statusHolder? st).map Holder.resource) work r.work ∧
    AsksCleanup st ((s.statusHolder? st).map Holder.resource) cleanup r.cleanup ∧
    AsksResume ς ((st.suspended.bind s.holder?).map Holder.resource) r.rebind resume r.resume
  ended : ∃ state, s'.status? t = some (st.ended state)
  reference : ∀ h, st.holder = some h →
    (s'.holder? h).map Holder.references = (s.holder? h).map fun x => x.references - 1
  cleared : st.newTransaction = true → ∀ h, st.holder = some h → s'.Void h
  unbind : r.unbind = .ok () ∨ ∃ e, r.unbind = .error (.registry e)
  /-- Unbinding fails only over a live holder of another type. -/
  unbind_refused : r.unbind ≠ .ok () ↔ st.newTransaction = true ∧
    ∃ h x, s.LiveBound c m.backend.key h x ∧ x.kind ≠ m.backend.kind
  unbound : st.newTransaction = true → r.unbind = .ok () → ∀ h, st.holder = some h →
    s'.bound c m.backend.key = some h → st.suspended = some h
  /-- Binding what was suspended fails only over a live holder that is not the completed transaction's own. -/
  rebind_refused : r.rebind ≠ .ok () ↔ st.suspended.isSome = true ∧
    ∃ h x, s.LiveBound c m.backend.key h x ∧ ¬(st.newTransaction = true ∧ st.holder = some h)
  rebound : r.rebind = .ok () → ∀ h, st.suspended = some h →
    (c < s.registries.size → s'.bound c m.backend.key = some h) ∧ ∃ x, s'.holder? h = some x ∧ x.suspended = false

theorem mapError_systemFailed {a : Except Failure Unit} {text : String} {e : TransactionError}
    (h : a.mapError (.systemFailed text) = .error e) : ∃ f, e = .systemFailed text f := by
  cases a with
  | error f => exact ⟨f, (Except.error.inj h).symm⟩
  | ok => cases h

section Failures

variable {config : ManagerConfig} {keep : Bool} {st : Status ς} {r : Option ρ} {l : List (Exchange ρ ς)}
  {answer : Except TransactionError Unit} {e : TransactionError}

theorem AsksWork.failure (hw : AsksWork config keep st r l answer) (he : answer = .error e) :
    ∃ text f, e = .systemFailed text f := by
  cases hw with
  | nothing | committed => cases he
  | commitFailed | commitUndone | returnFailed => exact ⟨_, _, (Except.error.inj he).symm⟩
  | released | returned | undone => exact ⟨_, mapError_systemFailed he⟩

theorem AsksCleanup.failure (hc : AsksCleanup st r l answer) (he : answer = .error e) :
    ∃ text f, e = .systemFailed text f := by
  cases hc with
  | nothing => cases he
  | owner => exact ⟨_, mapError_systemFailed he⟩

theorem AsksResume.failure {rebind : Except TransactionError Unit} (hr : AsksResume ς r rebind l answer)
    (he : answer = .error e) : ∃ text f, e = .systemFailed text f := by
  cases hr with
  | nothing | refused => cases he
  | resumed => exact ⟨_, mapError_systemFailed he⟩

theorem AsksResume.refusal {rebind : Except TransactionError Unit} (hr : AsksResume ς r rebind l answer)
    (he : rebind = .error e) : ∃ refused, e = .registry refused := by
  cases hr with
  | nothing | resumed => cases he
  | refused => exact ⟨_, (Except.error.inj he).symm⟩

end Failures

section Completing

variable {m : Manager σ ρ ς} {commit : Bool} {c : ContextIndex} {t : StatusId} {st : Status ς} {s : Session σ ρ ς}
  {s' : Session (Logged σ ρ ς) ρ ς} {r : StepResults}

/-- No step fails with the report of an unexpected rollback. -/
theorem Attempts.expected (ha : Attempts m commit c t st s s' r) {e : TransactionError}
    (hfirst : r.firstFailure = some e) (text : String) : e ≠ .unexpectedRollback text := by
  obtain ⟨_, _, _, -, hwork, hcleanup, hresume⟩ := ha.asked
  have hsystem : ∀ {e : TransactionError}, (∃ text f, e = .systemFailed text f) → e ≠ .unexpectedRollback text := by
    rintro e ⟨_, _, rfl⟩
    exact nofun
  have hregistry : ∀ {e : TransactionError}, (∃ refused, e = .registry refused) → e ≠ .unexpectedRollback text := by
    rintro e ⟨_, rfl⟩
    exact nofun
  refine StepResults.firstFailure_of_each (P := fun e => e ≠ .unexpectedRollback text)
    (fun e he => hsystem (hwork.failure he)) (fun e he => hregistry ?_) (fun e he => hsystem (hcleanup.failure he))
    (fun e he => hregistry (hresume.refusal he)) (fun e he => hsystem (hresume.failure he)) hfirst
  rcases ha.unbind with hok | ⟨refused, hrefused⟩
  · cases hok.symm.trans he
  · exact ⟨refused, Except.error.inj (he.symm.trans hrefused)⟩

/-- When the rollback of a scope that was to be committed has to be reported. -/
theorem reportsRollback_iff : m.reportsRollback commit st s = true ↔
    commit = true ∧ st.rollbackOnly = false ∧ s.isGlobalRollbackOnly st = true ∧
      m.config.failOnUnexpectedRollback = true ∧
      (st.newTransaction = true ∨ st.savepoint.isSome = true ∨ m.config.failEarlyOnGlobalRollbackOnly = true) := by
  unfold reportsRollback
  simp only [Bool.and_eq_true, Bool.or_eq_true, Bool.not_eq_eq_eq_not, Bool.not_true]
  constructor
  · rintro ⟨⟨⟨⟨hcommit, hlocal⟩, hglobal⟩, (hsp | hnew) | hearly⟩, hfail⟩
    · exact ⟨hcommit, hlocal, hglobal, hfail, .inr (.inl hsp)⟩
    · exact ⟨hcommit, hlocal, hglobal, hfail, .inl hnew⟩
    · exact ⟨hcommit, hlocal, hglobal, hfail, .inr (.inr hearly)⟩
  · rintro ⟨hcommit, hlocal, hglobal, hfail, hnew | hsp | hearly⟩
    · exact ⟨⟨⟨⟨hcommit, hlocal⟩, hglobal⟩, .inl (.inr hnew)⟩, hfail⟩
    · exact ⟨⟨⟨⟨hcommit, hlocal⟩, hglobal⟩, .inl (.inl hsp)⟩, hfail⟩
    · exact ⟨⟨⟨⟨hcommit, hlocal⟩, hglobal⟩, .inr hearly⟩, hfail⟩

theorem resource_congr {s s' : Session σ ρ ς}
    (hs : ∀ h, (s'.holder? h).map Holder.resource = (s.holder? h).map Holder.resource) (o : Option HolderId) :
    (o.bind s'.holder?).map Holder.resource = (o.bind s.holder?).map Holder.resource := by
  cases o with
  | none => rfl
  | some h => exact hs h

theorem Manager.Concluding.attempts (hst : s.status? t = some st) (ha : st.Anchored s.holders.size)
    {answer : Except TransactionError Unit} (hc : Concluding m.logged commit c t st s.logging answer s') :
    ∃ r, Attempts m commit c t st s s' r ∧
      answer = match r.firstFailure with
        | some e => .error e
        | none => if m.reportsRollback commit st s then .error .markedRollbackOnly else .ok () := by
  have hst' : s.logging.status? t = some st := hst
  have hcleared := fun hnew h hh => hc.voids (h := h) hst' hnew hh (ha.holder h hh)
  have hreferences := hc.references
  obtain ⟨state, _, _, _, _, -, -, -, hstatuses, -⟩ := hc.outline hst' (.const m.logged.backend)
  cases hc with
  | @mk state' outcome r₁ r₂ s₁ s₂ _ hwork hrel hres =>
    have hended : ∀ h, ((s₁.endStatus t state').holder? h).map Holder.resource =
        (s.logging.holder? h).map Holder.resource := hwork.steady.holders
    have hleft : ∀ h, (s₂.holder? h).map Holder.resource = (s.logging.holder? h).map Holder.resource :=
      fun h => (hrel.steady.holders h).trans (hended h)
    obtain ⟨unbind, cleanup, rfl, hreleased⟩ := hrel.released (by rw [holders_size_of_alike hended]; exact ha)
    obtain ⟨rebind, resume, rfl, hresumed⟩ := hres.resumes (by rw [holders_size_of_alike hleft]; exact ha)
    obtain ⟨l₁, hlog₁, hasks₁⟩ := hwork.asked ha
    obtain ⟨l₂, hlog₂, hasks₂⟩ := hreleased.asked
    obtain ⟨l₃, hlog₃, hasks₃⟩ := hresumed.asked
    rw [Session.statusHolder?, resource_congr hended] at hasks₂
    rw [resource_congr hleft] at hasks₃
    -- what is bound when the scope is released was bound before its work
    have hworked := hwork.quiet.exists_liveBound c m.backend.key
    have hsize : s₂.registries.size = s.registries.size :=
      hreleased.size.trans (congrArg Array.size hwork.quiet.registries)
    refine ⟨⟨outcome, unbind, cleanup, rebind, resume⟩, ⟨⟨l₁, l₂, l₃, ?_, hasks₁, hasks₂, hasks₃⟩, ⟨state, ?_⟩,
      fun h hh => ?_, hcleared, hreleased.answer, ?_, fun hnew hok h hh hb => ?_, ?_, fun hok h hh => ?_⟩, ?_⟩
    · have hfirst : s₂.native.log = l₁ ++ l₂ := hlog₂.trans (congrArg (· ++ l₂) hlog₁)
      rw [hlog₃, hfirst, List.append_assoc]
    · rw [hstatuses, if_pos rfl]
    · have hone := hreferences h
      simp only [hh, if_true] at hone
      exact hone
    · rw [hreleased.refused]
      exact and_congr_right fun _ => hworked fun _ kind => kind ≠ m.backend.kind
    · have hgone : s₂.bound c m.backend.key ≠ some h := hreleased.unbound hnew hok h hh
      have hkept : ¬(st.suspended = none ∨ rebind ≠ .ok ()) :=
        fun hkept => hgone ((hresumed.kept hkept).symm.trans hb)
      obtain ⟨hsome, hrebound⟩ := not_or.1 hkept
      obtain ⟨k, hk⟩ := Option.ne_none_iff_exists'.1 hsome
      have hc : c < s₂.registries.size := Nat.lt_of_lt_of_eq (registries_lt hb) hresumed.size
      have hbk := (hresumed.bound (Classical.not_not.1 hrebound) k hk).1 hc
      exact hk.trans (hbk.symm.trans hb)
    · rw [hresumed.refused, hreleased.live]
      exact and_congr_right fun _ => hworked fun h _ => ¬(st.newTransaction = true ∧ st.holder = some h)
    · obtain ⟨hbound, hholder⟩ := hresumed.bound hok h hh
      exact ⟨fun hc => hbound (Nat.lt_of_lt_of_eq hc hsize.symm), hholder⟩
    · have hmerged := StepResults.firstError_eq ⟨outcome, unbind, cleanup, rebind, resume⟩
      dsimp only at hmerged
      rw [hmerged]
      cases StepResults.firstFailure ⟨outcome, unbind, cleanup, rebind, resume⟩ <;> rfl

end Completing

/-- No failure of a completion is lost, for every manager, every order of calls of any managers in any contexts, and
whatever fails or becomes of the session between the calls. Completing an open scope attempts each step that applies
to it, whatever failed before: its work is kept or undone natively, its reference is released, an owner is unbound
and its resource cleaned up, and what was suspended is bound again and, if that succeeds, resumed natively. The error
of the first step that fails is reported, and only if none does, a rollback that nobody who commits expects. -/
theorem completion_loses_no_failure (m : Manager σ ρ ς) (contexts : Nat) (native : σ)
    (calls : List (Manager σ ρ ς × ManagerCall (Meantime σ ρ))) (commit : Bool) (c : ContextIndex) {t : StatusId}
    {st : Status ς} :
    let s := (Session.ofContexts contexts native).calledBy calls
    let unexpected := commit = true ∧ st.rollbackOnly = false ∧ s.isGlobalRollbackOnly st = true ∧
      m.config.failOnUnexpectedRollback = true ∧
      (st.newTransaction = true ∨ st.savepoint.isSome = true ∨ m.config.failEarlyOnGlobalRollbackOnly = true)
    s.status? t = some st → st.isCompleted = false →
    ∃ answer s' r, m.logged.conclude commit c t s.logging = (answer, s') ∧
      m.conclude commit c t s = (answer, s'.seen unlogged) ∧ Attempts m commit c t st s s' r ∧
      (∀ e, r.firstFailure = some e → answer = .error e) ∧
      (answer = .ok () ↔ r.firstFailure = none ∧ ¬unexpected) ∧
      ((∃ text, answer = .error (.unexpectedRollback text)) ↔ r.firstFailure = none ∧ unexpected) := by
  intro s unexpected hst hopen
  have hanchored : Anchored s := (Anchored.ofContexts contexts native).calledBy calls
  clear_value s
  obtain ⟨answer, s', hrun, hc⟩ := conclude_spec m.logged commit c (s := s.logging) hst hopen
  have hseen := (logged_mirrored m).conclude commit c t s.logging
  rw [logging_seen, hrun] at hseen
  obtain ⟨r, hattempts, hanswer⟩ := hc.attempts hst (hanchored t st hst)
  have hdue : m.reportsRollback commit st s = true ↔ unexpected := reportsRollback_iff
  refine ⟨answer, s', r, hrun, hseen, hattempts, ?_⟩
  cases hfirst : r.firstFailure with
  | some e =>
    rw [hfirst] at hanswer
    subst hanswer
    refine ⟨fun e' he => congrArg Except.error (Option.some.inj he), ⟨nofun, nofun⟩, ⟨?_, nofun⟩⟩
    rintro ⟨text, htext⟩
    exact absurd (Except.error.inj htext) (hattempts.expected hfirst text)
  | none =>
    rw [hfirst] at hanswer
    refine ⟨nofun, ?_⟩
    rw [← hdue]
    dsimp only at hanswer
    cases hreports : m.reportsRollback commit st s with
    | true =>
      rw [hreports, if_pos rfl] at hanswer
      subst hanswer
      exact ⟨⟨nofun, fun hnot => absurd rfl hnot.2⟩, fun _ => ⟨rfl, rfl⟩, fun _ => ⟨_, rfl⟩⟩
    | false =>
      rw [hreports, if_neg Bool.false_ne_true] at hanswer
      subst hanswer
      exact ⟨⟨fun _ => ⟨rfl, nofun⟩, fun _ => rfl⟩, nofun, fun hboth => nomatch hboth.2⟩

/-- An inner transaction fails to commit, to roll back instead, and to be cleaned up: the failure of the commit is
reported, and the outer transaction is bound again. -/
theorem completion_loses_no_failure_inner :
    let m : Manager Store ConnectionId Savepoint :=
      { backend := Store.backend ⟨7⟩ .all, config := { rollbackOnCommitFailure := true } }
    let calls : List (Manager Store ConnectionId Savepoint × ManagerCall (Meantime Store ConnectionId)) :=
      [(m, .enter 0 { propagation := .required }), (m, .enter 0 { propagation := .requiresNew })]
    let store : Store := { key := ⟨7⟩, faults := [(.commit, 1), (.rollback, 1), (.cleanup, 1)] }
    let s := (Session.ofContexts 1 store).calledBy calls
    ∃ st answer s' r, s.status? 1 = some st ∧ m.conclude true 0 1 s = (answer, s'.seen unlogged) ∧
      Attempts m true 0 1 st s s' r ∧ r.firstFailure.isSome = true ∧ s'.bound 0 ⟨7⟩ = some 0 := by
  intro m calls store s
  have hinner : (s.status? 1).map (fun st => (st.isCompleted, s.isGlobalRollbackOnly st)) = some (false, false) := by
    decide +kernel
  obtain ⟨st, hst, hparts⟩ := Option.map_eq_some_iff.1 hinner
  injection hparts with hopen hunmarked
  have hfails : (m.conclude true 0 1 s).1.isOk = false := by decide +kernel
  have hbound : (m.conclude true 0 1 s).2.bound 0 ⟨7⟩ = some 0 := by decide +kernel
  obtain ⟨answer, s', r, -, hrun, hattempts, -, hok, -⟩ :=
    completion_loses_no_failure m 1 store calls true 0 hst hopen
  rw [hrun] at hfails hbound
  refine ⟨st, answer, s', r, hst, hrun, hattempts, ?_, hbound⟩
  cases hfirst : r.firstFailure with
  | some e => rfl
  | none =>
    obtain rfl := hok.2 ⟨hfirst, fun hdue => absurd (hunmarked.symm.trans hdue.2.2.1) Bool.false_ne_true⟩
    cases hfails

end Demarcation
