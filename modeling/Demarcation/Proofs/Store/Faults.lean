/-
Planned failures of a store's primitives. Whether a primitive fails by plan is told by what has happened to the plan: a
failure that is left strikes the next call of its primitive and no other, and so does a plan of no failures. Every call
is counted.
-/
import Demarcation.Proofs.Store.FaultHistory
import Demarcation.Proofs.Store.Rewinding

namespace Demarcation

open FaultHistory

/-! ## What calls do to the plan -/

/-- What a step on a store as a whole does to the plan and the counts. -/
def Script.StoreStep.faultEvent? : Script.StoreStep → Option FaultEvent
  | fail p times => some (.planned p times)
  | clearFaults => some .cleared
  | resetStats => some .recounted
  | busy _ | committed _ | count _ | statsText => none

/-- What a call does to the plan and the counts, the last event first. What is done within a primitive is not done if
the primitive fails by the plan. -/
def StoreCall.faultEvents : StoreCall → Store → FaultHistory
  | store step, _ => step.faultEvent?.toList
  | primitive p call, s =>
    if (Store.enter p s).1.isOk then call.faultEvents (s.counted p) ++ [.called p false] else [.called p true]
  | connect _ _ _, _ | data _ _, _ | commit _, _ | rollback _, _ | savepoint _, _ | rollbackTo _ _, _ | release _ _, _
  | close _, _ => []

/-- What some calls do to the plan and the counts, the last event first. -/
def Store.faultHistory : List StoreCall → Store → FaultHistory
  | [], _ => []
  | call :: calls, s => faultHistory calls (call.run s).2 ++ call.faultEvents s

namespace Store

variable {α : Type} {s s' : Store} {c : ConnectionId} {p : Primitive} {past : FaultHistory}

/-! ## Failing by plan -/

theorem enter_fst (p : Primitive) (s : Store) : (enter p s).1 =
    if (s.faults.planned? p).isSome then .error (.storage (.injected p)) else .ok () := by
  rw [← FaultPlan.take_fst]
  rfl

theorem enter_isOk (p : Primitive) (s : Store) : (enter p s).1.isOk = !(s.faults.planned? p).isSome := by
  rw [enter_fst]
  cases (s.faults.planned? p).isSome <;> rfl

theorem primitive_eq (p : Primitive) (op : Native Store α) (s : Store) : primitive p op s =
    if (s.faults.planned? p).isSome then (.error (.storage (.injected p)), s.counted p) else op (s.counted p) := by
  have henter : enter p s = ((enter p s).1, s.counted p) := rfl
  unfold primitive
  rw [henter, enter_fst]
  cases (s.faults.planned? p).isSome <;> rfl

theorem usable_ne_injected : s.usable c ≠ .error (.injected p) := by
  unfold usable
  split
  · exact nofun
  · split
    · exact nofun
    · split <;> exact nofun

theorem checkOwner_ne_injected {sp : Savepoint} : checkOwner c sp ≠ .error (.injected p) := by
  unfold checkOwner
  split <;> exact nofun

/-! ## The plan and the counts, by their history -/

/-- The counts of the calls, and the plan of failures. -/
def accounts (s : Store) : CallCounts × FaultPlan := (s.stats, s.faults)

theorem accounts_write {w : Write} (h : s.write c w = .ok s') : s'.accounts = s.accounts := by
  unfold write at h
  split at h
  · cases h
  · obtain ⟨conn, -, h⟩ := except_bind_ok h
    split at h <;> cases h <;> rfl

theorem accounts_close (s : Store) (c : ConnectionId) : (s.close c).accounts = s.accounts := by
  unfold close
  split
  · rfl
  · split <;> rfl

theorem accounts_changing {op : Store → Except StorageError Store} (hop : ∀ s', op s = .ok s' → s'.accounts = s.accounts) :
    (changing op s).2.accounts = s.accounts := by
  unfold changing
  cases h : op s with
  | error e => rfl
  | ok s' => exact hop s' h

/-- The plan and the counts are what a history makes of them, and so was the answer to each call in it. -/
structure Reflects (past : FaultHistory) (s : Store) : Prop where
  plan : ∀ p, s.faults.Agrees past p
  struck : ∀ p, AtCalls p (fun failed before => failed = true ↔ Strikes p before) past
  counted : ∀ p, s.stats.count p = calls p past.sinceRecounted

namespace Reflects

theorem congr (hs : Reflects past s) (h : s'.accounts = s.accounts) : Reflects past s' := by
  have hstats : s'.stats = s.stats := congrArg Prod.fst h
  have hfaults : s'.faults = s.faults := congrArg Prod.snd h
  refine ⟨?_, hs.struck, ?_⟩
  · rw [hfaults]; exact hs.plan
  · rw [hstats]; exact hs.counted

theorem planned (hs : Reflects past s) (p : Primitive) (times : Nat) :
    Reflects (.planned p times :: past) { s with faults := s.faults.failNext p times } :=
  ⟨.failNext hs.plan p times, fun q => (atCalls_cons _).2 ⟨nofun, hs.struck q⟩, hs.counted⟩

theorem cleared (hs : Reflects past s) : Reflects (.cleared :: past) { s with faults := [] } :=
  ⟨fun q => FaultPlan.agrees_nil q past, fun q => (atCalls_cons _).2 ⟨nofun, hs.struck q⟩, hs.counted⟩

theorem recounted (hs : Reflects past s) : Reflects (.recounted :: past) { s with stats := {} } :=
  ⟨fun q => (hs.plan q).recounted, fun q => (atCalls_cons _).2 ⟨nofun, hs.struck q⟩, fun _ => rfl⟩

/-- A call of a primitive takes a failure of its own from the plan, if one is there, and counts. -/
theorem counting (hs : Reflects past s) (p : Primitive) :
    Reflects (.called p (s.faults.planned? p).isSome :: past) (s.counted p) := by
  refine ⟨.take hs.plan p _, fun q => (atCalls_cons _).2 ⟨?_, hs.struck q⟩, fun q => ?_⟩
  · rintro failed ⟨⟩
    exact (hs.plan p).strikes
  · show (p :: s.stats.calls).count q = (FaultEvent.called p _ :: past.sinceRecounted).countP (FaultEvent.isCall q)
    rw [List.count_cons, List.countP_cons]
    exact congrArg (· + _) (hs.counted q)

theorem called (hs : Reflects past s) (call : StoreCall) : Reflects (call.faultEvents s ++ past) (call.run s).2 := by
  induction call generalizing s past with
  | connect readOnly autoCommit isolation => exact hs.congr rfl
  | data c d =>
    refine hs.congr (accounts_changing fun s' h => ?_)
    obtain ⟨⟨a, s₁⟩, hrun, rfl⟩ := except_map_ok h
    rcases data_written hrun with rfl | ⟨w, hw⟩
    · rfl
    · exact accounts_write hw
  | commit c | rollback c =>
    refine hs.congr (accounts_changing fun s' h => ?_)
    obtain ⟨conn, -, hs⟩ := except_bind_ok h
    cases hs
    rfl
  | savepoint c =>
    refine hs.congr (accounts_changing fun s' h => ?_)
    obtain ⟨⟨sp, s₁⟩, hrun, rfl⟩ := except_map_ok h
    obtain ⟨conn, -, hs⟩ := except_bind_ok hrun
    cases hs
    rfl
  | rollbackTo c sp =>
    refine hs.congr (accounts_changing fun s' h => ?_)
    obtain ⟨_, _, h⟩ := except_bind_ok h
    obtain ⟨conn, -, h⟩ := except_bind_ok h
    split at h <;> cases h
    rfl
  | release c sp =>
    refine hs.congr (accounts_changing fun s' h => ?_)
    obtain ⟨_, _, rfl⟩ := except_map_ok h
    rfl
  | close c => exact hs.congr (accounts_close s c)
  | store step =>
    cases step with
    | fail p times => exact hs.planned p times
    | clearFaults => exact hs.cleared
    | resetStats => exact hs.recounted
    | busy | committed | count | statsText => exact hs.congr rfl
  | primitive p call ih =>
    have hcalled := hs.counting p
    unfold StoreCall.faultEvents StoreCall.run
    rw [enter_isOk, primitive_eq]
    cases hplanned : (s.faults.planned? p).isSome with
    | true =>
      rw [hplanned] at hcalled
      exact hcalled
    | false =>
      -- what the primitive does comes after its own call, so it starts from the counts as they are then
      rw [hplanned] at hcalled
      simpa using ih hcalled

theorem ran (hs : Reflects past s) (calls : List StoreCall) :
    Reflects (faultHistory calls s ++ past) (Store.ran calls s) := by
  induction calls generalizing s past with
  | nil => exact hs
  | cons call calls ih =>
    unfold faultHistory
    rw [List.append_assoc]
    exact ih (hs.called call)

theorem start (hstats : s.stats = {}) (hfaults : s.faults = []) : Reflects [] s := by
  refine ⟨fun p => ?_, fun p => atCalls_nil, fun p => ?_⟩
  · -- nothing has been planned yet, as if all of it had been cleared
    rw [hfaults]
    exact ⟨rfl, (FaultPlan.agrees_nil p []).strikes⟩
  · rw [hstats]; rfl

end Reflects

end Store

/-! ## The primitives -/

/-- The operation without what it answers if it succeeds. -/
def Native.forget {σ α : Type} (op : Native σ α) : Native σ Unit := fun s => ((op s).1.map fun _ => (), (op s).2)

theorem Store.forget_primitive {α : Type} (p : Primitive) (op : Native Store α) :
    (Store.primitive p op).forget = Store.primitive p op.forget := by
  funext s
  unfold Native.forget
  rw [primitive_eq, primitive_eq]
  split <;> rfl

/-- A call of a native primitive, with what it is given. -/
inductive PrimitiveCall
  | begin (d : Definition)
  | suspend (c : ConnectionId)
  | resume (c : ConnectionId)
  | commit (c : ConnectionId)
  | rollback (c : ConnectionId)
  | cleanup (c : ConnectionId)
  | createSavepoint (c : ConnectionId)
  | rollbackToSavepoint (c : ConnectionId) (sp : Savepoint)
  | releaseSavepoint (c : ConnectionId) (sp : Savepoint)

namespace PrimitiveCall

def primitive : PrimitiveCall → Primitive
  | begin _ => .begin
  | suspend _ => .suspend
  | resume _ => .resume
  | commit _ => .commit
  | rollback _ => .rollback
  | cleanup _ => .cleanup
  | createSavepoint _ => .createSavepoint
  | rollbackToSavepoint _ _ => .rollbackToSavepoint
  | releaseSavepoint _ _ => .releaseSavepoint

/-- Calls the primitive of a backend. -/
def run (b : Backend Store ConnectionId Savepoint) : PrimitiveCall → Native Store Unit
  | begin d => (b.start d).forget
  | suspend c => b.suspend c
  | resume c => b.resume c
  | commit c => b.commit c
  | rollback c => b.rollback c
  | cleanup c => b.cleanup c
  | createSavepoint c => (b.createSavepoint c).forget
  | rollbackToSavepoint c sp => b.rollbackToSavepoint c sp
  | releaseSavepoint c sp => b.releaseSavepoint c sp

/-- What the primitive does if it does not fail by plan. -/
def within : PrimitiveCall → StoreCall
  | begin d => .connect d.readOnly false d.isolation
  | suspend _ | resume _ => .store .statsText
  | commit c => .commit c
  | rollback c => .rollback c
  | cleanup c => .close c
  | createSavepoint c => .savepoint c
  | rollbackToSavepoint c sp => .rollbackTo c sp
  | releaseSavepoint c sp => .release c sp

variable (key : ResourceKey) (capabilities : Capabilities) (q : PrimitiveCall)

/-- The primitives of a store are calls on it. -/
theorem run_eq : q.run (Store.backend key capabilities) = (StoreCall.primitive q.primitive q.within).run := by
  cases q with
  | begin d => exact Store.forget_primitive .begin _
  | suspend | resume | commit | rollback | cleanup | rollbackToSavepoint => rfl
  | createSavepoint c =>
    refine (Store.forget_primitive .createSavepoint _).trans (congrArg (Store.primitive _) (funext fun s => ?_))
    unfold Native.forget within StoreCall.run Store.changing
    dsimp only
    cases s.savepoint c <;> rfl
  | releaseSavepoint c sp =>
    refine congrArg (Store.primitive _) (funext fun s => ?_)
    unfold within StoreCall.run Store.changing
    dsimp only
    cases s.release c sp <;> rfl

theorem faultEvents_eq (s : Store) : (StoreCall.primitive q.primitive q.within).faultEvents s =
    [.called q.primitive (s.faults.planned? q.primitive).isSome] := by
  have hwithin : ∀ s, q.within.faultEvents s = [] := by
    intro s
    cases q <;> rfl
  unfold StoreCall.faultEvents
  rw [Store.enter_isOk, hwithin]
  cases (s.faults.planned? q.primitive).isSome <;> rfl

/-- What a primitive does fails by no plan. -/
theorem within_ne_injected (p : Primitive) (s : Store) : (q.within.run s).1 ≠ .error (.storage (.injected p)) := by
  have hchanging : ∀ {op : Store → Except StorageError Store}, op s ≠ .error (.injected p) →
      (Store.changing op s).1 ≠ .error (.storage (.injected p)) := by
    intro op hop h
    unfold Store.changing at h
    cases hrun : op s with
    | ok s' => rw [hrun] at h; cases h
    | error e => rw [hrun] at h; cases h; exact hop hrun
  cases q with
  | begin | suspend | resume | cleanup => exact nofun
  | commit c | rollback c =>
    refine hchanging fun h => ?_
    rcases except_bind_error h with hu | ⟨conn, -, h⟩
    · exact Store.usable_ne_injected hu
    · cases h
  | createSavepoint c =>
    refine hchanging fun h => ?_
    rcases except_bind_error (except_map_error h) with hu | ⟨conn, -, h⟩
    · exact Store.usable_ne_injected hu
    · cases h
  | rollbackToSavepoint c sp =>
    refine hchanging fun h => ?_
    rcases except_bind_error h with howner | ⟨_, -, h⟩
    · exact Store.checkOwner_ne_injected howner
    · rcases except_bind_error h with hu | ⟨conn, -, h⟩
      · exact Store.usable_ne_injected hu
      · split at h <;> cases h
  | releaseSavepoint c sp =>
    refine hchanging fun h => ?_
    rcases except_bind_error (except_map_error h) with howner | ⟨_, -, h⟩
    · exact Store.checkOwner_ne_injected howner
    · rcases except_bind_error h with hu | ⟨conn, -, h⟩
      · exact Store.usable_ne_injected hu
      · cases h

/-- A primitive fails as injected exactly if the plan lists it. -/
theorem run_injected_iff (s : Store) :
    (q.run (Store.backend key capabilities) s).1 = .error (.storage (.injected q.primitive)) ↔
      (s.faults.planned? q.primitive).isSome = true := by
  rw [run_eq]
  show (Store.primitive q.primitive q.within.run s).1 = _ ↔ _
  rw [Store.primitive_eq]
  cases (s.faults.planned? q.primitive).isSome with
  | true => simp
  | false => simpa using q.within_ne_injected q.primitive (s.counted q.primitive)

end PrimitiveCall

/-- Which calls of a primitive fail by plan, after any calls on a new store. Such a call fails exactly if failures of its
primitive are left, or if the primitive has been planned to fail, be it zero times, since it was called last. So it can
be told by counting what was planned and what was injected since the plan was cleared: at every call, exactly if no call
meets a plan of no failures, and always if every plan is of one failure at least. A plan of some failures strikes as many
calls of its primitive, the ones that follow, unless it is cleared before. What is planned or called of other primitives
makes no difference. Every call is counted, whether it fails or not, and no number in the plan is larger than what was
planned since the plan was cleared. -/
theorem planned_failures_strike (name : String) (key : ResourceKey) (capabilities : Capabilities)
    (calls : List StoreCall) (q : PrimitiveCall) :
    let s₀ : Store := { name, key, capabilities }
    let s := Store.ran calls s₀
    let past := Store.faultHistory calls s₀
    let p := q.primitive
    let run := q.run (Store.backend key capabilities)
    let fails (s : Store) : Prop := (run s).1 = .error (.storage (.injected p))
    (fails s ↔ 0 < left p past ∨ Renewed p past) ∧
    (AtCalls p (fun failed before => failed = true ↔ injected p before < planned p before) past ↔
      AtCalls p (fun _ before => ¬ Blank p before) past) ∧
    ((∀ n, .planned p n ∈ past → 0 < n) → (fails s ↔ injected p past < planned p past)) ∧
    (∀ since n before, past = since ++ .planned p n :: before → .cleared ∉ since →
      FaultHistory.calls p since < n → fails s) ∧
    (∀ more, (∀ e ∈ Store.faultHistory more s, e.concerns p = false) → (fails (Store.ran more s) ↔ fails s)) ∧
    s.stats.count p = FaultHistory.calls p past.sinceRecounted ∧ (run s).2.stats.count p = s.stats.count p + 1 ∧
    (s.faults.planned? p).getD 0 ≤ planned p past := by
  intro s₀ s past p run fails
  have hs : s.Reflects past := by
    have hran := (Store.Reflects.start (s := s₀) rfl rfl).ran calls
    rwa [List.append_nil] at hran
  have hfails : ∀ {past' s'}, Store.Reflects past' s' → (fails s' ↔ Strikes p past') := fun {_ s'} hs' =>
    (q.run_injected_iff key capabilities s').trans (hs'.plan p).strikes
  clear_value s past
  refine ⟨hfails hs, counted_out_iff (hs.struck p), fun hpos => (hfails hs).trans (strikes_iff_counts (hs.struck p) hpos),
    ?_, fun more hmore => ?_, hs.counted p, ?_, ?_⟩
  · rintro since n before rfl hkept hfew
    have hle : n ≤ left p (since ++ .planned p n :: before) + FaultHistory.calls p since := le_left hkept
    exact (hfails hs).2 (.inl (by omega))
  · rw [hfails (hs.ran more), hfails hs]
    exact strikes_append hmore
  · have hcalled := (hs.called (.primitive q.primitive q.within)).counted p
    rw [q.faultEvents_eq, ← q.run_eq key capabilities] at hcalled
    rw [hcalled, hs.counted p]
    exact List.countP_cons_of_pos (beq_self_eq_true q.primitive)
  · rw [(hs.plan p).left]
    exact left_le_planned

/-- Two failures of the commit and one of the rollback are planned. The second commit fails as the first one did, and
still does behind a rollback that has failed. -/
theorem planned_failures_strike_twice :
    let calls : List StoreCall := [.primitive .begin (.connect false false .unspecified), .store (.fail .commit 2),
      .store (.fail .rollback 1), .primitive .commit (.commit 0)]
    let s := Store.ran calls { key := ⟨7⟩ }
    let past := Store.faultHistory calls { key := ⟨7⟩ }
    let more : List StoreCall := [.primitive .rollback (.rollback 0)]
    let commit (s : Store) := ((Store.backend ⟨7⟩ .all).commit 0 s).1
    past = [.called .commit true, .planned .rollback 1, .planned .commit 2, .called .begin false] ∧
      injected .commit past < planned .commit past ∧ Store.faultHistory more s = [.called .rollback true] ∧
      commit s = .error (.storage (.injected .commit)) ∧
      commit (Store.ran more s) = .error (.storage (.injected .commit)) := by
  intro calls s past more commit
  have hpast : past = [.called .commit true, .planned .rollback 1, .planned .commit 2, .called .begin false] := by
    decide
  have hmore : Store.faultHistory more s = [.called .rollback true] := by decide
  obtain ⟨-, -, hcounted, hsoon, hother, -⟩ := planned_failures_strike "memory" ⟨7⟩ .all calls (.commit 0)
  have hcommit : commit s = .error (.storage (.injected .commit)) :=
    hsoon [.called .commit true, .planned .rollback 1] 2 [.called .begin false] hpast (by decide) (by decide)
  refine ⟨hpast, (hcounted fun n hn => ?_).1 hcommit, hmore, hcommit, (hother more ?_).2 hcommit⟩
  · have hn : FaultEvent.planned .commit n ∈ past := hn
    rw [hpast] at hn
    simp at hn
    omega
  · rw [hmore]
    decide

/-- A plan of no failures makes the next call fail, which succeeds without it. -/
theorem plan_of_no_failures_strikes :
    let begun : List StoreCall := [.primitive .begin (.connect false false .unspecified)]
    let calls : List StoreCall := begun ++ [.store (.fail .commit 0)]
    let past := Store.faultHistory calls { key := ⟨7⟩ }
    let commit (s : Store) := ((Store.backend ⟨7⟩ .all).commit 0 s).1
    planned .commit past = 0 ∧ injected .commit past = 0 ∧ commit (Store.ran begun { key := ⟨7⟩ }) = .ok () ∧
      commit (Store.ran calls { key := ⟨7⟩ }) = .error (.storage (.injected .commit)) := by
  refine ⟨by decide, by decide, rfl, rfl⟩

end Demarcation
