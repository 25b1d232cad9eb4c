/-
Managers of one party. A manager whose backend works on a party's part of the native state, and that binds under one
of the party's keys, does in a shared session what it does in the party's own.
-/
import Demarcation.Proofs.Manager.Completing
import Demarcation.Proofs.Sharing.Parties

namespace Demarcation

open Session

variable {σ ρ ς α : Type} {p p' : Party σ} {n : Names}

theorem Names.Answer.eq {ε : Type} {r r' : Except ε α} (h : Names.Answer Names.Equal n r r') : r = r' := by
  cases h with
  | ok h => exact congrArg Except.ok h
  | error e => rfl

/-- A backend binds under a key of a party and works on its part of the native state. -/
structure Backend.Local (p p' : Party σ) (b : Backend σ ρ ς) : Prop where
  key : p.keys b.key
  start : ∀ d, p.Local p' (b.start d)
  suspend : ∀ r, p.Local p' (b.suspend r)
  resume : ∀ r, p.Local p' (b.resume r)
  commit : ∀ r, p.Local p' (b.commit r)
  rollback : ∀ r, p.Local p' (b.rollback r)
  cleanup : ∀ r, p.Local p' (b.cleanup r)
  createSavepoint : ∀ r, p.Local p' (b.createSavepoint r)
  rollbackToSavepoint : ∀ r sp, p.Local p' (b.rollbackToSavepoint r sp)
  releaseSavepoint : ∀ r sp, p.Local p' (b.releaseSavepoint r sp)

section Sights

variable {n' : Names} {s a b : Session σ ρ ς} {st st' : Status ς}

/-- A party finds the holder of a status as it is. -/
theorem Split.statusHolder? (hs : Split p p' n n' s a b) (hst : n.Same st st') :
    a.statusHolder? st' = s.statusHolder? st := by
  have hh := hst.holder
  unfold Session.statusHolder?
  generalize st.holder = o, st'.holder = o' at hh
  cases hh with
  | none => rfl
  | some hh => exact (hs.mine.holder _ _ hh).2

theorem Split.isGlobalRollbackOnly (hs : Split p p' n n' s a b) (hst : n.Same st st') :
    a.isGlobalRollbackOnly st' = s.isGlobalRollbackOnly st := by
  unfold Session.isGlobalRollbackOnly
  rw [hs.statusHolder? hst]

end Sights

namespace Manager

section Holders

variable {h h' : HolderId} {st st' : Status ς}

theorem callOn_tracks {op : ρ → Native σ α} (hop : ∀ r, p.Local p' (op r)) (hh : n.SameHolder h h')
    (fault : Failure → TransactionError) :
    Tracks p p' n (callOn h op fault : Attempt σ ρ ς _ _) (callOn h' op fault) (Names.Answer Names.Equal) := by
  intro n₁ n' s a b hle hs hnow
  obtain ⟨hlt, hsame⟩ := hs.mine.holder h h' (hle.holder hh)
  obtain ⟨x, hx⟩ := exists_holder hlt
  have hlocal := hop x.resource
  rw [callOn_of_holder hx, callOn_of_holder (hsame.trans hx)]
  refine ⟨n₁, .refl n₁, hs.withNative (hlocal.same _ _ hs.mine.native) (hlocal.spares _), hnow, ?_⟩
  rw [hlocal.answer _ _ hs.mine.native]
  cases (op x.resource s.native).1 with
  | ok r => exact .ok rfl
  | error e => exact .error (fault e)

theorem complete_tracks {op : ρ → Native σ Unit} (hop : ∀ r, p.Local p' (op r)) (hst : n.Same st st')
    (text : String) : Tracks p p' n (complete st op text) (complete st' op text) Names.Equal := by
  have hh := hst.holder
  unfold complete
  generalize st.holder = o, st'.holder = o' at hh
  cases hh with
  | none => exact .pure fun _ _ => rfl
  | some hh =>
    refine (callOn_tracks hop hh _).step_bind fun n₁ r r' _ hr => .pure fun _ _ => ?_
    rw [hr.eq]; rfl

end Holders

namespace Tracking

variable {m : Manager σ ρ ς} (hm : m.backend.Local p p')
include hm

variable {h h' : HolderId} {t t' : StatusId} {st st' : Status ς} (c : ContextIndex)

theorem currentHolder : Tracks p p' n (m.currentHolder c) (m.currentHolder c) (Names.Answer Names.SameHolder?) :=
  (Tracks.find hm.key).adapt _

theorem suspend (hh : n.SameHolder h h') :
    Tracks p p' n (m.suspend c h) (m.suspend c h') (Names.Answer Names.Equal) := by
  unfold Manager.suspend
  refine (callOn_tracks hm.suspend hh _).bind fun n₁ _ _ hle₁ _ => ?_
  refine ((Tracks.unbind hm.key).adapt _).bind fun n₂ _ _ hle₂ _ => ?_
  exact .modifyHolder (hle₂.holder (hle₁.holder hh)) _

theorem resume (hh : n.SameHolder h h') :
    Tracks p p' n (m.resume c h) (m.resume c h') (Names.Answer Names.Equal) := by
  unfold Manager.resume
  refine ((Tracks.bound hm.key hh).adapt _).bind fun n₁ _ _ hle₁ _ => ?_
  refine (Tracks.modifyHolder (hle₁.holder hh) _).bind fun n₂ _ _ hle₂ _ => ?_
  exact (callOn_tracks hm.resume (hle₂.holder (hle₁.holder hh)) _).bind fun _ _ _ _ _ => .ok fun _ _ => rfl

/-! ## Opening scopes -/

theorem begin (d : Definition) :
    Tracks p p' n (m.begin c d) (m.begin c d) (Names.Answer Names.SameHolder) := by
  have hlift : ∀ (n₁ : Names) (r : Except TransactionError (Option Duration)),
      Tracks p p' n₁ (Manager.begin.liftExcept r : Attempt σ ρ ς _ _) (Manager.begin.liftExcept r)
        (Names.Answer Names.Equal) := by
    intro n₁ r
    cases r with
    | error e => exact .throw e
    | ok timeout => exact .ok fun _ _ => rfl
  unfold Manager.begin
  split
  · exact fun n₁ _ _ _ _ _ hs hnow => ⟨n₁, .refl n₁, hs, hnow, .error _⟩
  · refine (hlift n _).bind fun n₁ timeout _ _ heq => ?_
    obtain rfl := heq
    refine ((Tracks.call (hm.start d)).adapt _).bind fun n₂ r _ _ heq => ?_
    obtain rfl := heq
    have hadd : Tracks p p' n₂
        (modifyGet fun s => s.addHolder (m.newHolder d r timeout s.now) : Attempt σ ρ ς TransactionError HolderId)
        (modifyGet fun s => s.addHolder (m.newHolder d r timeout s.now) : Attempt σ ρ ς TransactionError HolderId)
        (Names.Answer Names.SameHolder) := .addHolder _ fun s a hnow => by rw [hnow]
    refine hadd.bind fun n₃ h h' _ hh => ?_
    refine (Tracks.observe (Tracks.bound hm.key hh)).bind fun n₄ q q' hle₄ hq => ?_
    cases hq with
    | ok => exact .ok fun n₅ hle₅ => hle₅.holder (hle₄.holder hh)
    | error e => exact (Tracks.observe (Tracks.call (hm.cleanup r))).bind fun _ _ _ _ _ => .throw _

omit hm in
theorem opened (hst : n.Same st st') :
    Tracks p p' n (Manager.opened st : Attempt σ ρ ς _ _) (Manager.opened st') (Names.Answer Names.SameStatus) :=
  .addStatus hst

omit hm in
/-- A status without marks is the same in both sessions if its holders are. -/
theorem same_opened (d : Definition) {o o' u u' : Option HolderId} (new : Bool) (savepoint : Option ς)
    (ho : n.SameHolder? o o') (hu : n.SameHolder? u u') :
    n.Same { definition := d, holder := o, newTransaction := new, savepoint, suspended := u }
      { definition := d, holder := o', newTransaction := new, savepoint, suspended := u' } := ⟨rfl, ho, hu⟩

theorem startTransaction (d : Definition) {o o' : Option HolderId} (ho : n.SameHolder? o o') :
    Tracks p p' n (m.startTransaction c d o) (m.startTransaction c d o') (Names.Answer Names.SameStatus) := by
  unfold Manager.startTransaction
  refine (Tracks.observe (begin hm c d)).bind fun n₁ r r' hle₁ hr => ?_
  cases hr with
  | ok hh => exact opened (same_opened d true none (.some hh) (ho.mono hle₁))
  | error e =>
    cases ho with
    | none => exact .throw e
    | some hh => exact (resume hm c (hle₁.holder hh)).bind fun _ _ _ _ _ => .throw e

omit hm in
theorem participate (d : Definition) (hh : n.SameHolder h h') (savepoint : Option ς) :
    Tracks p p' n (Manager.participate d h savepoint : Attempt σ ρ ς _ _) (Manager.participate d h' savepoint)
      (Names.Answer Names.SameStatus) := by
  unfold Manager.participate
  refine (Tracks.modifyHolder hh _).bind fun n₁ _ _ hle₁ _ => ?_
  exact opened (same_opened d false savepoint (.some (hle₁.holder hh)) .none)

theorem enterExisting (d : Definition) (hh : n.SameHolder h h') :
    Tracks p p' n (m.enterExisting c d h) (m.enterExisting c d h') (Names.Answer Names.SameStatus) := by
  unfold Manager.enterExisting
  cases d.propagation with
  | never => exact .throw _
  | notSupported =>
    refine (suspend hm c hh).bind fun n₁ _ _ hle₁ _ => ?_
    exact opened (same_opened d false none .none (.some (hle₁.holder hh)))
  | requiresNew =>
    exact (suspend hm c hh).bind fun n₁ _ _ hle₁ _ => startTransaction hm c d (.some (hle₁.holder hh))
  | nested =>
    dsimp only
    split
    · exact fun n₁ _ _ _ _ _ hs hnow => ⟨n₁, .refl n₁, hs, hnow, .error _⟩
    · split
      · exact fun n₁ _ _ _ _ _ hs hnow => ⟨n₁, .refl n₁, hs, hnow, .error _⟩
      · refine (callOn_tracks hm.createSavepoint hh _).bind fun n₁ sp sp' hle₁ heq => ?_
        obtain rfl := heq
        exact participate d (hle₁.holder hh) sp
  | required | supports | mandatory =>
    dsimp only
    split
    · refine Tracks.reading fun n₁ n' s a b hle₁ hs => ?_
      rw [(hs.mine.holder h h' (hle₁.holder hh)).2]
      rcases (s.holder? h).map (validateExisting d) with _ | e | _
      · exact participate d (hle₁.holder hh) none
      · exact fun n₂ _ _ _ _ _ hs hnow => ⟨n₂, .refl n₂, hs, hnow, .error _⟩
      · exact participate d (hle₁.holder hh) none
    · exact participate d hh none

theorem getTransaction (d : Definition) :
    Tracks p p' n (m.getTransaction c d) (m.getTransaction c d) (Names.Answer Names.SameStatus) := by
  unfold Manager.getTransaction
  refine (currentHolder hm c).bind fun n₁ o o' _ ho => ?_
  cases ho with
  | some hh => exact enterExisting hm c d hh
  | none =>
    dsimp only
    cases d.propagation with
    | mandatory => exact .throw _
    | required | requiresNew | nested => exact startTransaction hm c d .none
    | supports | notSupported | never => exact opened (same_opened d false none .none .none)

/-! ## Completing scopes -/

theorem commitNative (hst : n.Same st st') :
    Tracks p p' n (m.commitNative st) (m.commitNative st') Names.Equal := by
  unfold Manager.commitNative
  refine (complete_tracks hm.commit hst _).step_bind fun n₁ r r' hle₁ heq => ?_
  obtain rfl := heq
  cases r with
  | ok => exact .pure fun _ _ => rfl
  | error e =>
    dsimp only
    split
    · refine (complete_tracks hm.rollback (hst.mono hle₁) _).step_bind fun n₂ r r' _ heq => ?_
      obtain rfl := heq
      cases r <;> exact .pure fun _ _ => rfl
    · exact .pure fun _ _ => rfl

theorem rollbackToSavepoint (hst : n.Same st st') (sp : ς) :
    Tracks p p' n (m.rollbackToSavepoint st sp) (m.rollbackToSavepoint st' sp) Names.Equal := by
  unfold Manager.rollbackToSavepoint
  refine (complete_tracks (fun r => hm.rollbackToSavepoint r sp) hst _).step_bind fun n₁ r r' hle₁ heq => ?_
  obtain rfl := heq
  have hrelease : ∀ {n₂ : Names}, n₁.Le n₂ → Tracks p p' n₂
      (complete st (m.backend.releaseSavepoint · sp) "could not release savepoint")
      (complete st' (m.backend.releaseSavepoint · sp) "could not release savepoint") Names.Equal :=
    fun hle₂ => complete_tracks (fun r => hm.releaseSavepoint r sp) (hst.mono (hle₁.trans hle₂)) _
  cases r with
  | error e => exact .pure fun _ _ => rfl
  | ok =>
    have hh := (hst.mono hle₁).holder
    dsimp only
    generalize st.holder = o, st'.holder = o' at hh
    cases hh with
    | none => exact hrelease (.refl n₁)
    | some hh => exact (Tracks.step_modifyHolder hh _).step_bind fun n₂ _ _ hle₂ _ => hrelease hle₂

theorem unbindCompleted (hh : n.SameHolder h h') :
    Tracks p p' n (m.unbindCompleted c h) (m.unbindCompleted c h') (Names.Answer Names.Equal) := by
  unfold Manager.unbindCompleted
  refine (currentHolder hm c).bind fun n₁ o o' hle₁ ho => ?_
  cases ho with
  | none => exact .ok fun _ _ => rfl
  | @some k k' hk =>
    intro n₂ n' s a b hle₂ hs hnow
    -- the bound holder is the completed one in both sessions, or in neither
    have hiff : k' = h' ↔ k = h := by
      have hk₂ := hle₂.holder hk
      have hh₂ := hle₂.holder (hle₁.holder hh)
      constructor
      · rintro rfl
        exact Option.some.inj (hk₂.symm.trans hh₂)
      · rintro rfl
        exact hs.mine.holder_inj hk₂ hh₂
    dsimp only
    by_cases heq : k = h
    · rw [if_pos heq, if_pos (hiff.2 heq)]
      have hunbind : Tracks p p' n₂ (Session.unbind c m.backend.kind m.backend.key : Attempt σ ρ ς _ _)
          (Session.unbind c m.backend.kind m.backend.key) (Names.Answer Names.SameHolder) := .unbind hm.key
      exact ((hunbind.adapt TransactionErrorFrom.registry).bind fun _ _ _ _ _ => .ok fun _ _ => rfl) n₂ n' s a b
        (.refl n₂) hs hnow
    · rw [if_neg heq, if_neg fun h => heq (hiff.1 h)]
      exact ⟨n₂, .refl n₂, hs, hnow, .ok rfl⟩

theorem releaseScope (hst : n.Same st st') :
    Tracks p p' n (m.releaseScope c st) (m.releaseScope c st') Names.Equal := by
  have hh := hst.holder
  unfold Manager.releaseScope
  rw [hst.newTransaction]
  generalize st.holder = o, st'.holder = o' at hh
  cases hh with
  | none => exact .pure fun _ _ => rfl
  | some hh =>
    dsimp only
    split
    · unfold releaseTransaction
      refine Tracks.step_bind (unbindCompleted hm c hh) fun n₁ r r' hle₁ hr => ?_
      obtain rfl := hr.eq
      refine (Tracks.step_modifyHolder (hle₁.holder hh) _).step_bind fun n₂ _ _ hle₂ _ => ?_
      refine Tracks.step_bind (callOn_tracks hm.cleanup (hle₂.holder (hle₁.holder hh)) _) fun n₃ q q' _ hq => ?_
      obtain rfl := hq.eq
      exact .pure fun _ _ => rfl
    · exact (Tracks.step_modifyHolder hh _).step_bind fun _ _ _ _ _ => .pure fun _ _ => rfl

theorem resumeSuspended (ht : n.SameStatus t t') (hst : n.Same st st') :
    Tracks p p' n (m.resumeSuspended c t st) (m.resumeSuspended c t' st') Names.Equal := by
  have hh := hst.suspended
  unfold Manager.resumeSuspended
  generalize st.suspended = o, st'.suspended = o' at hh
  cases hh with
  | none => exact .pure fun _ _ => rfl
  | some hh =>
    refine (Tracks.step_modifyStatus ht fun _ _ _ h => h.detached).step_bind fun n₁ _ _ hle₁ _ => ?_
    exact Tracks.imp (resume hm c (hle₁.holder hh)) fun _ _ _ hr => hr.eq

theorem finish (ht : n.SameStatus t t') (hst : n.Same st st') (state : TransactionState)
    (outcome : Except TransactionError Unit) :
    Tracks p p' n (m.finish c t st state outcome) (m.finish c t' st' state outcome) Names.Equal := by
  unfold Manager.finish cleanupAfterCompletion
  refine (Tracks.step_modifyStatus ht fun _ _ _ h => h.ended state).step_bind fun n₁ _ _ hle₁ _ => ?_
  refine Tracks.step_bind (Q := Names.Equal) ?_ fun n₂ r r' _ heq => ?_
  · refine (releaseScope hm c (hst.mono hle₁)).step_bind fun n₂ r r' hle₂ heq => ?_
    obtain rfl := heq
    refine (resumeSuspended hm c (hle₂.status (hle₁.status ht)) (hst.mono (hle₁.trans hle₂))).step_bind
      fun n₃ q q' _ heq => ?_
    obtain rfl := heq
    exact .pure fun _ _ => rfl
  · obtain rfl := heq
    exact .pure fun _ _ => rfl

theorem commitWork (hst : n.Same st st') :
    Tracks p p' n (m.commitWork st) (m.commitWork st') Names.Equal := by
  unfold Manager.commitWork
  rw [hst.savepoint, hst.newTransaction]
  cases st.savepoint with
  | some sp =>
    refine (complete_tracks (fun r => hm.releaseSavepoint r sp) hst _).step_bind fun n₁ r r' _ heq => ?_
    obtain rfl := heq
    exact .pure fun _ _ => rfl
  | none =>
    dsimp only
    split
    · exact commitNative hm hst
    · exact .pure fun _ _ => rfl

theorem rollbackWork (hst : n.Same st st') :
    Tracks p p' n (m.rollbackWork st) (m.rollbackWork st') Names.Equal := by
  unfold Manager.rollbackWork
  rw [hst.savepoint, hst.newTransaction, hst.rollbackOnly]
  cases st.savepoint with
  | some sp => exact rollbackToSavepoint hm hst sp
  | none =>
    dsimp only
    split
    · exact complete_tracks hm.rollback hst _
    · have hh := hst.holder
      generalize st.holder = o, st'.holder = o' at hh
      cases hh with
      | none => exact .pure fun _ _ => rfl
      | some hh =>
        dsimp only
        split
        · exact (Tracks.step_modifyHolder hh _).step_bind fun _ _ _ _ _ => .pure fun _ _ => rfl
        · exact .pure fun _ _ => rfl

theorem processCommit (ht : n.SameStatus t t') (hst : n.Same st st') :
    Tracks p p' n (m.processCommit c t st) (m.processCommit c t' st') Names.Equal := by
  refine (commitWork hm hst).step_bind fun n₁ r r' hle₁ heq => ?_
  obtain rfl := heq
  exact finish hm c (hle₁.status ht) (hst.mono hle₁) _ _

theorem processRollback (ht : n.SameStatus t t') (hst : n.Same st st') (unexpected : Bool) :
    Tracks p p' n (m.processRollback c t st unexpected) (m.processRollback c t' st' unexpected) Names.Equal := by
  unfold Manager.processRollback
  rw [hst.savepoint, hst.newTransaction]
  refine (rollbackWork hm hst).step_bind fun n₁ r r' hle₁ heq => ?_
  obtain rfl := heq
  refine (finish hm c (hle₁.status ht) (hst.mono hle₁) _ r).step_bind fun n₂ q q' _ heq => ?_
  obtain rfl := heq
  cases q with
  | error e => exact .pure fun _ _ => rfl
  | ok =>
    dsimp only
    split <;> exact .pure fun _ _ => rfl

omit hm in
theorem openStatus (ht : n.SameStatus t t') :
    Tracks p p' n (Manager.openStatus t : Attempt σ ρ ς _ _) (Manager.openStatus t') (Names.Answer Names.Same) := by
  intro n₁ n' s a b hle hs hnow
  obtain ⟨st, st', hst, hst', hsame⟩ := hs.mine.status t t' (hle.status ht)
  unfold Manager.openStatus
  rw [attempt_bind, attempt_bind, attempt_get, attempt_get]
  dsimp only
  rw [hst, hst']
  dsimp only
  rw [hsame.isCompleted]
  split
  · exact ⟨n₁, .refl n₁, hs, hnow, .error _⟩
  · exact ⟨n₁, .refl n₁, hs, hnow, .ok hsame⟩

theorem conclude (commit : Bool) (ht : n.SameStatus t t') :
    Tracks p p' n (m.conclude commit c t) (m.conclude commit c t') (Names.Answer Names.Equal) := by
  have hanswer : ∀ {n₁ : Names} {x y : Step σ ρ ς (Except TransactionError Unit)}, Tracks p p' n₁ x y Names.Equal →
      Tracks p p' n₁ x y (Names.Answer Names.Equal) := by
    refine fun hx => hx.imp fun n₂ r r' heq => ?_
    obtain rfl := heq
    cases r with
    | ok => exact .ok rfl
    | error e => exact .error e
  cases commit with
  | false =>
    exact (openStatus ht).bind fun n₁ st st' hle₁ hst => hanswer (processRollback hm c (hle₁.status ht) hst false)
  | true =>
    refine (openStatus ht).bind fun n₁ st st' hle₁ hst => ?_
    rw [hst.rollbackOnly]
    split
    · exact hanswer (processRollback hm c (hle₁.status ht) hst false)
    · refine Tracks.reading fun n₂ n' s a b hle₂ hs => ?_
      rw [hs.isGlobalRollbackOnly (hst.mono hle₂)]
      have ht₂ := hle₂.status (hle₁.status ht)
      split
      · exact hanswer (processRollback hm c ht₂ (hst.mono hle₂) true)
      · exact hanswer (processCommit hm c ht₂ (hst.mono hle₂))

end Tracking

end Manager

end Demarcation
