/-
A manager knows its backend only by what the operations answer. If one backend looks like another
one through a view of its states and resources, then whatever a manager does on the first looks like
what it does on the second.
-/
import Demarcation.Proofs.Client

namespace Demarcation

open Session

/-- A view of native states and resources. -/
structure NativeView (σ σ' ρ ρ' : Type) where
  state : σ → σ'
  resource : ρ → ρ'

variable {σ σ' ρ ρ' ς α α' β ε δ : Type} {v : NativeView σ σ' ρ ρ'}

def Holder.seen (v : NativeView σ σ' ρ ρ') (x : Holder ρ) : Holder ρ' := { x with resource := v.resource x.resource }

def Session.seen (v : NativeView σ σ' ρ ρ') (s : Session σ ρ ς) : Session σ' ρ' ς :=
  { s with holders := s.holders.map (Holder.seen v), native := v.state s.native }

/-- A native operation looks like another one. -/
def Native.Mirrored (f : σ → σ') (op : Native σ α) (op' : Native σ' α) : Prop :=
  ∀ n, op' (f n) = ((op n).1, f (op n).2)

/-- An operation on sessions looks like another one. -/
def Session.Mirrored (v : NativeView σ σ' ρ ρ') (x : Step σ ρ ς α) (y : Step σ' ρ' ς α) : Prop :=
  ∀ s : Session σ ρ ς, y (s.seen v) = ((x s).1, (x s).2.seen v)

/-- Each operation of a backend looks like that of another one. -/
structure Backend.Mirrored (v : NativeView σ σ' ρ ρ') (b : Backend σ ρ ς) (b' : Backend σ' ρ' ς) : Prop where
  key : b'.key = b.key
  kind : b'.kind = b.kind
  capabilities : b'.capabilities = b.capabilities
  start : ∀ d n, b'.start d (v.state n) = ((b.start d n).1.map v.resource, v.state (b.start d n).2)
  suspend : ∀ r, Native.Mirrored v.state (b.suspend r) (b'.suspend (v.resource r))
  resume : ∀ r, Native.Mirrored v.state (b.resume r) (b'.resume (v.resource r))
  commit : ∀ r, Native.Mirrored v.state (b.commit r) (b'.commit (v.resource r))
  rollback : ∀ r, Native.Mirrored v.state (b.rollback r) (b'.rollback (v.resource r))
  cleanup : ∀ r, Native.Mirrored v.state (b.cleanup r) (b'.cleanup (v.resource r))
  createSavepoint : ∀ r, Native.Mirrored v.state (b.createSavepoint r) (b'.createSavepoint (v.resource r))
  rollbackToSavepoint : ∀ r sp,
    Native.Mirrored v.state (b.rollbackToSavepoint r sp) (b'.rollbackToSavepoint (v.resource r) sp)
  releaseSavepoint : ∀ r sp,
    Native.Mirrored v.state (b.releaseSavepoint r sp) (b'.releaseSavepoint (v.resource r) sp)

/-! ## Parts of a session -/

namespace Session

section Parts

variable (v : NativeView σ σ' ρ ρ') (s : Session σ ρ ς)

theorem holder?_seen (h : HolderId) : (s.seen v).holder? h = (s.holder? h).map (Holder.seen v) := by
  unfold holder? seen
  exact Array.getElem?_map

theorem view_seen : (s.seen v).view = s.view := by
  unfold view
  congr 1 <;> funext h <;> rw [holder?_seen] <;> cases s.holder? h <;> rfl

theorem seen_modifyHolder (h : HolderId) {f : Holder ρ → Holder ρ} {f' : Holder ρ' → Holder ρ'}
    (hf : ∀ x, (f x).seen v = f' (x.seen v)) : (s.modifyHolder h f).seen v = (s.seen v).modifyHolder h f' := by
  have hholders : (s.holders.modify h f).map (Holder.seen v) = (s.holders.map (Holder.seen v)).modify h f' := by
    refine Array.ext_getElem? fun i => ?_
    rw [Array.getElem?_map, Array.getElem?_modify, Array.getElem?_modify, Array.getElem?_map]
    split
    · rw [Option.map_map, Option.map_map]
      exact congrArg (Option.map · _) (funext hf)
    · rfl
  unfold seen modifyHolder
  rw [hholders]

theorem seen_addHolder (x : Holder ρ) : (s.addHolder x).2.seen v = ((s.seen v).addHolder (x.seen v)).2 := by
  unfold seen addHolder
  rw [Array.map_push]

theorem statusHolder?_seen (st : Status ς) :
    (s.seen v).statusHolder? st = (s.statusHolder? st).map (Holder.seen v) := by
  unfold statusHolder?
  cases st.holder with
  | none => rfl
  | some h => exact holder?_seen v s h

theorem ofContexts_seen (contexts : Nat) (n : σ) :
    (ofContexts contexts n : Session σ ρ ς).seen v = ofContexts contexts (v.state n) := by
  unfold seen ofContexts
  rw [Array.map_empty]

theorem isGlobalRollbackOnly_seen (st : Status ς) :
    (s.seen v).isGlobalRollbackOnly st = s.isGlobalRollbackOnly st := by
  unfold isGlobalRollbackOnly
  rw [statusHolder?_seen]
  cases s.statusHolder? st <;> rfl

end Parts

/-! ## Putting operations together -/

namespace Mirrored

theorem pure (a : α) : Mirrored v (Pure.pure a : Step σ ρ ς α) (Pure.pure a) := fun _ => rfl

theorem ok (a : α) : Mirrored v (Pure.pure a : Attempt σ ρ ς ε α) (Pure.pure a : Attempt σ' ρ' ς ε α) :=
  fun _ => rfl

theorem throw (e : ε) : Mirrored v (MonadExcept.throw e : Attempt σ ρ ς ε α)
    (MonadExcept.throw e : Attempt σ' ρ' ς ε α) := fun _ => rfl

theorem step_bind {x : Step σ ρ ς α} {y : Step σ' ρ' ς α} {k : α → Step σ ρ ς β} {k' : α → Step σ' ρ' ς β}
    (hx : Mirrored v x y) (hk : ∀ a, Mirrored v (k a) (k' a)) : Mirrored v (x >>= k) (y >>= k') := by
  intro s
  rw [Session.step_bind, Session.step_bind, hx s]
  exact hk _ _

/-- The first operation may answer something that looks different, if what follows does not depend on it
otherwise. -/
theorem bind_map {x : Attempt σ ρ ς ε α} {y : Attempt σ' ρ' ς ε α'} {k : α → Attempt σ ρ ς ε β}
    {k' : α' → Attempt σ' ρ' ς ε β} (g : α → α') (hx : ∀ s, y (s.seen v) = ((x s).1.map g, (x s).2.seen v))
    (hk : ∀ a, Mirrored v (k a) (k' (g a))) :
    Mirrored v (x >>= k : Attempt σ ρ ς ε β) (y >>= k' : Attempt σ' ρ' ς ε β) := by
  intro s
  rw [attempt_bind, attempt_bind, hx s]
  rcases x s with ⟨e | a, s'⟩
  · rfl
  · exact hk a s'

theorem bind {x : Attempt σ ρ ς ε α} {y : Attempt σ' ρ' ς ε α} {k : α → Attempt σ ρ ς ε β}
    {k' : α → Attempt σ' ρ' ς ε β} (hx : Mirrored v x y) (hk : ∀ a, Mirrored v (k a) (k' a)) :
    Mirrored v (x >>= k : Attempt σ ρ ς ε β) (y >>= k' : Attempt σ' ρ' ς ε β) := by
  refine bind_map id (fun s => (hx s).trans ?_) hk
  rcases x s with ⟨_ | _, _⟩ <;> rfl

theorem adapt {x : Attempt σ ρ ς ε α} {y : Attempt σ' ρ' ς ε α} (hx : Mirrored v x y) (f : ε → δ) :
    Mirrored v (x.adapt f) (y.adapt f) := by
  intro s
  rw [attempt_adapt, attempt_adapt, hx s]

theorem observe {x : Attempt σ ρ ς ε α} {y : Attempt σ' ρ' ς ε α} (hx : Mirrored v x y) :
    Mirrored v (Session.observe x : Attempt σ ρ ς δ _) (Session.observe y : Attempt σ' ρ' ς δ _) := by
  intro s
  rw [observe_apply, observe_apply, hx s]

section Changes

variable {f : Session σ ρ ς → Session σ ρ ς} {f' : Session σ' ρ' ς → Session σ' ρ' ς}
  (hf : ∀ s, (f s).seen v = f' (s.seen v))
include hf

theorem step_modified : Mirrored v (modify f : Step σ ρ ς PUnit) (modify f' : Step σ' ρ' ς PUnit) :=
  fun s => Prod.ext rfl (hf s).symm

theorem modified : Mirrored v (modify f : Attempt σ ρ ς ε PUnit) (modify f' : Attempt σ' ρ' ς ε PUnit) :=
  fun s => Prod.ext rfl (hf s).symm

end Changes

theorem step_modifyHolder (v : NativeView σ σ' ρ ρ') (h : HolderId) {f : Holder ρ → Holder ρ}
    {f' : Holder ρ' → Holder ρ'} (hf : ∀ x, (f x).seen v = f' (x.seen v)) :
    Mirrored v (modify fun s => s.modifyHolder h f : Step σ ρ ς PUnit) (modify fun s => s.modifyHolder h f') :=
  step_modified fun s => seen_modifyHolder v s h hf

theorem step_modifyStatus (v : NativeView σ σ' ρ ρ') (t : StatusId) (f : Status ς → Status ς) :
    Mirrored v (modify fun s => s.modifyStatus t f : Step σ ρ ς PUnit) (modify fun s => s.modifyStatus t f) :=
  step_modified fun _ => rfl

theorem modifyHolder (v : NativeView σ σ' ρ ρ') (h : HolderId) {f : Holder ρ → Holder ρ}
    {f' : Holder ρ' → Holder ρ'} (hf : ∀ x, (f x).seen v = f' (x.seen v)) :
    Mirrored v (modify fun s => s.modifyHolder h f : Attempt σ ρ ς ε PUnit)
      (modify fun s => s.modifyHolder h f' : Attempt σ' ρ' ς ε PUnit) :=
  modified fun s => seen_modifyHolder v s h hf

end Mirrored

/-! ## Operations on a session -/

namespace Mirrored

theorem call {op : Native σ α} {op' : Native σ' α} (hop : Native.Mirrored v.state op op') :
    Mirrored v (Session.call op : Attempt σ ρ ς Failure α) (Session.call op' : Attempt σ' ρ' ς Failure α) := by
  intro s
  rw [call_apply, call_apply, show (s.seen v).native = v.state s.native from rfl, hop]
  rfl

variable (v) (c : ContextIndex) (kind : HolderKind) (key : ResourceKey)

theorem find : Mirrored v (Session.find c kind key : Attempt σ ρ ς _ _) (Session.find c kind key) := by
  intro s
  unfold Session.find
  rw [view_seen]
  rfl

theorem unbind : Mirrored v (Session.unbind c kind key : Attempt σ ρ ς _ _) (Session.unbind c kind key) := by
  intro s
  unfold Session.unbind
  rw [view_seen]
  rfl

theorem bound (h : HolderId) :
    Mirrored v (Session.bind c key h : Attempt σ ρ ς _ _) (Session.bind c key h) := by
  intro s
  unfold Session.bind
  rw [view_seen, show (s.seen v).registry c = s.registry c from rfl]
  cases (s.registry c).bind s.view key h <;> rfl

end Mirrored

end Session

/-! ## Managers -/

/-- The managers have the same configuration, and their backends look alike. -/
structure Manager.Mirrored (v : NativeView σ σ' ρ ρ') (m : Manager σ ρ ς) (m' : Manager σ' ρ' ς) : Prop where
  backend : m.backend.Mirrored v m'.backend
  config : m'.config = m.config

namespace Manager

theorem callOn_mirrored {op : ρ → Native σ α} {op' : ρ' → Native σ' α}
    (hop : ∀ r, Native.Mirrored v.state (op r) (op' (v.resource r))) (h : HolderId)
    (fault : Failure → TransactionError) :
    Session.Mirrored v (callOn h op fault : Attempt σ ρ ς _ _) (callOn h op' fault) := by
  intro s
  have hsame := holder?_seen v s h
  cases hx : s.holder? h with
  | none =>
    rw [hx] at hsame
    unfold callOn
    rw [attempt_bind, attempt_bind, attempt_get, attempt_get]
    simp only [hx, hsame, Option.map_none]
    rfl
  | some x =>
    rw [hx] at hsame
    rw [callOn_of_holder hsame, callOn_of_holder hx]
    show (((op' (v.resource x.resource) (v.state s.native)).1.mapError fault).map some, _) = _
    rw [hop]
    show (_, (s.seen v).withNative (op' (v.resource x.resource) (v.state s.native)).2) = _
    rw [hop]
    rfl

theorem complete_mirrored {op : ρ → Native σ Unit} {op' : ρ' → Native σ' Unit}
    (hop : ∀ r, Native.Mirrored v.state (op r) (op' (v.resource r))) (st : Status ς) (text : String) :
    Session.Mirrored v (complete st op text) (complete st op' text) := by
  unfold complete
  cases st.holder with
  | none => exact .pure _
  | some h => exact (callOn_mirrored hop h _).step_bind fun r => .pure _

namespace Mirrored

variable {m : Manager σ ρ ς} {m' : Manager σ' ρ' ς} (hm : m.Mirrored v m')
include hm

theorem currentHolder (c : ContextIndex) : Session.Mirrored v (m.currentHolder c) (m'.currentHolder c) := by
  unfold Manager.currentHolder
  rw [hm.backend.key, hm.backend.kind]
  exact (Session.Mirrored.find v c _ _).adapt _

theorem suspend (c : ContextIndex) (h : HolderId) :
    Session.Mirrored v (m.suspend c h) (m'.suspend c h) := by
  unfold Manager.suspend
  rw [hm.backend.key, hm.backend.kind]
  refine (callOn_mirrored hm.backend.suspend h _).bind fun _ => ?_
  refine ((Session.Mirrored.unbind v c _ _).adapt _).bind fun _ => ?_
  exact .modifyHolder v h fun _ => rfl

theorem resume (c : ContextIndex) (h : HolderId) :
    Session.Mirrored v (m.resume c h) (m'.resume c h) := by
  unfold Manager.resume
  rw [hm.backend.key]
  refine ((Session.Mirrored.bound v c _ h).adapt _).bind fun _ => ?_
  refine (Session.Mirrored.modifyHolder v h fun _ => rfl).bind fun _ => ?_
  exact (callOn_mirrored hm.backend.resume h _).bind fun _ => .ok _

/-! ## Opening scopes -/

theorem newHolder (d : Definition) (r : ρ) (timeout : Option Duration) (now : Instant) :
    (m.newHolder d r timeout now).seen v = m'.newHolder d (v.resource r) timeout now := by
  unfold Manager.newHolder
  rw [hm.backend.kind]
  cases timeout <;> rfl

/-- The resource of a new transaction looks like that of the other one. -/
theorem start (d : Definition) (fault : Failure → TransactionError) (s : Session σ ρ ς) :
    ((call (m'.backend.start d) : Attempt σ' ρ' ς _ _).adapt fault) (s.seen v) =
      ((((call (m.backend.start d) : Attempt σ ρ ς _ _).adapt fault) s).1.map v.resource,
        (((call (m.backend.start d) : Attempt σ ρ ς _ _).adapt fault) s).2.seen v) := by
  rw [attempt_adapt, attempt_adapt, call_apply, call_apply, show (s.seen v).native = v.state s.native from rfl,
    hm.backend.start]
  rcases m.backend.start d s.native with ⟨_ | _, _⟩ <;> rfl

theorem begin (c : ContextIndex) (d : Definition) : Session.Mirrored v (m.begin c d) (m'.begin c d) := by
  have htimeout : m'.timeoutOf d = m.timeoutOf d := by
    unfold timeoutOf
    rw [hm.backend.capabilities, hm.config]
  have hlift : ∀ r : Except TransactionError (Option Duration),
      Session.Mirrored v (Manager.begin.liftExcept r : Attempt σ ρ ς _ _) (Manager.begin.liftExcept r) := by
    intro r
    cases r with
    | error e => exact .throw e
    | ok timeout => exact .ok timeout
  unfold Manager.begin
  rw [htimeout, hm.backend.capabilities, hm.backend.key]
  split
  · exact fun _ => rfl
  · -- the resource looks different, and so does the holder that is added for it
    refine (hlift _).bind fun timeout => .bind_map v.resource (hm.start d _) fun r => ?_
    have hadd : Session.Mirrored v
        (modifyGet fun s => s.addHolder (m.newHolder d r timeout s.now) : Attempt σ ρ ς TransactionError _)
        (modifyGet fun s => s.addHolder (m'.newHolder d (v.resource r) timeout s.now) : Attempt σ' ρ' ς _ _) := by
      intro s
      rw [attempt_modifyGet, attempt_modifyGet, ← hm.newHolder]
      refine Prod.ext ?_ (seen_addHolder v s _).symm
      show Except.ok (s.holders.map (Holder.seen v)).size = Except.ok s.holders.size
      rw [Array.size_map]
    refine hadd.bind fun h => (Session.Mirrored.bound v c _ h).observe.bind fun r' => ?_
    cases r' with
    | ok => exact .ok h
    | error e =>
      have hcleanup : Session.Mirrored v (call (m.backend.cleanup r) : Attempt σ ρ ς _ _)
          (call (m'.backend.cleanup (v.resource r))) := .call (hm.backend.cleanup r)
      exact hcleanup.observe.bind fun _ => .throw _

theorem startTransaction (c : ContextIndex) (d : Definition) (suspended : Option HolderId) :
    Session.Mirrored v (m.startTransaction c d suspended) (m'.startTransaction c d suspended) := by
  unfold Manager.startTransaction
  refine (hm.begin c d).observe.bind fun r => ?_
  cases r with
  | ok h => exact fun _ => rfl
  | error e =>
    cases suspended with
    | none => exact .throw e
    | some h => exact (hm.resume c h).bind fun _ => .throw e

omit hm in
theorem participate (d : Definition) (h : HolderId) (savepoint : Option ς) :
    Session.Mirrored v (Manager.participate d h savepoint : Attempt σ ρ ς _ _)
      (Manager.participate d h savepoint) := by
  unfold Manager.participate
  exact (Session.Mirrored.modifyHolder v h fun _ => rfl).bind fun _ _ => rfl

theorem enterExisting (c : ContextIndex) (d : Definition) (h : HolderId) :
    Session.Mirrored v (m.enterExisting c d h) (m'.enterExisting c d h) := by
  have hjoin : ∀ sp, Session.Mirrored v (Manager.participate d h sp : Attempt σ ρ ς _ _)
      (Manager.participate d h sp) := participate d h
  have hvalid : ∀ s : Session σ ρ ς, ((s.seen v).holder? h).map (validateExisting d) =
      (s.holder? h).map (validateExisting d) := by
    intro s
    rw [holder?_seen, Option.map_map]
    rfl
  unfold Manager.enterExisting
  cases d.propagation with
  | never => exact .throw _
  | notSupported => exact (hm.suspend c h).bind fun _ _ => rfl
  | requiresNew => exact (hm.suspend c h).bind fun _ => hm.startTransaction c d (some h)
  | nested =>
    dsimp only
    rw [hm.config, hm.backend.capabilities]
    split
    · exact fun _ => rfl
    · split
      · exact fun _ => rfl
      · exact (callOn_mirrored hm.backend.createSavepoint h _).bind hjoin
  | required | supports | mandatory =>
    dsimp only
    rw [hm.config]
    split
    · intro s
      rw [attempt_bind, attempt_bind, attempt_get, attempt_get]
      dsimp only
      rw [hvalid]
      rcases (s.holder? h).map (validateExisting d) with _ | e | _
      · exact hjoin none s
      · rfl
      · exact hjoin none s
    · exact hjoin none

theorem getTransaction (c : ContextIndex) (d : Definition) :
    Session.Mirrored v (m.getTransaction c d) (m'.getTransaction c d) := by
  unfold Manager.getTransaction
  refine (hm.currentHolder c).bind fun h => ?_
  cases h with
  | some h => exact hm.enterExisting c d h
  | none =>
    dsimp only
    cases d.propagation with
    | mandatory => exact .throw _
    | required | requiresNew | nested => exact hm.startTransaction c d none
    | supports | notSupported | never => exact fun _ => rfl

/-! ## Completing scopes -/

theorem commitNative (st : Status ς) : Session.Mirrored v (m.commitNative st) (m'.commitNative st) := by
  unfold Manager.commitNative
  refine (complete_mirrored hm.backend.commit st _).step_bind fun r => ?_
  cases r with
  | ok => exact .pure _
  | error e =>
    dsimp only
    rw [hm.config]
    split
    · refine (complete_mirrored hm.backend.rollback st _).step_bind fun r => ?_
      cases r <;> exact .pure _
    · exact .pure _

theorem rollbackToSavepoint (st : Status ς) (sp : ς) :
    Session.Mirrored v (m.rollbackToSavepoint st sp) (m'.rollbackToSavepoint st sp) := by
  unfold Manager.rollbackToSavepoint
  refine (complete_mirrored (fun r => hm.backend.rollbackToSavepoint r sp) st _).step_bind fun r => ?_
  have hrelease : Session.Mirrored v
      (complete st (m.backend.releaseSavepoint · sp) "could not release savepoint")
      (complete st (m'.backend.releaseSavepoint · sp) "could not release savepoint") :=
    complete_mirrored (fun r => hm.backend.releaseSavepoint r sp) st _
  cases r with
  | error e => exact .pure _
  | ok =>
    dsimp only
    cases st.holder with
    | none => exact hrelease
    | some h =>
      exact (Session.Mirrored.step_modifyHolder v h fun _ => rfl).step_bind fun _ => hrelease

theorem unbindCompleted (c : ContextIndex) (h : HolderId) :
    Session.Mirrored v (m.unbindCompleted c h) (m'.unbindCompleted c h) := by
  unfold Manager.unbindCompleted
  refine (hm.currentHolder c).bind fun bound => ?_
  cases bound with
  | none => exact .ok _
  | some bound =>
    dsimp only
    rw [hm.backend.key, hm.backend.kind]
    split
    · exact ((Session.Mirrored.unbind v c _ _).adapt _).bind fun _ => .ok _
    · exact .ok _

theorem releaseScope (c : ContextIndex) (st : Status ς) :
    Session.Mirrored v (m.releaseScope c st) (m'.releaseScope c st) := by
  unfold Manager.releaseScope
  cases st.holder with
  | none => exact .pure _
  | some h =>
    dsimp only
    split
    · unfold releaseTransaction
      refine Session.Mirrored.step_bind (hm.unbindCompleted c h) fun r => ?_
      refine (Session.Mirrored.step_modifyHolder v h fun _ => rfl).step_bind fun _ => ?_
      exact Session.Mirrored.step_bind (callOn_mirrored hm.backend.cleanup h _) fun _ => .pure _
    · exact (Session.Mirrored.step_modifyHolder v h fun _ => rfl).step_bind fun _ => .pure _

theorem resumeSuspended (c : ContextIndex) (t : StatusId) (st : Status ς) :
    Session.Mirrored v (m.resumeSuspended c t st) (m'.resumeSuspended c t st) := by
  unfold Manager.resumeSuspended
  cases st.suspended with
  | none => exact .pure _
  | some h => exact (Session.Mirrored.step_modifyStatus v t _).step_bind fun _ => hm.resume c h

theorem finish (c : ContextIndex) (t : StatusId) (st : Status ς) (state : TransactionState)
    (outcome : Except TransactionError Unit) :
    Session.Mirrored v (m.finish c t st state outcome) (m'.finish c t st state outcome) := by
  unfold Manager.finish cleanupAfterCompletion
  refine (Session.Mirrored.step_modifyStatus v t _).step_bind fun _ => ?_
  refine Session.Mirrored.step_bind ?_ fun _ => .pure _
  exact (hm.releaseScope c st).step_bind fun _ => (hm.resumeSuspended c t st).step_bind fun _ => .pure _

theorem commitWork (st : Status ς) : Session.Mirrored v (m.commitWork st) (m'.commitWork st) := by
  unfold Manager.commitWork
  cases st.savepoint with
  | some sp =>
    exact (complete_mirrored (fun r => hm.backend.releaseSavepoint r sp) st _).step_bind fun _ => .pure _
  | none =>
    dsimp only
    split
    · exact hm.commitNative st
    · exact .pure _

theorem rollbackWork (st : Status ς) : Session.Mirrored v (m.rollbackWork st) (m'.rollbackWork st) := by
  unfold Manager.rollbackWork
  rw [hm.config]
  cases st.savepoint with
  | some sp => exact hm.rollbackToSavepoint st sp
  | none =>
    dsimp only
    split
    · exact complete_mirrored hm.backend.rollback st _
    · cases st.holder with
      | none => exact .pure _
      | some h =>
        dsimp only
        split
        · exact (Session.Mirrored.step_modifyHolder v h fun _ => rfl).step_bind fun _ => .pure _
        · exact .pure _

theorem processCommit (c : ContextIndex) (t : StatusId) (st : Status ς) :
    Session.Mirrored v (m.processCommit c t st) (m'.processCommit c t st) :=
  (hm.commitWork st).step_bind fun _ => hm.finish c t st _ _

theorem processRollback (c : ContextIndex) (t : StatusId) (st : Status ς) (unexpected : Bool) :
    Session.Mirrored v (m.processRollback c t st unexpected) (m'.processRollback c t st unexpected) := by
  unfold Manager.processRollback
  rw [hm.config]
  refine (hm.rollbackWork st).step_bind fun outcome => (hm.finish c t st _ outcome).step_bind fun result => ?_
  cases result with
  | error e => exact .pure _
  | ok =>
    dsimp only
    split <;> exact .pure _

omit hm in
theorem openStatus (t : StatusId) : Session.Mirrored v (Manager.openStatus t : Attempt σ ρ ς _ _)
    (Manager.openStatus t) := by
  intro s
  unfold Manager.openStatus
  rw [attempt_bind, attempt_bind, attempt_get, attempt_get]
  dsimp only
  rw [show (s.seen v).status? t = s.status? t from rfl]
  cases s.status? t with
  | none => rfl
  | some st =>
    dsimp only
    split <;> rfl

theorem conclude (commit : Bool) (c : ContextIndex) (t : StatusId) :
    Session.Mirrored v (m.conclude commit c t) (m'.conclude commit c t) := by
  cases commit with
  | false => exact (openStatus t).bind fun st => hm.processRollback c t st false
  | true =>
    refine (openStatus t).bind fun st => ?_
    split
    · exact hm.processRollback c t st false
    · intro s
      rw [attempt_bind, attempt_bind, attempt_get, attempt_get]
      dsimp only
      rw [isGlobalRollbackOnly_seen]
      split
      · exact hm.processRollback c t st true s
      · exact hm.processCommit c t st s

/-! ## Calls of a client -/

variable {act : α → Session σ ρ ς → Session σ ρ ς} {act' : α → Session σ' ρ' ς → Session σ' ρ' ς}
  (hact : ∀ a s, act' a (s.seen v) = (act a s).seen v)
include hact

theorem called (s : Session σ ρ ς) (call : ManagerCall α) :
    m'.called act' (s.seen v) call = (m.called act s call).seen v := by
  cases call with
  | enter c d => exact congrArg Prod.snd (hm.getTransaction c d s)
  | conclude commit c t => exact congrArg Prod.snd (hm.conclude commit c t s)
  | mark t => rfl
  | act a => exact hact a s

/-- Whatever a client does with one manager looks like what it does with the other. -/
theorem calledAll (s : Session σ ρ ς) (calls : List (ManagerCall α)) :
    m'.calledAll act' calls (s.seen v) = (m.calledAll act calls s).seen v := by
  induction calls generalizing s with
  | nil => rfl
  | cons call calls ih =>
    refine Eq.trans ?_ (ih (m.called act s call))
    show m'.calledAll act' calls (m'.called act' (s.seen v) call) = _
    rw [hm.called hact]

end Mirrored

end Manager

end Demarcation
