/-
Traced backends. A backend that writes down what each of its resources is asked, with the savepoints, shows how
a manager talks to one transaction: what opening a scope asks of the transaction that it finds, and what completing
the scope asks later.
-/
import Demarcation.Proofs.Contexts
import Demarcation.Proofs.Manager.Mirror
import Demarcation.Proofs.Protocol

namespace Demarcation

open Session Manager

variable {σ ρ ς α : Type}

/-- A native state, how many transactions have begun on it, and what each of their resources was asked so far. -/
structure Traced (σ ς : Type) where
  state : σ
  begun : Nat := 0
  asked : Nat → List (Request ς) := fun _ => []

namespace Traced

/-- Runs an operation and writes it down for the resource `k`. -/
def note (k : Nat) (q : Except Failure α → Request ς) (op : Native σ α) : Native (Traced σ ς) α := fun t =>
  ((op t.state).1,
    { t with state := (op t.state).2, asked := Function.update t.asked k (t.asked k ++ [q (op t.state).1]) })

/-- Of one resource, if there is one, this was asked. -/
def told (k : Option Nat) (l : List (Request ς)) (j : Nat) : List (Request ς) := if k = some j then l else []

/-- From one state to another, no transaction has begun, and this was asked. -/
structure Asks (t t' : Traced σ ς) (l : Nat → List (Request ς)) : Prop where
  begun : t'.begun = t.begun
  asked : ∀ k, t'.asked k = t.asked k ++ l k

section Asks

variable {t t' t'' : Traced σ ς} {l l' : Nat → List (Request ς)} {k : Option Nat} {q : List (Request ς)}

theorem told_nil : told k ([] : List (Request ς)) = fun _ => [] := by
  funext j
  simp [told]

theorem told_append (q' : List (Request ς)) (j : Nat) : told k q j ++ told k q' j = told k (q ++ q') j := by
  unfold told
  split <;> rfl

theorem Asks.refl (t : Traced σ ς) : Asks t t fun _ => [] := ⟨rfl, fun _ => (List.append_nil _).symm⟩

theorem Asks.trans (h : Asks t t' l) (h' : Asks t' t'' l') : Asks t t'' fun j => l j ++ l' j := by
  refine ⟨h'.begun.trans h.begun, fun j => ?_⟩
  rw [h'.asked, h.asked, List.append_assoc]

/-- The same resource was asked twice. -/
theorem Asks.append {q' : List (Request ς)} (h : Asks t t' (told k q)) (h' : Asks t' t'' (told k q')) :
    Asks t t'' (told k (q ++ q')) := by
  refine ⟨h'.begun.trans h.begun, fun j => ?_⟩
  rw [(h.trans h').asked, told_append]

theorem asks_note (k : Nat) (q : Except Failure α → Request ς) (op : Native σ α) (t : Traced σ ς) :
    Asks t (note k q op t).2 (told (some k) [q (op t.state).1]) := by
  refine ⟨rfl, fun j => ?_⟩
  unfold note told
  by_cases hj : j = k
  · subst hj
    simp
  · simp [hj, Ne.symm hj]

/-- An operation that ended in some way, as it was written down. -/
theorem asks_of_note {k : Nat} {q : Except Failure α → Request ς} {op : Native σ α} {r : Except Failure α}
    (hnote : note k q op t = (r, t')) : Asks t t' (told (some k) [q r]) := by
  have hasks := asks_note k q op t
  rw [hnote] at hasks
  rwa [show (op t.state).1 = r from congrArg Prod.fst hnote] at hasks

end Asks

end Traced

/-- The backend with what its resources are asked written down. The resources are numbered in the order in which
their transactions began. -/
def Backend.traced (b : Backend σ ρ ς) : Backend (Traced σ ς) (Nat × ρ) ς where
  key := b.key
  kind := b.kind
  capabilities := b.capabilities
  start d t := ((b.start d t.state).1.map (t.begun, ·),
    { t with state := (b.start d t.state).2, begun := t.begun + if (b.start d t.state).1.isOk then 1 else 0 })
  suspend r := Traced.note r.1 (fun a => .suspend a.isOk) (b.suspend r.2)
  resume r := Traced.note r.1 (fun a => .resume a.isOk) (b.resume r.2)
  commit r := Traced.note r.1 (fun a => .commit a.isOk) (b.commit r.2)
  rollback r := Traced.note r.1 (fun a => .rollback a.isOk) (b.rollback r.2)
  cleanup r := Traced.note r.1 (fun a => .cleanup a.isOk) (b.cleanup r.2)
  createSavepoint r := Traced.note r.1 (fun a => .create a.toOption) (b.createSavepoint r.2)
  rollbackToSavepoint r sp := Traced.note r.1 (fun a => .rollbackTo sp a.isOk) (b.rollbackToSavepoint r.2 sp)
  releaseSavepoint r sp := Traced.note r.1 (fun a => .release sp a.isOk) (b.releaseSavepoint r.2 sp)

/-- The manager with what its backend is asked written down. -/
def Manager.traced (m : Manager σ ρ ς) : Manager (Traced σ ς) (Nat × ρ) ς :=
  { backend := m.backend.traced, config := m.config }

/-- What is there without the trace. -/
def untraced : NativeView (Traced σ ς) σ (Nat × ρ) ρ := ⟨Traced.state, Prod.snd⟩

/-- The session after a client's own work: the state behind the trace and the clock become anything. -/
def elapseTraced (a : σ × Instant) (s : Session (Traced σ ς) ρ ς) : Session (Traced σ ς) ρ ς :=
  { s with native := { s.native with state := a.1 }, now := a.2 }

/-- Writing down what is asked changes nothing else. -/
theorem traced_mirrored (m : Manager σ ρ ς) : m.traced.Mirrored untraced m := by
  have hnote : ∀ {δ : Type} (k : Nat) (q : Except Failure δ → Request ς) (op : Native σ δ),
      Native.Mirrored Traced.state (Traced.note k q op) op := fun _ _ _ _ => rfl
  refine ⟨⟨rfl, rfl, rfl, fun d t => ?_, fun r => hnote _ _ _, fun r => hnote _ _ _, fun r => hnote _ _ _,
    fun r => hnote _ _ _, fun r => hnote _ _ _, fun r => hnote _ _ _, fun r sp => hnote _ _ _,
    fun r sp => hnote _ _ _⟩, rfl⟩
  show m.backend.start d t.state =
    (((m.backend.start d t.state).1.map (t.begun, ·)).map Prod.snd, (m.backend.start d t.state).2)
  rcases m.backend.start d t.state with ⟨_ | _, _⟩ <;> rfl

/-! ## Numbers -/

/-- A holder whose resource has its number. -/
def Session.Numbers (s : Session σ (Nat × ρ) ς) (h : HolderId) : Prop :=
  ∃ x, s.holder? h = some x ∧ x.resource.1 = h

theorem Session.Numbers.congr {s s' : Session σ (Nat × ρ) ς} {h : HolderId} (hh : s.Numbers h)
    (hres : (s'.holder? h).map Holder.resource = (s.holder? h).map Holder.resource) : s'.Numbers h := by
  obtain ⟨x, hx, hnumber⟩ := hh
  rw [hx] at hres
  obtain ⟨x', hx', hsame⟩ := Option.map_eq_some_iff.1 hres
  exact ⟨x', hx', hsame ▸ hnumber⟩

/-- Resources are numbered like their holders. -/
structure Tracked (s : Session (Traced σ ς) (Nat × ρ) ς) : Prop where
  count : s.holders.size = s.native.begun
  numbers : ∀ h x, s.holder? h = some x → x.resource.1 = h

theorem traced_untouched (b : Backend σ ρ ς) : b.traced.Untouched Traced.begun := by
  refine ⟨fun {d t f t'} hstart => ?_, fun _ _ => rfl, fun _ _ => rfl, fun _ _ => rfl⟩
  obtain ⟨hr, rfl⟩ := Prod.mk.inj hstart
  rcases hrun : (b.start d t.state).1 with f' | r
  · rfl
  · rw [hrun] at hr
    cases hr

theorem traced_start {b : Backend σ ρ ς} {d : Definition} {t t' : Traced σ ς} {r : Nat × ρ}
    (hstart : b.traced.start d t = (.ok r, t')) :
    r.1 = t.begun ∧ t'.begun = t.begun + 1 ∧ t'.asked = t.asked := by
  obtain ⟨hr, rfl⟩ := Prod.mk.inj hstart
  rcases hrun : (b.start d t.state).1 with f' | r'
  · rw [hrun] at hr
    cases hr
  · rw [hrun] at hr
    cases hr
    exact ⟨rfl, rfl, rfl⟩

theorem traced_start_failed {b : Backend σ ρ ς} {d : Definition} {t t' : Traced σ ς} {f : Failure}
    (hstart : b.traced.start d t = (.error f, t')) : Traced.Asks t t' fun _ => [] := by
  refine ⟨(traced_untouched b).failed hstart, fun k => ?_⟩
  obtain ⟨-, rfl⟩ := Prod.mk.inj hstart
  exact (List.append_nil _).symm

section Tracked

variable {m : Manager σ ρ ς} {c : ContextIndex} {s s' : Session (Traced σ ς) (Nat × ρ) ς}

theorem Tracked.congr (hs : Tracked s)
    (hres : ∀ h, (s'.holder? h).map Holder.resource = (s.holder? h).map Holder.resource)
    (hbegun : s'.native.begun = s.native.begun) : Tracked s' := by
  refine ⟨(holders_size_of_alike hres).trans (hs.count.trans hbegun.symm), fun h x' hx' => ?_⟩
  have heq := hres h
  rw [hx'] at heq
  obtain ⟨x, hx, hsame⟩ := Option.map_eq_some_iff.1 heq.symm
  rw [← hsame]
  exact hs.numbers h x hx

theorem Tracked.opened (hs : Tracked s) (d : Definition) {r : Except TransactionError StatusId}
    (ho : Opening m.traced c d s r s') : Tracked s' := by
  cases ho.outline (traced_untouched m.backend) with
  | failed halike hbegun => exact hs.congr halike.steady.holders hbegun
  | entered halike hbegun => exact hs.congr halike.steady.holders hbegun
  | @begun s₁ st x n halike hbegun hstart =>
    have hs₁ : Tracked s₁ := hs.congr halike.steady.holders hbegun
    obtain ⟨hnumber, hcount, -⟩ := traced_start hstart
    refine ⟨?_, fun h y hy => ?_⟩
    · have hsize := started_size s₁ c m.traced.backend.key x n
      have hold := hs₁.count
      show (s₁.started c m.traced.backend.key x n).holders.size = n.begun
      omega
    · rw [holder?_addStatus, holder?_started] at hy
      split at hy
      · rename_i hh
        obtain rfl := Option.some.inj hy
        exact hnumber.trans (hs₁.count.symm.trans hh.symm)
      · exact hs₁.numbers h y hy

end Tracked

/-! ## Opening a scope -/

/-- What an open scope still owes to a holder's transaction. -/
def Status.due (st : Status ς) (k : HolderId) : Option (Due ς) :=
  if st.suspended = some k then some .resumption
  else if st.holder = some k then st.savepoint.map .finish
  else none

theorem Status.due_eq_none {st : Status ς} {k : HolderId} (hsus : st.suspended = none) (hsp : st.savepoint = none) :
    st.due k = none := by
  unfold due
  rw [hsus, hsp]
  simp

section Opening

variable {m : Manager σ ρ ς} {c : ContextIndex} {d : Definition} {s s' : Session (Traced σ ς) (Nat × ρ) ς}
  {st : Status ς} {h : HolderId} {x : Holder (Nat × ρ)}

theorem Tracked.numbers_of_holder (hs : Tracked s) (hx : s.holder? h = some x) : s.Numbers h :=
  ⟨x, hx, hs.numbers h x hx⟩

/-- An operation on the resource of a holder, as it was written down. -/
theorem Session.Numbers.asks (hh : s.Numbers h) (hx : s.holder? h = some x) (q : Except Failure α → Request ς)
    {op : ρ → Native σ α} {r : Except Failure α} {t t' : Traced σ ς}
    (hnote : Traced.note x.resource.1 q (op x.resource.2) t = (r, t')) :
    Traced.Asks t t' (Traced.told (some h) [q r]) := by
  have hasks := Traced.asks_of_note hnote
  obtain ⟨x', hx', hnumber⟩ := hh
  obtain rfl := Option.some.inj (hx'.symm.trans hx)
  rwa [hnumber] at hasks

theorem Manager.Beginning.asks {e : TransactionError} (hb : Beginning m.traced c d s (.error e) s') :
    Traced.Asks s.native s'.native fun _ => [] := by
  cases hb with
  | refused => exact .refl _
  | failed hstart => exact traced_start_failed hstart

/-- Nothing stays due where a scope cannot be opened: only what was bound is asked something, and if it was suspended
it is resumed. -/
theorem Manager.Opening.asks_failed {e : TransactionError} (hs : Tracked s)
    (ho : Opening m.traced c d s (.error e) s') : ∃ l, Dialogue l ∧
      Traced.Asks s.native s'.native (Traced.told (s.bound c m.traced.backend.key) l) := by
  cases ho with
  | refused => exact ⟨[], .nil, Traced.told_nil ▸ .refl _⟩
  | beginFailed _ hbegin => exact ⟨[], .nil, Traced.told_nil ▸ hbegin.asks⟩
  | suspendFailed hb hx _ _ _ hn =>
    rw [hb]
    exact ⟨_, .notSuspended .nil, (hs.numbers_of_holder hx).asks hx (.suspend ·.isOk) hn⟩
  | savepointFailed hb hx _ _ _ _ _ hn =>
    rw [hb]
    exact ⟨_, .notSaved .nil, (hs.numbers_of_holder hx).asks hx (.create ·.toOption) hn⟩
  | @renewFailed h x n _ s₁ _ _ hb hx _ _ _ hn hbegin hres =>
    rw [hb]
    have hsuspend : Traced.Asks s.native n (Traced.told (some h) [.suspend true]) :=
      (hs.numbers_of_holder hx).asks hx (.suspend ·.isOk) hn
    have hfailed : Traced.Asks n s₁.native (Traced.told (some h) []) := Traced.told_nil ▸ hbegin.asks
    have hresume := (hs.numbers_of_holder hx).asks hx (.resume ·.isOk)
      (rfl : m.traced.backend.resume x.resource s₁.native = _)
    rw [resume_after_failure hx hbegin] at hres
    obtain ⟨-, rfl⟩ := Prod.mk.inj hres
    exact ⟨_, .suspended .nil, (hsuspend.append hfailed).append hresume⟩

theorem Manager.Beginning.asked (hb : Beginning m.traced c d s (.ok h) s') : s'.native.asked = s.native.asked := by
  cases hb with
  | begun _ _ hstart => exact (traced_start hstart).2.2

/-- Opening a scope asks that by which something becomes due to the transaction that it suspends, or nests in. -/
theorem Manager.Opening.asks {t : StatusId} (hs : Tracked s) (ho : Opening m.traced c d s (.ok t) s')
    (hst : s'.status? t = some st) (k : HolderId) :
    s'.native.asked k = s.native.asked k ++ ((st.due k).map Due.origin).toList := by
  cases ho with
  | untransacted | joined =>
    obtain rfl := status_of_added hst
    rw [Status.due_eq_none rfl rfl]
    exact (List.append_nil _).symm
  | begun _ _ hbegin =>
    obtain rfl := status_of_added hst
    rw [Status.due_eq_none rfl rfl]
    exact (congrFun hbegin.asked k).trans (List.append_nil _).symm
  | @detached h x n _ hx _ _ _ hn =>
    obtain rfl := status_of_added hst
    have hsuspend : Traced.Asks s.native n (Traced.told (some h) [.suspend true]) :=
      (hs.numbers_of_holder hx).asks hx (.suspend ·.isOk) hn
    refine (hsuspend.asked k).trans (congrArg _ ?_)
    unfold Traced.told Status.due
    split <;> rfl
  | @renewed h _ x n _ _ hx _ _ _ hn hbegin =>
    obtain rfl := status_of_added hst
    have hsuspend : Traced.Asks s.native n (Traced.told (some h) [.suspend true]) :=
      (hs.numbers_of_holder hx).asks hx (.suspend ·.isOk) hn
    refine (congrFun hbegin.asked k).trans ((hsuspend.asked k).trans (congrArg _ ?_))
    unfold Traced.told Status.due
    dsimp only
    split <;> simp [Due.origin]
  | @nested h x sp n _ hx _ _ _ _ _ hn =>
    obtain rfl := status_of_added hst
    have hcreate : Traced.Asks s.native n (Traced.told (some h) [.create (some sp)]) :=
      (hs.numbers_of_holder hx).asks hx (.create ·.toOption) hn
    refine (hcreate.asked k).trans (congrArg _ ?_)
    unfold Traced.told Status.due
    dsimp only
    split <;> simp [Due.origin]

end Opening

/-! ## Completing a scope -/

/-- What the work of a scope asks when it ends: a savepoint is finished, an owner completes the transaction, and a
participant asks nothing. -/
inductive Status.Works (st : Status ς) : List (Request ς) → Prop
  | nested {sp : ς} {fin : List (Request ς)} : st.savepoint = some sp → Finish sp fin → st.Works fin
  | owner {completion : List (Request ς)} : st.savepoint = none → st.newTransaction = true →
    Completion completion → st.Works completion
  | participant : st.savepoint = none → st.newTransaction = false → st.Works []

section Completing

variable {m : Manager σ ρ ς} {c : ContextIndex} {commit : Bool} {s s' : Session (Traced σ ς) (Nat × ρ) ς}
  {st : Status ς}

/-- An operation on the resource of the holder, if there is one, as it was written down. -/
theorem applied_asks {o : Option HolderId} (hheld : ∀ h, o = some h → s.Numbers h)
    (q : Except Failure Unit → Request ς) (op : ρ → Native σ Unit) {r : Except Failure Unit} {t : Traced σ ς}
    (happ : s.applied o (fun r => Traced.note r.1 q (op r.2)) = (r, t)) :
    Traced.Asks s.native t (Traced.told o [q r]) := by
  cases o with
  | none =>
    obtain ⟨-, rfl⟩ := Prod.mk.inj happ
    exact .refl _
  | some h =>
    obtain ⟨x, hx, -⟩ := hheld h rfl
    rw [applied_of_holder hx] at happ
    exact (hheld h rfl).asks hx q happ

theorem Manager.Working.asks {state : TransactionState} {outcome : Except TransactionError Unit}
    (hw : Working m.traced commit st s state outcome s') (hheld : ∀ h, st.holder = some h → s.Numbers h) :
    ∃ l, st.Works l ∧ Traced.Asks s.native s'.native (Traced.told st.holder l) := by
  cases hw with
  | kept _ hsp hnew | unmarked _ hsp hnew =>
    exact ⟨[], .participant hsp hnew, Traced.told_nil ▸ .refl _⟩
  | marked _ hsp hnew =>
    refine ⟨[], .participant hsp hnew, ?_⟩
    rw [Traced.told_nil, native_modifyHolderOf]
    exact .refl _
  | @savepointReleased sp _ _ _ hsp happ =>
    exact ⟨_, .nested hsp .released, applied_asks hheld (.release sp ·.isOk) (m.backend.releaseSavepoint · sp) happ⟩
  | committed _ hsp hnew happ | commitFailed _ hsp hnew happ =>
    exact ⟨_, .owner hsp hnew .committed, applied_asks hheld (.commit ·.isOk) m.backend.commit happ⟩
  | @commitUndone _ n _ _ _ hsp hnew happ _ hundo =>
    have hcommit := applied_asks hheld (.commit ·.isOk) m.backend.commit happ
    have hrollback := applied_asks (s := s.withNative n) hheld (.rollback ·.isOk) m.backend.rollback hundo
    exact ⟨_, .owner hsp hnew .undone, hcommit.append hrollback⟩
  | @returnFailed sp _ _ _ hsp happ =>
    exact ⟨_, .nested hsp .kept, applied_asks hheld (.rollbackTo sp ·.isOk) (m.backend.rollbackToSavepoint · sp) happ⟩
  | @returned sp n _ _ _ hsp happ hrelease =>
    have hreset : Steady (s.withNative n) ((s.withNative n).modifyHolderOf st Holder.resetRollbackOnly) :=
      .modifyHolderOf _ st fun _ => rfl
    have hreturn := applied_asks hheld (.rollbackTo sp ·.isOk) (m.backend.rollbackToSavepoint · sp) happ
    have hfinish := applied_asks (fun h hh => (hheld h hh).congr (hreset.holders h)) (.release sp ·.isOk)
      (m.backend.releaseSavepoint · sp) hrelease
    rw [native_modifyHolderOf] at hfinish
    exact ⟨_, .nested hsp .returned, hreturn.append hfinish⟩
  | undone _ hsp hnew happ =>
    exact ⟨_, .owner hsp hnew .rolledBack, applied_asks hheld (.rollback ·.isOk) m.backend.rollback happ⟩

theorem Manager.Releasing.asks {r : Except TransactionError Unit} (hr : Releasing m.traced c st s r s')
    (hheld : ∀ h, st.holder = some h → s.Numbers h) : ∃ ok, Traced.Asks s.native s'.native
      (Traced.told st.holder (if st.newTransaction then [.cleanup ok] else [])) := by
  cases hr with
  | nothing hh => exact ⟨true, hh ▸ .refl _⟩
  | reference _ hnew =>
    refine ⟨true, ?_⟩
    rw [hnew, if_neg (by simp), Traced.told_nil]
    exact .refl _
  | @transaction h _ s₁ r₂ n hh hnew hun happ =>
    have hsteady : Steady s (s₁.modifyHolder h giveUp) :=
      ((Alike.purge s c _).trans hun.alike).trans (.modifyHolder s₁ h fun _ => rfl)
    have hnative : (s₁.modifyHolder h giveUp).native = s.native := hun.native.trans (native_purge s c _)
    have hcleanup := applied_asks (fun k hk => (hheld k (hh.trans hk)).congr (hsteady.holders k)) (.cleanup ·.isOk)
      m.backend.cleanup happ
    rw [hnative] at hcleanup
    refine ⟨r₂.isOk, ?_⟩
    rw [hnew, if_pos rfl, hh]
    exact hcleanup

theorem Manager.Resuming.asks {t : StatusId} {r : Except TransactionError Unit}
    (hr : Resuming m.traced c t st s r s') (hheld : ∀ h, st.suspended = some h → s.Numbers h)
    (hfree : ∀ h, st.suspended = some h → s.bound c m.traced.backend.key = none) :
    ∃ ok, Traced.Asks s.native s'.native (Traced.told st.suspended [.resume ok]) := by
  cases hr with
  | nothing hs => exact ⟨true, hs ▸ .refl _⟩
  | @refused h _ hs hbind =>
    -- nothing is bound, so that binding again cannot be refused
    have hbound : (s.takeSuspended t).bound c m.traced.backend.key = none := hfree h hs
    rw [bind_unbound hbound] at hbind
    cases hbind
  | @resumed h r n hs happ =>
    have hsteady : Steady (s.takeSuspended t) ((s.takeSuspended t).attach c m.traced.backend.key h) :=
      .attach _ c _ h fun _ => rfl
    have hresume := applied_asks (fun k hk => (hheld k (hs.trans hk)).congr (hsteady.holders k)) (.resume ·.isOk)
      m.backend.resume happ
    exact ⟨r.isOk, hs ▸ hresume⟩

end Completing

end Demarcation
