/-
How a scope is opened: every way in which `getTransaction` can end, with the session that it
leaves. What is proved of opening scopes is proved from these cases.
-/
import Demarcation.Proofs.Session
import Demarcation.Manager

namespace Demarcation

namespace Session

variable {σ ρ ς : Type}

/-- The session with a holder's transaction detached from a context. -/
def detach (s : Session σ ρ ς) (c : ContextIndex) (key : ResourceKey) (h : HolderId) : Session σ ρ ς :=
  (s.dropBinding c key).modifyHolder h (·.setSuspended true)

/-- The session with a holder's transaction attached to a context again. -/
def attach (s : Session σ ρ ς) (c : ContextIndex) (key : ResourceKey) (h : HolderId) : Session σ ρ ς :=
  (s.putBinding c key h).modifyHolder h (·.setSuspended false)

section Attachment

variable (s : Session σ ρ ς) (c c' : ContextIndex) (key k : ResourceKey) (h : HolderId)

theorem bound_detach :
    (s.detach c key h).bound c' k = if c' = c ∧ k = key then none else s.bound c' k := by
  unfold detach
  rw [bound_modifyHolder, bound_dropBinding]

theorem bound_attach (hc : c < s.registries.size) :
    (s.attach c key h).bound c' k = if c' = c ∧ k = key then some h else s.bound c' k := by
  unfold attach
  rw [bound_modifyHolder, bound_putBinding _ _ _ _ _ hc]

theorem bound_detach_self : (s.detach c key h).bound c key = none := by
  rw [bound_detach]; simp

@[simp] theorem detach_size : (s.detach c key h).registries.size = s.registries.size :=
  dropBinding_size s c key

@[simp] theorem attach_size : (s.attach c key h).registries.size = s.registries.size :=
  putBinding_size s c key h

end Attachment

/-- A native operation on the resource of a holder: its result, and the native state behind it.
Without a holder there is nothing to do. -/
def applied (s : Session σ ρ ς) (h : Option HolderId) (op : ρ → Native σ Unit) :
    Except Failure Unit × σ :=
  match h.bind s.holder? with
  | none => (.ok (), s.native)
  | some x => op x.resource s.native

theorem applied_of_holder {s : Session σ ρ ς} {h : HolderId} {x : Holder ρ} (hx : s.holder? h = some x)
    (op : ρ → Native σ Unit) : s.applied (some h) op = op x.resource s.native := by
  simp [applied, hx]

theorem applied_of_missing {s : Session σ ρ ς} {h : HolderId} (hx : s.holder? h = none)
    (op : ρ → Native σ Unit) : s.applied (some h) op = (.ok (), s.native) := by
  simp [applied, hx]

end Session

namespace Manager

open Session

variable {σ ρ ς : Type} {m : Manager σ ρ ς} {c : ContextIndex} {d : Definition} {s : Session σ ρ ς}
  {h : HolderId} {x : Holder ρ}

/-! ## Native operations on the resource of a holder -/

theorem callOn_of_holder {α : Type} (hx : s.holder? h = some x) (op : ρ → Native σ α)
    (fault : Failure → TransactionError) :
    callOn h op fault s = (((op x.resource s.native).1.mapError fault).map some,
      s.withNative (op x.resource s.native).2) := by
  unfold callOn
  rw [attempt_bind, attempt_get]
  simp only [hx, attempt_map, attempt_adapt, call_apply]

/-- Only what the operation did natively and whether it failed is left of a native operation. -/
theorem callOn_unit (s : Session σ ρ ς) (h : HolderId) (op : ρ → Native σ Unit)
    (fault : Failure → TransactionError) :
    ∃ r, callOn h op fault s = (r, s.withNative (s.applied (some h) op).2) ∧
      (r.map fun _ => ()) = (s.applied (some h) op).1.mapError fault := by
  cases hx : s.holder? h with
  | none =>
    rw [applied_of_missing hx]
    exact ⟨.ok none, by simp [callOn, attempt_bind, hx, withNative], rfl⟩
  | some x =>
    rw [applied_of_holder hx]
    refine ⟨_, callOn_of_holder hx op fault, ?_⟩
    rcases op x.resource s.native with ⟨_ | _, n⟩ <;> rfl

/-! ## Suspending and resuming -/

theorem suspend_spec (hb : s.bound c m.backend.key = some h) (hx : s.holder? h = some x)
    (hl : x.cleared = false) (hk : x.kind = m.backend.kind) :
    (∃ n, m.backend.suspend x.resource s.native = (.ok (), n) ∧
      m.suspend c h s = (.ok (), (s.withNative n).detach c m.backend.key h)) ∨
    (∃ f n, m.backend.suspend x.resource s.native = (.error f, n) ∧
      m.suspend c h s = (.error (.systemFailed "could not suspend native transaction" f), s.withNative n)) := by
  have hcall := callOn_of_holder hx m.backend.suspend (.systemFailed "could not suspend native transaction")
  rcases hop : m.backend.suspend x.resource s.native with ⟨f | ⟨⟩, n⟩ <;> rw [hop] at hcall
  · exact .inr ⟨f, n, rfl, attempt_bind_error hcall⟩
  · refine .inl ⟨n, rfl, ?_⟩
    unfold suspend
    rw [attempt_bind_ok hcall]
    have hun : unbind c m.backend.kind m.backend.key (s.withNative n) =
        (.ok h, (s.withNative n).dropBinding c m.backend.key) := Session.unbind_live hb hx hl hk
    rw [attempt_bind, attempt_adapt, hun]
    rfl

theorem resume_spec (m : Manager σ ρ ς) (c : ContextIndex) (h : HolderId) (s : Session σ ρ ς) :
    (∃ e, bind c m.backend.key h s = (.error e, s) ∧ m.resume c h s = (.error (.registry e), s)) ∨
    (bind c m.backend.key h s = (.ok (), s.putBinding c m.backend.key h) ∧
      let s' := s.attach c m.backend.key h
      let r := s'.applied (some h) m.backend.resume
      m.resume c h s = (r.1.mapError (.systemFailed "could not resume native transaction"), s'.withNative r.2)) := by
  unfold resume
  rw [attempt_bind, attempt_adapt]
  rcases bind_spec s c m.backend.key h with hb | ⟨e, hb⟩
  · refine .inr ⟨hb, ?_⟩
    obtain ⟨r, hr, hu⟩ := callOn_unit (s.attach c m.backend.key h) h m.backend.resume
      (.systemFailed "could not resume native transaction")
    rw [hb]
    show (modify _ >>= fun _ => callOn h m.backend.resume _ >>= fun _ => pure ()) (s.putBinding c _ h) = _
    rw [attempt_bind, attempt_modify]
    show (callOn h m.backend.resume _ >>= fun _ => pure ()) (s.attach c m.backend.key h) = _
    rw [attempt_bind, hr, ← hu]
    cases r <;> rfl
  · exact .inl ⟨e, hb, by rw [hb]; rfl⟩

/-! ## Beginning -/

/-- The holder of a new transaction carries no marks. -/
theorem newHolder_fresh (m : Manager σ ρ ς) (d : Definition) (r : ρ) (timeout : Option Duration)
    (now : Instant) : let x := m.newHolder d r timeout now
    x.kind = m.backend.kind ∧ x.resource = r ∧ x.cleared = false ∧ x.suspended = false ∧
      x.rollbackOnly = false := by
  cases timeout <;> exact ⟨rfl, rfl, rfl, rfl, rfl⟩

/-- How beginning a transaction ends in a context that has none. -/
inductive Beginning (m : Manager σ ρ ς) (c : ContextIndex) (d : Definition) (s : Session σ ρ ς) :
    Except TransactionError HolderId → Session σ ρ ς → Prop
  /-- The backend lacks what the definition asks for. -/
  | refused (e : TransactionError) : Beginning m c d s (.error e) s
  | failed {timeout : Option Duration} {f : Failure} {n : σ} : m.backend.start d s.native = (.error f, n) →
    (d.isolation = .unspecified ∨ m.backend.capabilities.isolation = true) → m.timeoutOf d = .ok timeout →
    Beginning m c d s (.error (.creationFailed "could not begin native transaction" f)) (s.withNative n)
  | begun {timeout : Option Duration} {r : ρ} {n : σ} :
    (d.isolation = .unspecified ∨ m.backend.capabilities.isolation = true) →
    m.timeoutOf d = .ok timeout → m.backend.start d s.native = (.ok r, n) →
    Beginning m c d s (.ok s.holders.size)
      (((s.withNative n).addHolder (m.newHolder d r timeout s.now)).2.putBinding c m.backend.key
        s.holders.size)

/-- Beginning, where the new holder can be bound. -/
theorem begin_eq (hbind : ∀ (n : σ) (x : Holder ρ),
      bind c m.backend.key s.holders.size ((s.withNative n).addHolder x).2 =
        (.ok (), ((s.withNative n).addHolder x).2.putBinding c m.backend.key s.holders.size)) :
    m.begin c d s =
      if d.isolation ≠ .unspecified ∧ !m.backend.capabilities.isolation then
        (.error (.isolationMissing d.isolation), s)
      else match m.timeoutOf d with
        | .error e => (.error e, s)
        | .ok timeout => match m.backend.start d s.native with
          | (.error f, n) => (.error (.creationFailed "could not begin native transaction" f), s.withNative n)
          | (.ok r, n) => (.ok s.holders.size,
            ((s.withNative n).addHolder (m.newHolder d r timeout s.now)).2.putBinding c m.backend.key
              s.holders.size) := by
  unfold Manager.begin
  by_cases hi : d.isolation ≠ .unspecified ∧ !m.backend.capabilities.isolation
  · rw [if_pos hi, if_pos hi]
    exact attempt_bind_error rfl
  rw [if_neg hi, if_neg hi]
  dsimp only
  cases ht : m.timeoutOf d with
  | error e => exact attempt_bind_error rfl
  | ok timeout =>
    refine (attempt_bind_ok (show begin.liftExcept (.ok timeout) s = (.ok timeout, s) from rfl)).trans ?_
    rw [attempt_bind, attempt_adapt, call_apply]
    rcases m.backend.start d s.native with ⟨f | r, n⟩
    · rfl
    · have hbound := hbind n (m.newHolder d r timeout s.now)
      simp only [mapError_ok]
      rw [attempt_bind, attempt_modifyGet]
      dsimp only
      exact (attempt_bind_ok (congrArg (fun p => (Except.ok p.1, p.2)) hbound)).trans rfl

theorem begin_spec (m : Manager σ ρ ς) (d : Definition) (hb : s.bound c m.backend.key = none) :
    ∃ r s', m.begin c d s = (r, s') ∧ Beginning m c d s r s' := by
  rw [begin_eq fun n x => bind_unbound (show ((s.withNative n).addHolder x).2.bound c m.backend.key = none from hb) _]
  by_cases hi : d.isolation ≠ .unspecified ∧ !m.backend.capabilities.isolation
  · rw [if_pos hi]
    exact ⟨_, _, rfl, .refused _⟩
  have hiso : d.isolation = .unspecified ∨ m.backend.capabilities.isolation = true := by
    by_cases hd : d.isolation = .unspecified
    · exact .inl hd
    · right; simpa [hd] using hi
  rw [if_neg hi]
  cases ht : m.timeoutOf d with
  | error e => exact ⟨_, _, rfl, .refused _⟩
  | ok timeout =>
    dsimp only
    rcases hop : m.backend.start d s.native with ⟨f | r, n⟩
    · exact ⟨_, _, rfl, .failed hop hiso ht⟩
    · exact ⟨_, _, rfl, .begun hiso ht hop⟩

/-! ## Opening -/

/-- How opening a scope ends in a context in which no void holder is bound. -/
inductive Opening (m : Manager σ ρ ς) (c : ContextIndex) (d : Definition) (s : Session σ ρ ς) :
    Except TransactionError StatusId → Session σ ρ ς → Prop
  /-- Nothing was tried: the definition does not fit what is bound or what is allowed. -/
  | refused (e : TransactionError) : Opening m c d s (.error e) s
  | untransacted : s.bound c m.backend.key = none →
    d.propagation = .supports ∨ d.propagation = .notSupported ∨ d.propagation = .never →
    Opening m c d s (.ok s.statuses.size) (s.addStatus { definition := d }).2
  | beginFailed {e : TransactionError} {s' : Session σ ρ ς} : s.bound c m.backend.key = none →
    Beginning m c d s (.error e) s' → Opening m c d s (.error e) s'
  | begun {h : HolderId} {s' : Session σ ρ ς} : s.bound c m.backend.key = none →
    d.propagation = .required ∨ d.propagation = .requiresNew ∨ d.propagation = .nested →
    Beginning m c d s (.ok h) s' →
    Opening m c d s (.ok s'.statuses.size)
      (s'.addStatus { definition := d, holder := some h, newTransaction := true }).2
  | suspendFailed {h : HolderId} {x : Holder ρ} {f : Failure} {n : σ} : s.bound c m.backend.key = some h →
    s.holder? h = some x → x.cleared = false → x.kind = m.backend.kind →
    d.propagation = .notSupported ∨ d.propagation = .requiresNew →
    m.backend.suspend x.resource s.native = (.error f, n) →
    Opening m c d s (.error (.systemFailed "could not suspend native transaction" f)) (s.withNative n)
  | detached {h : HolderId} {x : Holder ρ} {n : σ} : s.bound c m.backend.key = some h →
    s.holder? h = some x → x.cleared = false → x.kind = m.backend.kind → d.propagation = .notSupported →
    m.backend.suspend x.resource s.native = (.ok (), n) →
    Opening m c d s (.ok s.statuses.size)
      (((s.withNative n).detach c m.backend.key h).addStatus { definition := d, suspended := some h }).2
  | renewed {h h' : HolderId} {x : Holder ρ} {n : σ} {s' : Session σ ρ ς} :
    s.bound c m.backend.key = some h → s.holder? h = some x → x.cleared = false →
    x.kind = m.backend.kind → d.propagation = .requiresNew →
    m.backend.suspend x.resource s.native = (.ok (), n) →
    Beginning m c d ((s.withNative n).detach c m.backend.key h) (.ok h') s' →
    Opening m c d s (.ok s'.statuses.size)
      (s'.addStatus { definition := d, holder := some h', newTransaction := true, suspended := some h }).2
  | renewFailed {h : HolderId} {x : Holder ρ} {n : σ} {e : TransactionError} {s' s'' : Session σ ρ ς}
    {r : Except TransactionError Unit} : s.bound c m.backend.key = some h → s.holder? h = some x →
    x.cleared = false → x.kind = m.backend.kind → d.propagation = .requiresNew →
    m.backend.suspend x.resource s.native = (.ok (), n) →
    Beginning m c d ((s.withNative n).detach c m.backend.key h) (.error e) s' →
    m.resume c h s' = (r, s'') →
    Opening m c d s (.error (match r with | .ok () => e | .error e' => e')) s''
  | savepointFailed {h : HolderId} {x : Holder ρ} {f : Failure} {n : σ} :
    s.bound c m.backend.key = some h → s.holder? h = some x → x.cleared = false →
    x.kind = m.backend.kind → d.propagation = .nested → m.config.nestedTransactionAllowed = true →
    m.backend.capabilities.savepoints = true →
    m.backend.createSavepoint x.resource s.native = (.error f, n) →
    Opening m c d s (.error (.creationFailed "could not create savepoint for nested transaction" f))
      (s.withNative n)
  | nested {h : HolderId} {x : Holder ρ} {sp : ς} {n : σ} : s.bound c m.backend.key = some h →
    s.holder? h = some x → x.cleared = false → x.kind = m.backend.kind → d.propagation = .nested →
    m.config.nestedTransactionAllowed = true → m.backend.capabilities.savepoints = true →
    m.backend.createSavepoint x.resource s.native = (.ok sp, n) →
    Opening m c d s (.ok s.statuses.size)
      (((s.withNative n).modifyHolder h Holder.requested).addStatus
        { definition := d, holder := some h, savepoint := some sp }).2
  | joined {h : HolderId} {x : Holder ρ} : s.bound c m.backend.key = some h → s.holder? h = some x →
    x.cleared = false → x.kind = m.backend.kind →
    d.propagation = .required ∨ d.propagation = .supports ∨ d.propagation = .mandatory →
    Opening m c d s (.ok s.statuses.size)
      ((s.modifyHolder h Holder.requested).addStatus { definition := d, holder := some h }).2

theorem startTransaction_free (m : Manager σ ρ ς) (d : Definition) (hb : s.bound c m.backend.key = none)
    (suspended : Option HolderId) :
    (∃ h s', Beginning m c d s (.ok h) s' ∧ m.startTransaction c d suspended s =
      (.ok s'.statuses.size,
        (s'.addStatus { definition := d, holder := some h, newTransaction := true, suspended }).2)) ∨
    (∃ e s', Beginning m c d s (.error e) s' ∧ m.startTransaction c d suspended s =
      match suspended with
      | none => (.error e, s')
      | some h => (.error (match (m.resume c h s').1 with | .ok () => e | .error e' => e'),
          (m.resume c h s').2)) := by
  obtain ⟨r, s', hrun, hbegin⟩ := begin_spec m d hb
  unfold startTransaction
  have hobs : (observe (m.begin c d) : Attempt σ ρ ς TransactionError _) s = (.ok r, s') := by
    rw [observe_apply, hrun]
  rw [attempt_bind_ok hobs]
  cases r with
  | ok h => exact .inl ⟨h, s', hbegin, rfl⟩
  | error e =>
    refine .inr ⟨e, s', hbegin, ?_⟩
    cases suspended with
    | none => rfl
    | some h =>
      dsimp only
      rw [attempt_bind]
      rcases m.resume c h s' with ⟨e' | ⟨⟩, s''⟩ <;> rfl

theorem enterExisting_spec (d : Definition) (hb : s.bound c m.backend.key = some h)
    (hx : s.holder? h = some x) (hl : x.cleared = false) (hk : x.kind = m.backend.kind) :
    ∃ r s', m.enterExisting c d h s = (r, s') ∧ Opening m c d s r s' := by
  unfold enterExisting
  cases hp : d.propagation with
  | never => exact ⟨_, _, rfl, .refused _⟩
  | notSupported =>
    rcases suspend_spec hb hx hl hk with ⟨n, hn, hs⟩ | ⟨f, n, hn, hs⟩
    · exact ⟨_, _, attempt_bind_ok hs, .detached hb hx hl hk hp hn⟩
    · exact ⟨_, _, attempt_bind_error hs, .suspendFailed hb hx hl hk (.inl hp) hn⟩
  | requiresNew =>
    rcases suspend_spec hb hx hl hk with ⟨n, hn, hs⟩ | ⟨f, n, hn, hs⟩
    · rcases startTransaction_free m d (bound_detach_self (s.withNative n) c m.backend.key h) (some h) with
        ⟨h', s', hbegin, hst⟩ | ⟨e, s', hbegin, hst⟩
      · exact ⟨_, _, (attempt_bind_ok hs).trans hst, .renewed hb hx hl hk hp hn hbegin⟩
      · exact ⟨_, _, (attempt_bind_ok hs).trans hst, .renewFailed hb hx hl hk hp hn hbegin rfl⟩
    · exact ⟨_, _, attempt_bind_error hs, .suspendFailed hb hx hl hk (.inr hp) hn⟩
  | nested =>
    cases hna : m.config.nestedTransactionAllowed with
    | false => exact ⟨_, _, rfl, .refused _⟩
    | true =>
      cases hsp : m.backend.capabilities.savepoints with
      | false => exact ⟨_, _, rfl, .refused _⟩
      | true =>
        have hcall := callOn_of_holder hx m.backend.createSavepoint
          (.creationFailed "could not create savepoint for nested transaction")
        rcases hop : m.backend.createSavepoint x.resource s.native with ⟨f | sp, n⟩ <;> rw [hop] at hcall
        · exact ⟨_, _, attempt_bind_error hcall, .savepointFailed hb hx hl hk hp hna hsp hop⟩
        · exact ⟨_, _, attempt_bind_ok hcall, .nested hb hx hl hk hp hna hsp hop⟩
  | required | supports | mandatory =>
    have hj : Opening m c d s (.ok s.statuses.size)
        ((s.modifyHolder h Holder.requested).addStatus { definition := d, holder := some h }).2 :=
      .joined hb hx hl hk (by simp [hp])
    -- joining is refused only where the definition is checked and does not fit
    cases m.config.validateExistingTransaction with
    | false => exact ⟨_, _, rfl, hj⟩
    | true =>
      dsimp only
      rw [if_pos rfl, attempt_bind, attempt_get]
      dsimp only
      rw [hx]
      dsimp only [Option.map_some]
      cases validateExisting d x with
      | error e => exact ⟨_, _, rfl, .refused e⟩
      | ok u => exact ⟨_, _, rfl, hj⟩

theorem getTransaction_spec (m : Manager σ ρ ς) (c : ContextIndex) (d : Definition) (s : Session σ ρ ς) :
    ∃ r s', m.getTransaction c d s = (r, s') ∧ Opening m c d (s.purge c m.backend.key) r s' := by
  obtain ⟨r, hfind, hlook⟩ := find_spec s c m.backend.kind m.backend.key
  have hcur : m.currentHolder c s = (r.mapError .registry, s.purge c m.backend.key) := by
    unfold currentHolder
    rw [attempt_adapt, hfind]
  unfold getTransaction
  cases hlook with
  | foreign e => exact ⟨_, _, attempt_bind_error hcur, .refused _⟩
  | live hb hx hl hk =>
    obtain ⟨r, s', hrun, hopen⟩ := enterExisting_spec d hb hx hl hk
    exact ⟨r, s', (attempt_bind_ok hcur).trans hrun, hopen⟩
  | unbound hb =>
    rw [attempt_bind_ok hcur]
    dsimp only
    cases hp : d.propagation with
    | mandatory => exact ⟨_, _, rfl, .refused _⟩
    | required | requiresNew | nested =>
      rcases startTransaction_free m d hb none with ⟨h, s', hbegin, hst⟩ | ⟨e, s', hbegin, hst⟩
      · exact ⟨_, _, hst, .begun hb (by simp [hp]) hbegin⟩
      · exact ⟨_, _, hst, .beginFailed hb hbegin⟩
    | supports | notSupported | never => exact ⟨_, _, rfl, .untransacted hb (by simp [hp])⟩

end Manager

end Demarcation
