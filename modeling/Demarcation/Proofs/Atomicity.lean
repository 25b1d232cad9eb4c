/-
A scope that could not be opened leaves no trace. Whatever failed on the way, the bindings, the holders and
the statuses are those from before, no transaction has begun and no savepoint was taken, and a transaction
that was suspended has been resumed.
-/
import Demarcation.Proofs.Placement
import Demarcation.Proofs.Recording
import Demarcation.Store

namespace Demarcation

open Session Manager

variable {σ ρ ς α : Type}

/-! ## Sessions put back -/

section Back

variable {s : Session σ ρ ς} {h : HolderId} {x : Holder ρ}

/-- A holder that was attached is as before when it is detached and attached again. -/
theorem reattached_holders (hx : s.holder? h = some x) (hoff : x.suspended = false) :
    (s.holders.modify h (·.setSuspended true)).modify h (·.setSuspended false) = s.holders := by
  refine Array.ext_getElem? fun i => ?_
  rw [Array.getElem?_modify, Array.getElem?_modify]
  split
  · rename_i hi
    subst hi
    rw [show s.holders[h]? = some x from hx, Option.map_some, Option.map_some]
    cases x
    cases hoff
    rfl
  · rfl

end Back

/-! ## What is asked of the backend -/

/-- What is asked of a backend while a scope is not opened: nothing, or one thing that fails. If a
transaction was suspended for the scope, it is resumed behind whatever was tried. -/
inductive Unopened : List NativeCall → Prop
  | refused : Unopened []
  | failed {p : Primitive} {n : Nat} : p = .begin ∨ p = .suspend ∨ p = .createSavepoint →
    Unopened [⟨p, n, false⟩]
  | resumed {n : Nat} {tried : List NativeCall} {ok : Bool} :
    (tried = [] ∨ ∃ k, tried = [⟨.begin, k, false⟩]) →
    Unopened (⟨.suspend, n, true⟩ :: (tried ++ [⟨.resume, n, ok⟩]))

/-- A transaction is suspended for a scope that is to begin another one, and then beginning fails. The
holder is bound again before it is resumed natively, and the error is that of resuming if resuming fails,
or else that of beginning. -/
def Manager.Restores (m : Manager σ ρ ς) (c : ContextIndex) (d : Definition) (h : HolderId) (x : Holder ρ)
    (s : Session σ ρ ς) (e : TransactionError) (s' : Session σ ρ ς) : Prop :=
  let gone := (s.withNative (m.backend.suspend x.resource s.native).2).detach c m.backend.key h
  let tried := m.begin c d gone
  let back := tried.2.attach c m.backend.key h
  let resumed := m.backend.resume x.resource back.native
  ∃ e₀, tried.1 = .error e₀ ∧ back.bound c m.backend.key = some h ∧ s' = back.withNative resumed.2 ∧
    e = match resumed.1 with
      | .ok () => e₀
      | .error f => .systemFailed "could not resume native transaction" f

section Opening

variable {m : Manager σ ρ ς} {c : ContextIndex} {d : Definition} {s s' : Session σ ρ ς} {h : HolderId}
  {x : Holder ρ} {e : TransactionError}

theorem currentHolder_live (hb : s.bound c m.backend.key = some h) (hx : s.holder? h = some x)
    (hl : x.cleared = false) (hk : x.kind = m.backend.kind) : m.currentHolder c s = (.ok (some h), s) := by
  obtain ⟨r, hfind, hlook⟩ := find_spec s c m.backend.kind m.backend.key
  rw [purge_of_live hb hx hl] at hfind hlook
  unfold currentHolder
  rw [attempt_adapt, hfind]
  cases hlook with
  | unbound hnone => rw [hb] at hnone; cases hnone
  | live hb' =>
    obtain rfl := Option.some.inj (hb'.symm.trans hb)
    rfl
  | foreign _ hb' hx' _ hne =>
    obtain rfl := Option.some.inj (hb'.symm.trans hb)
    obtain rfl := Option.some.inj (hx'.symm.trans hx)
    exact absurd hk hne

/-- Beginning has failed after a holder was detached: the holder can be bound again, and it is resumed on
its own resource. -/
theorem resume_after_failure {n : σ} {e₀ : TransactionError} {s₁ : Session σ ρ ς} (hx : s.holder? h = some x)
    (hbegin : Beginning m c d ((s.withNative n).detach c m.backend.key h) (.error e₀) s₁) :
    m.resume c h s₁ = ((m.backend.resume x.resource s₁.native).1.mapError
        (.systemFailed "could not resume native transaction"),
      (s₁.attach c m.backend.key h).withNative (m.backend.resume x.resource s₁.native).2) := by
  have hfree : s₁.bound c m.backend.key = none := by
    rw [hbegin.quiet.bound, bound_detach_self]
  have hgone : ((s.withNative n).detach c m.backend.key h).holder? h = some (x.setSuspended true) := by
    rw [Session.detach, holder?_modifyHolder, if_pos rfl, holder?_dropBinding, holder?_withNative, hx]
    rfl
  have hheld : s₁.holder? h = some (x.setSuspended true) := by
    cases hbegin with
    | refused | failed => exact hgone
  have hback : (s₁.attach c m.backend.key h).holder? h = some ((x.setSuspended true).setSuspended false) := by
    rw [Session.attach, holder?_modifyHolder, if_pos rfl, holder?_putBinding, hheld]
    rfl
  rcases resume_spec m c h s₁ with ⟨_, hbind, _⟩ | ⟨_, hrun⟩
  · rw [bind_unbound hfree] at hbind; cases hbind
  · rw [hrun, applied_of_holder hback]
    rfl

/-- Nothing is bound under the key while another transaction is begun, so that resuming can bind the older
one again. -/
theorem restores_of_renewal (hb : s.bound c m.backend.key = some h) (hx : s.holder? h = some x)
    (hl : x.cleared = false) (hk : x.kind = m.backend.kind) (hp : d.propagation = .requiresNew) {n : σ}
    (hn : m.backend.suspend x.resource s.native = (.ok (), n)) (hrun : m.getTransaction c d s = (.error e, s')) :
    m.Restores c d h x s e s' := by
  have hsuspend : m.suspend c h s = (.ok (), (s.withNative n).detach c m.backend.key h) := by
    rcases suspend_spec hb hx hl hk with ⟨n', hn', hs⟩ | ⟨f, n', hn', _⟩
    · cases hn.symm.trans hn'
      exact hs
    · cases hn.symm.trans hn'
  have hstart : m.startTransaction c d (some h) ((s.withNative n).detach c m.backend.key h) = (.error e, s') := by
    have henter : m.enterExisting c d h s =
        m.startTransaction c d (some h) ((s.withNative n).detach c m.backend.key h) := by
      unfold enterExisting
      rw [hp]
      exact attempt_bind_ok hsuspend
    have hopened : m.getTransaction c d s = m.enterExisting c d h s :=
      attempt_bind_ok (currentHolder_live hb hx hl hk)
    rw [← henter, ← hopened, hrun]
  have hfree : ((s.withNative n).detach c m.backend.key h).bound c m.backend.key = none := by
    rw [bound_detach_self]
  unfold startTransaction at hstart
  rw [attempt_bind, observe_apply] at hstart
  obtain ⟨r₀, s₁, hbegin, hbeginning⟩ := begin_spec m d hfree
  unfold Manager.Restores
  dsimp only
  rw [hn]
  dsimp only
  rw [hbegin] at hstart ⊢
  cases r₀ with
  | ok h' => cases hstart
  | error e₀ =>
    dsimp only at hstart ⊢
    have hctx : c < s₁.registries.size := by
      rw [hbeginning.quiet.registries, detach_size]
      exact registries_lt hb
    rw [attempt_bind, resume_after_failure hx hbeginning] at hstart
    refine ⟨e₀, rfl, ?_, ?_⟩
    · rw [bound_attach _ _ _ _ _ _ hctx, if_pos ⟨rfl, rfl⟩]
    · have hnative : (s₁.attach c m.backend.key h).native = s₁.native := rfl
      rw [hnative]
      rcases hresumed : m.backend.resume x.resource s₁.native with ⟨f | ⟨⟩, n'⟩ <;>
        rw [hresumed] at hstart <;> cases hstart <;> exact ⟨rfl, rfl⟩

/-- Whatever failed, the bindings, the holders and the statuses are as they were. -/
theorem Manager.Opening.undone (hplaced : Placed m.backend.key s) (ho : Opening m c d s (.error e) s') :
    (∀ c' k, s'.bound c' k = s.bound c' k) ∧ s'.holders = s.holders ∧ s'.statuses = s.statuses := by
  cases ho with
  | refused => exact ⟨fun _ _ => rfl, rfl, rfl⟩
  | beginFailed _ hbegin =>
    cases hbegin with
    | refused => exact ⟨fun _ _ => rfl, rfl, rfl⟩
    | failed => exact ⟨fun _ _ => rfl, rfl, rfl⟩
  | suspendFailed | savepointFailed => exact ⟨fun _ _ => rfl, rfl, rfl⟩
  | @renewFailed h x n e₀ s₁ s₂ r hb hx _ _ _ _ hbegin hres =>
    obtain ⟨-, rfl⟩ := Prod.mk.inj (hres.symm.trans (resume_after_failure hx hbegin))
    obtain ⟨hholders, hstatuses⟩ : s₁.holders = ((s.withNative n).detach c m.backend.key h).holders ∧
        s₁.statuses = s.statuses := by
      cases hbegin with
      | refused | failed => exact ⟨rfl, rfl⟩
    have hctx : c < s₁.registries.size := by
      rw [hbegin.quiet.registries, detach_size]
      exact registries_lt hb
    refine ⟨fun c' k => ?_, ?_, hstatuses⟩
    · rw [bound_withNative, bound_attach _ _ _ _ _ _ hctx, hbegin.quiet.bound, bound_detach]
      split
      · rename_i heq
        rw [heq.1, heq.2, hb]
      · rfl
    · show s₁.holders.modify h (·.setSuspended false) = s.holders
      rw [hholders]
      exact reattached_holders hx (hplaced.attached c h x hb hx)

end Opening

/-! ## What the record shows of a scope that was not opened -/

section Recorded

variable {m : Manager σ ρ ς} {c : ContextIndex} {d : Definition} {s s' : Session (Recorded σ) (Nat × ρ) ς}
  {e : TransactionError} {h : HolderId}

/-- A call that is written down, with whether it failed. -/
theorem calls_note {δ : Type} {p : Primitive} {n : Nat} {op : Native σ δ} {t t' : Recorded σ} {r : Except Failure δ}
    (hnote : Recorded.note p n op t = (r, t')) :
    t'.calls = t.calls ++ [⟨p, n, r.isOk⟩] ∧ t'.begun = t.begun := by
  cases hnote
  exact ⟨rfl, rfl⟩

theorem start_failed {b : Backend σ ρ ς} {t t' : Recorded σ} {f : Failure}
    (hstart : b.recorded.start d t = (.error f, t')) :
    t'.calls = t.calls ++ [⟨.begin, t.begun, false⟩] ∧ t'.begun = t.begun := by
  unfold Backend.recorded at hstart
  dsimp only at hstart
  rcases hrun : Recorded.note .begin t.begun (b.start d) t with ⟨f' | r, t''⟩ <;> rw [hrun] at hstart <;> cases hstart
  exact calls_note hrun

/-- A beginning that fails has asked for nothing, or has tried to begin. -/
theorem Manager.Beginning.tried (hb : Beginning m.recorded c d s (.error e) s') :
    ∃ tried, (tried = [] ∨ ∃ k, tried = [⟨.begin, k, false⟩]) ∧ s'.native.calls = s.native.calls ++ tried ∧
      s'.native.begun = s.native.begun := by
  cases hb with
  | refused => exact ⟨[], .inl rfl, (List.append_nil _).symm, rfl⟩
  | failed hstart =>
    obtain ⟨hcalls, hbegun⟩ := start_failed hstart
    exact ⟨_, .inr ⟨_, rfl⟩, hcalls, hbegun⟩

theorem Manager.Opening.unopened (ho : Opening m.recorded c d s (.error e) s') :
    ∃ asked, Unopened asked ∧ s'.native.calls = s.native.calls ++ asked ∧ s'.native.begun = s.native.begun ∧
      ∀ n, ⟨.suspend, n, true⟩ ∈ asked → d.propagation = .requiresNew ∧ ∃ h x t, s.bound c m.backend.key = some h ∧
        s.holder? h = some x ∧ x.cleared = false ∧ x.kind = m.backend.kind ∧ x.resource.1 = n ∧
        m.recorded.backend.suspend x.resource s.native = (.ok (), t) := by
  cases ho with
  | refused => exact ⟨[], .refused, (List.append_nil _).symm, rfl, nofun⟩
  | beginFailed _ hbegin =>
    obtain ⟨tried, htried, hcalls, hbegun⟩ := hbegin.tried
    rcases htried with rfl | ⟨k, rfl⟩
    · exact ⟨[], .refused, hcalls, hbegun, nofun⟩
    · refine ⟨_, .failed (.inl rfl), hcalls, hbegun, fun n hmem => ?_⟩
      rw [List.mem_singleton] at hmem
      cases hmem
  | suspendFailed _ _ _ _ _ hn =>
    obtain ⟨hcalls, hbegun⟩ := calls_note hn
    refine ⟨_, .failed (.inr (.inl rfl)), hcalls, hbegun, fun n hmem => ?_⟩
    rw [List.mem_singleton] at hmem
    cases hmem
  | savepointFailed _ _ _ _ _ _ _ hn =>
    obtain ⟨hcalls, hbegun⟩ := calls_note hn
    refine ⟨_, .failed (.inr (.inr rfl)), hcalls, hbegun, fun n hmem => ?_⟩
    rw [List.mem_singleton] at hmem
    cases hmem
  | @renewFailed h x t e₀ s₁ s₂ r hb hx hl hk hp hn hbegin hres =>
    obtain ⟨-, rfl⟩ := Prod.mk.inj (hres.symm.trans (resume_after_failure hx hbegin))
    -- suspending, what was tried, and resuming stand behind each other in the record
    obtain ⟨hsuspended, hbegun⟩ := calls_note hn
    obtain ⟨tried, htried, hcalls, hbegun'⟩ := hbegin.tried
    rcases hresume : m.recorded.backend.resume x.resource s₁.native with ⟨q, t'⟩
    obtain ⟨hresumed, hbegun''⟩ := calls_note hresume
    have hasked : Unopened (⟨.suspend, x.resource.1, true⟩ :: (tried ++ [⟨.resume, x.resource.1, q.isOk⟩])) :=
      .resumed htried
    refine ⟨_, hasked, ?_, ?_, fun n hmem => ?_⟩
    · show t'.calls = _
      rw [hresumed, hcalls, show ((s.withNative t).detach c m.recorded.backend.key h).native.calls = t.calls from rfl,
        hsuspended]
      simp [Except.isOk, Except.toBool]
    · exact (hbegun''.trans hbegun').trans hbegun
    · obtain rfl : n = x.resource.1 := by
        rcases List.mem_cons.1 hmem with heq | hmem
        · injection heq
        · rcases List.mem_append.1 hmem with hmem | hmem
          · rcases htried with rfl | ⟨k, rfl⟩
            · cases hmem
            · rw [List.mem_singleton] at hmem; cases hmem
          · rw [List.mem_singleton] at hmem; cases hmem
      exact ⟨hp, h, x, t, hb, hx, hl, hk, rfl, hn⟩

end Recorded

/-- Opening a scope is atomic on failure, for every manager, every order of calls, and whatever a client
does between them that binds and suspends nothing, from a session in which no scope was opened and nothing
is bound under the manager's key. If a scope cannot be opened, every key is bound to the same holder as
before, except that a void binding under the manager's key may be gone; every holder and every status is as
it was; no transaction has begun, and no savepoint was taken. A transaction that was suspended for the
scope was bound again and then resumed, once, and the error is that of resuming if that failed too. -/
theorem unopened_leaves_no_trace (m : Manager σ ρ ς)
    (act : α → Session (Recorded σ) (Nat × ρ) ς → Session (Recorded σ) (Nat × ρ) ς)
    (hact : ∀ a s, Eased m.backend.key s (act a s)) (s₀ : Session (Recorded σ) (Nat × ρ) ς)
    (hfree : ∀ c, s₀.bound c m.backend.key = none) (hstatuses : ∀ t, s₀.status? t = none)
    (calls : List (ManagerCall α)) (c : ContextIndex) (d : Definition) (e : TransactionError)
    (s' : Session (Recorded σ) (Nat × ρ) ς) :
    let s := m.recorded.calledAll act calls s₀
    m.recorded.getTransaction c d s = (.error e, s') →
    (∀ c' k, s'.bound c' k = s.bound c' k ∨ (c' = c ∧ k = m.backend.key ∧ s'.bound c' k = none ∧
      ∃ h, s.bound c' k = some h ∧ s.view.isVoid h = true)) ∧
    s'.holders = s.holders ∧ s'.statuses = s.statuses ∧ s'.native.begun = s.native.begun ∧
    ∃ asked, s'.native.calls = s.native.calls ++ asked ∧ Unopened asked ∧
      ∀ n, ⟨.suspend, n, true⟩ ∈ asked → ∃ h x, s.bound c m.backend.key = some h ∧ s.holder? h = some x ∧
        x.resource.1 = n ∧ m.recorded.Restores c d h x s e s' := by
  intro s hrun
  have hplaced : Placed m.recorded.backend.key s :=
    (Placed.start hfree hstatuses).calledAll (m := m.recorded) calls hact
  clear_value s
  obtain ⟨r, s₁, hrun', hopen⟩ := getTransaction_spec m.recorded c d s
  obtain ⟨rfl, rfl⟩ := Prod.mk.inj (hrun'.symm.trans hrun)
  obtain ⟨hbound, hholders, hsame⟩ := hopen.undone (hplaced.eased (.purge s c))
  obtain ⟨asked, hasked, hcalls, hbegun, hsuspended⟩ := hopen.unopened
  have hnative : (s.purge c m.recorded.backend.key).native = s.native := native_purge s c _
  rw [hnative] at hcalls hbegun
  refine ⟨fun c' k => ?_, hholders.trans (holders_purge s c _), ?_, hbegun, asked, hcalls, hasked, fun n hmem => ?_⟩
  · rw [hbound]
    exact bound_purge s c c' m.recorded.backend.key k
  · exact hsame.trans (Alike.purge (φ := Holder.resource) s c _).statuses
  · -- what was suspended was bound, so that the look-up had changed nothing
    obtain ⟨hp, h, x, t, hb, hx, hl, hk, hn, hsuspend⟩ := hsuspended n hmem
    have hpurge : s.purge c m.recorded.backend.key = s := purge_of_bound hb
    rw [show m.backend.key = m.recorded.backend.key from rfl] at hb
    rw [hpurge] at hb hx hsuspend
    exact ⟨h, x, hb, hx, hn, restores_of_renewal hb hx hl hk hp hsuspend hrun⟩

/-- A new transaction cannot begin after an older one was suspended for it: the older one is resumed. -/
theorem unopened_after_suspending :
    let m : Manager Store ConnectionId Savepoint := { backend := Store.backend ⟨7⟩ .all }
    let calls : List (ManagerCall (Store × Instant)) :=
      [.enter 0 { propagation := .required }, .act ({ key := ⟨7⟩, faults := [(.begin, 1)] }, 5)]
    let s := m.recorded.calledAll elapseRecorded calls (Session.ofContexts 1 { state := { key := ⟨7⟩ } })
    let d : Definition := { propagation := .requiresNew }
    let run := m.recorded.getTransaction 0 d s
    run.2.native.calls = s.native.calls ++ [⟨.suspend, 0, true⟩, ⟨.begin, 1, false⟩, ⟨.resume, 0, true⟩] ∧
      run.2.holders = s.holders ∧
      ∃ e x, run.1 = .error e ∧ s.holder? 0 = some x ∧ m.recorded.Restores 0 d 0 x s e run.2 := by
  intro m calls s d run
  have hcalls : run.2.native.calls =
      s.native.calls ++ [⟨.suspend, 0, true⟩, ⟨.begin, 1, false⟩, ⟨.resume, 0, true⟩] := by decide +kernel
  have hbound : s.bound 0 ⟨7⟩ = some 0 := by decide +kernel
  have hfailed : run.1.isOk = false := by decide +kernel
  obtain ⟨e, he⟩ : ∃ e, run.1 = .error e := by
    cases hr : run.1 with
    | ok t => rw [hr] at hfailed; cases hfailed
    | error e => exact ⟨e, rfl⟩
  obtain ⟨-, hholders, -, -, asked, hasked, -, hrestores⟩ := unopened_leaves_no_trace m elapseRecorded
    (fun a s => .of_quiet ⟨rfl, fun _ => rfl, fun _ => rfl⟩) (Session.ofContexts 1 { state := { key := ⟨7⟩ } })
    (fun c => bound_ofContexts 1 _ c ⟨7⟩) (fun _ => rfl) calls 0 d e run.2 (Prod.ext he rfl)
  obtain rfl : asked = [⟨.suspend, 0, true⟩, ⟨.begin, 1, false⟩, ⟨.resume, 0, true⟩] :=
    List.append_cancel_left (hasked.symm.trans hcalls)
  obtain ⟨h, x, hb, hx, -, hrestored⟩ := hrestores 0 (List.mem_cons_self ..)
  obtain rfl : 0 = h := Option.some.inj (hbound.symm.trans hb)
  exact ⟨hcalls, hholders, e, x, he, hx, hrestored⟩

end Demarcation
