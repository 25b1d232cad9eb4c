/-
Where the transactions of nested scopes are. Bindings, suspended tokens and flags change at different moments
of suspending and resuming, and native failures come in between. At the calls of a client, though, every
transaction that is under way is in one place: it is bound, or one open scope has it suspended.
-/
import Demarcation.Proofs.Atomicity
import Demarcation.Proofs.References
import Demarcation.Proofs.Sidelined

namespace Demarcation

open Session Manager

variable {σ ρ ς α : Type}

/-! ## Along the open scopes -/

section Links

variable {st : Status ς} {before bound : Option HolderId} {h : HolderId}

/-- What was bound before a scope was opened is still bound, or the scope suspends it. -/
theorem Link.passes (hl : Link st before bound) (hb : before = some h) : bound = some h ∨ st.suspended = some h := by
  cases hl with
  | owner _ _ hs => exact .inr (hs.trans hb)
  | joined => exact .inl hb
  | detached _ _ hs => exact .inr (hs.trans hb)
  | plain => cases hb

/-- What is bound inside a scope is its own transaction, or was bound before. -/
theorem Link.comes (hl : Link st before bound) (hb : bound = some h) :
    (st.newTransaction = true ∧ st.holder = some h) ∨ before = some h := by
  cases hl with
  | owner hh hnew => exact .inl ⟨hnew, hh.trans hb⟩
  | joined => exact .inr hb
  | detached | plain => cases hb

end Links

namespace StackedOn

variable {m : Manager σ ρ ς} {c : ContextIndex} {s : Session σ ρ ς} {base b : Option HolderId}
  {scopes : List (OpenScope σ ρ ς)} {h : HolderId} {x y : OpenScope σ ρ ς}

/-- A scope of the stack is open. -/
theorem opened (hs : StackedOn m c s base b scopes) (hx : x ∈ scopes) :
    ∃ st, s.status? x.status = some st ∧ st.isCompleted = false := by
  induction hs with
  | bottom => cases hx
  | scope hst hopen _ _ _ _ _ ih =>
    rcases List.mem_cons.1 hx with rfl | hx
    · exact ⟨_, hst, hopen⟩
    · exact ih hx

theorem before_of_suspends (hs : StackedOn m c s base b scopes) (hx : x ∈ scopes) (hsus : s.Suspends x.status h) :
    x.before m c = some h := by
  induction hs with
  | bottom => cases hx
  | scope hst _ _ hlink _ _ _ ih =>
    rcases List.mem_cons.1 hx with rfl | hx
    · obtain ⟨st, hst', hsus⟩ := hsus
      obtain rfl := Option.some.inj (hst.symm.trans hst')
      exact hlink.before_of_suspended hsus
    · exact ih hx

/-- No scope suspends what is bound. -/
theorem unsuspended (hs : StackedOn m c s base b scopes) (hb : b = some h) (hx : x ∈ scopes) :
    ¬ s.Suspends x.status h := by
  induction hs with
  | bottom => cases hx
  | @scope top rest bound st hst hopen hnew hlink hlive hfresh hrest ih =>
    intro hsus
    have hmem : some h ∈ (top :: rest).map (OpenScope.before · m c) := by
      rw [← before_of_suspends (.scope hst hopen hnew hlink hlive hfresh hrest) hx hsus]
      exact List.mem_map_of_mem hx
    generalize hbefore : top.before m c = before at hlink hrest ih
    cases hlink with
    | owner _ howner => exact hfresh howner (hb ▸ hmem)
    | joined _ _ hnone =>
      rcases List.mem_cons.1 hx with rfl | hx
      · obtain ⟨st', hst', hsus⟩ := hsus
        obtain rfl := Option.some.inj (hst.symm.trans hst')
        cases hnone.symm.trans hsus
      · exact ih hb hx hsus
    | detached | plain => cases hb

/-- No two scopes suspend the same. -/
theorem suspended_once (hs : StackedOn m c s base b scopes) (hx : x ∈ scopes) (hy : y ∈ scopes)
    (hsx : s.Suspends x.status h) (hsy : s.Suspends y.status h) : x.status = y.status := by
  induction hs with
  | bottom => cases hx
  | scope hst hopen hnew hlink hlive hfresh hrest ih =>
    have hall := StackedOn.scope hst hopen hnew hlink hlive hfresh hrest
    -- what the innermost of the two suspends was bound before it
    rcases List.mem_cons.1 hx with rfl | hx'
    · rcases List.mem_cons.1 hy with rfl | hy'
      · rfl
      · exact absurd hsy (hrest.unsuspended (hall.before_of_suspends hx hsx) hy')
    · rcases List.mem_cons.1 hy with rfl | hy'
      · exact absurd hsx (hrest.unsuspended (hall.before_of_suspends hy hsy) hx')
      · exact ih hx' hy'

/-- The transaction of an open scope is bound, or an open scope suspends it. -/
theorem located (hs : StackedOn m c s base b scopes) {st : Status ς} (hx : x ∈ scopes)
    (hst : s.status? x.status = some st) (hh : st.holder = some h) :
    b = some h ∨ ∃ y ∈ scopes, s.Suspends y.status h := by
  induction hs with
  | bottom => cases hx
  | @scope top rest _ st' hst' _ _ hlink _ _ _ ih =>
    rcases List.mem_cons.1 hx with rfl | hx
    · obtain rfl := Option.some.inj (hst'.symm.trans hst)
      exact .inl (hlink.bound_of_holder hh)
    · rcases ih hx with hbefore | ⟨y, hy, hsus⟩
      · rcases hlink.passes hbefore with hb | hsus
        · exact .inl hb
        · exact .inr ⟨top, List.mem_cons_self, st', hst', hsus⟩
      · exact .inr ⟨y, List.mem_cons_of_mem _ hy, hsus⟩

/-- What is bound began with an open scope, if nothing was bound before all of them. -/
theorem began (hs : StackedOn m c s base b scopes) (hbase : base = none) (hb : b = some h) :
    ∃ x ∈ scopes, s.owned? x.status = some h := by
  induction hs with
  | bottom => cases hbase.symm.trans hb
  | @scope top rest _ st hst _ _ hlink _ _ _ ih =>
    rcases hlink.comes hb with ⟨hnew, hh⟩ | hbefore
    · refine ⟨top, List.mem_cons_self, ?_⟩
      rw [Owned.owned?_eq hst, if_pos hnew, hh]
    · obtain ⟨x, hx, hown⟩ := ih hbefore
      exact ⟨x, List.mem_cons_of_mem _ hx, hown⟩

/-- What comes back with one of the scopes began with one of them. -/
theorem began_of_mem (hs : StackedOn m c s base b scopes) (hbase : base = none)
    (hmem : some h ∈ b :: scopes.map (OpenScope.before · m c)) : ∃ x ∈ scopes, s.owned? x.status = some h := by
  induction hs with
  | bottom =>
    obtain hb : some h = base := by simpa using hmem
    cases hb.trans hbase
  | scope hst hopen hout hlink hlive hfresh hrest ih =>
    rcases List.mem_cons.1 hmem with hb | hmem
    · exact began (.scope hst hopen hout hlink hlive hfresh hrest) hbase hb.symm
    · obtain ⟨x, hx, hown⟩ := ih hmem
      exact ⟨x, List.mem_cons_of_mem _ hx, hown⟩

theorem began_of_suspends (hs : StackedOn m c s base b scopes) (hbase : base = none) (hx : x ∈ scopes)
    (hsus : s.Suspends x.status h) : ∃ y ∈ scopes, s.owned? y.status = some h := by
  refine hs.began_of_mem hbase (List.mem_cons_of_mem _ ?_)
  rw [← hs.before_of_suspends hx hsus]
  exact List.mem_map_of_mem hx

end StackedOn

/-! ## What a call preserves -/

/-- What holds between two calls of a client that started without an open scope in the session `s₀`: of the scopes
that were opened since, those that are open are the ones of the nest, and what they suspend has its flag on. -/
structure Followed (m : Manager σ ρ ς) (c : ContextIndex) (s₀ : Session σ ρ ς) (n : Nest σ ρ ς) : Prop where
  nested : Nested m c s₀ n
  grown : s₀.statuses.size ≤ n.session.statuses.size
  since : ∀ x ∈ n.scopes, s₀.statuses.size ≤ x.status
  within : ∀ t st, s₀.statuses.size ≤ t → n.session.status? t = some st → st.isCompleted = false →
    t ∈ n.scopes.map OpenScope.status
  flagged : ∀ x ∈ n.scopes, ∀ h, n.session.Suspends x.status h →
    ∃ y, n.session.holder? h = some y ∧ y.suspended = true

namespace Followed

variable {m : Manager σ ρ ς} {c : ContextIndex} {s₀ s' : Session σ ρ ς} {n : Nest σ ρ ς} {h : HolderId}

theorem start (hc : c < s₀.registries.size) (hfree : s₀.bound c m.backend.key = none) : Followed m c s₀ ⟨s₀, []⟩ := by
  refine ⟨.start hc hfree, Nat.le_refl _, nofun, fun t st hle hst => ?_, nofun⟩
  exact absurd (status?_lt hst) (Nat.not_lt.2 hle)

theorem quiet (hf : Followed m c s₀ n) (hq : Quiet n.session s') : Followed m c s₀ { n with session := s' } := by
  have hsize : s'.statuses.size = n.session.statuses.size := size_eq_of_getElem? hq.statuses
  refine ⟨hf.nested.quiet hq, hsize ▸ hf.grown, hf.since, fun t st' hle hst' hopen => ?_, fun x hx h hsus => ?_⟩
  · have hsame := hq.statuses t
    rw [show s'.status? t = some st' from hst'] at hsame
    obtain ⟨st, hst, heq⟩ := Option.map_eq_some_iff.1 hsame.symm
    exact hf.within t st hle hst ((isCompleted_of_unmarked heq).trans hopen)
  · have heased : Eased m.backend.key n.session s' := .of_quiet hq
    obtain ⟨y, hy, hon⟩ := hf.flagged x hx h (heased.suspends _ _ hsus)
    obtain ⟨y', hy', heq⟩ := hq.holder hy
    refine ⟨y', hy', ?_⟩
    show y'.resetRollbackOnly.suspended = true
    rw [heq]
    exact hon

/-- Opening a scope leaves what is suspended as it is. -/
theorem flagged_opening (hf : Followed m c s₀ n) {d : Definition} {r : Except TransactionError StatusId}
    (ho : Opening m c d n.session r s') {x : OpenScope σ ρ ς} (hx : x ∈ n.scopes)
    (hsus : n.session.Suspends x.status h) : ∃ y, s'.holder? h = some y ∧ y.suspended = true := by
  obtain ⟨y, hy, hon⟩ := hf.flagged x hx h hsus
  have hb : n.session.bound c m.backend.key ≠ some h := fun hb => hf.nested.stacked.unsuspended hb hx hsus
  exact ⟨y, (ho.holder?_unbound hb (holder?_lt hy)).trans hy, hon⟩

theorem enter (hf : Followed m c s₀ n) (act : α → Session σ ρ ς → Session σ ρ ς) (d : Definition) :
    Followed m c s₀ (n.step m c act (.enter d)) := by
  have hnested := hf.nested.enter act d
  have hstatuses := getTransaction_statuses m c d n.session
  obtain ⟨r, s', hrun, hopen⟩ := getTransaction_spec m c d n.session
  rw [hf.nested.purge_eq] at hopen
  rw [hrun] at hstatuses
  unfold Nest.step at hnested ⊢
  dsimp only at hnested hstatuses ⊢
  rw [hrun] at hnested ⊢
  cases r with
  | error e =>
    have hstatus : ∀ t, s'.status? t = n.session.status? t := fun t => congrArg (·[t]?) hstatuses
    refine ⟨hnested, ?_, hf.since, fun t st hle hst => ?_, fun x hx h hsus => ?_⟩
    · show _ ≤ s'.statuses.size
      rw [hstatuses]
      exact hf.grown
    · exact hf.within t st hle ((hstatus t).symm.trans hst)
    · obtain ⟨st, hst, hs⟩ := hsus
      exact hf.flagged_opening hopen hx ⟨st, (hstatus _).symm.trans hst, hs⟩
  | ok t =>
    obtain ⟨rfl, st, hpushed, -⟩ := hstatuses
    have hstatus := status?_pushed hpushed
    show Followed m c s₀ ⟨s', ⟨n.session.statuses.size, n.session⟩ :: n.scopes⟩
    refine ⟨hnested, ?_, ?_, fun u su hle hu hopened => ?_, fun x hx h hsus => ?_⟩
    · show _ ≤ s'.statuses.size
      rw [hpushed, Array.size_push]
      have hgrown := hf.grown
      omega
    · intro x hx
      rcases List.mem_cons.1 hx with rfl | hx
      · exact hf.grown
      · exact hf.since x hx
    · by_cases hnew : u = n.session.statuses.size
      · exact hnew ▸ List.mem_cons_self
      · rw [hstatus, if_neg hnew] at hu
        exact List.mem_cons_of_mem _ (hf.within u su hle hu hopened)
    · obtain ⟨su, hu, hs⟩ := hsus
      rcases List.mem_cons.1 hx with rfl | hx
      · exact hopen.flagged hu hs
      · have hlt := hf.nested.stacked.status_lt x hx
        rw [hstatus, if_neg (Nat.ne_of_lt hlt)] at hu
        exact hf.flagged_opening hopen hx ⟨su, hu, hs⟩

theorem leave (hf : Followed m c s₀ n) (act : α → Session σ ρ ς → Session σ ρ ς) (commit : Bool) :
    Followed m c s₀ (n.step m c act (.leave commit)) := by
  rcases n with ⟨s, _ | ⟨x, rest⟩⟩
  · exact hf
  have hnested := hf.nested.step act (.leave commit) nofun
  rw [Nest.step_leave_cons rfl] at hnested ⊢
  obtain ⟨st, hst, hopen, hfresh, hlink, -, -⟩ := hf.nested.stacked.top
  obtain ⟨r, s', hrun, hc⟩ := conclude_spec m commit c hst hopen
  obtain ⟨state, _, _, _, _, _, _, _, hstatus, -⟩ := hc.outline hst (.const m.backend)
  dsimp only at hnested ⊢
  rw [hrun] at hnested ⊢
  have hsize : s'.statuses.size = s.statuses.size := by
    refine size_eq_of_getElem? (f := fun _ => ()) fun u => ?_
    show (s'.status? u).map _ = (s.status? u).map _
    rw [hstatus]
    split
    · rename_i hu
      rw [hu, hst]
      rfl
    · rfl
  refine ⟨hnested, hsize ▸ hf.grown, fun y hy => hf.since y (List.mem_cons_of_mem _ hy), ?_, ?_⟩
  · intro u su hle hu hopened
    rw [show s'.status? u = _ from hstatus u] at hu
    split at hu
    · obtain rfl := Option.some.inj hu
      cases hopened
    · rename_i hne
      rcases List.mem_cons.1 (hf.within u su hle hu hopened) with heq | hmem
      · exact absurd heq hne
      · exact hmem
  · rintro y hy h ⟨su, hu, hs⟩
    have hne : y.status ≠ x.status := by
      intro heq
      exact hfresh (heq ▸ List.mem_map_of_mem hy)
    rw [show s'.status? y.status = _ from hstatus y.status, if_neg hne] at hu
    have hmem : y ∈ x :: rest := List.mem_cons_of_mem _ hy
    have hsus : s.Suspends y.status h := ⟨su, hu, hs⟩
    obtain ⟨z, hz, hon⟩ := hf.flagged y hmem h hsus
    refine ⟨z, (hc.holder?_untouched ?_ ?_).trans hz, hon⟩
    · -- the scope that ends has what is bound, which no scope suspends
      intro hh
      exact hf.nested.stacked.unsuspended (hlink.bound_of_holder hh) hmem hsus
    · intro hs'
      exact hne (hf.nested.stacked.suspended_once hmem List.mem_cons_self hsus ⟨st, hst, hs'⟩)

theorem step (hf : Followed m c s₀ n) (call : ScopeCall (σ × Instant)) :
    Followed m c s₀ (n.step m c elapse call) := by
  cases call with
  | enter d => exact hf.enter elapse d
  | leave commit => exact hf.leave elapse commit
  | mark t => exact hf.quiet (.setRollbackOnly _ t)
  | act a => exact hf.quiet ⟨rfl, fun _ => rfl, fun _ => rfl⟩

theorem run (hf : Followed m c s₀ n) (calls : List (ScopeCall (σ × Instant))) :
    Followed m c s₀ (n.run m c elapse calls) := by
  induction calls generalizing n with
  | nil => exact hf
  | cons call calls ih => exact ih (hf.step call)

end Followed

/-! ## Where a transaction is -/

/-- The scope that began a holder's transaction is open. Scopes opened before the first one do not count. -/
def Session.Underway (s : Session σ ρ ς) (first : StatusId) (h : HolderId) : Prop :=
  ∃ t st, first ≤ t ∧ s.status? t = some st ∧ st.isCompleted = false ∧ s.owned? t = some h

/-- An open scope has a holder's transaction suspended. Scopes opened before the first one do not count. -/
def Session.Shelves (s : Session σ ρ ς) (first t : StatusId) (h : HolderId) : Prop :=
  ∃ st, first ≤ t ∧ s.status? t = some st ∧ st.isCompleted = false ∧ st.suspended = some h

/-- Where the transactions are that began in a context with the first scope or behind it. -/
structure Whereabouts (m : Manager σ ρ ς) (c : ContextIndex) (first : StatusId) (s : Session σ ρ ς) : Prop where
  /-- Nothing is bound but a transaction under way, so that no void holder is. -/
  bound (h : HolderId) : s.bound c m.backend.key = some h → s.Underway first h
  /-- Nothing is suspended but a transaction under way. -/
  shelved (t : StatusId) (h : HolderId) : s.Shelves first t h → s.Underway first h
  /-- A transaction under way is live. Either it is bound with its flag off, and no scope suspends it, or it is not
  bound, its flag is on, and exactly one scope suspends it. -/
  placed (h : HolderId) : s.Underway first h → ∃ x, s.holder? h = some x ∧ x.cleared = false ∧
    ((s.bound c m.backend.key = some h ∧ x.suspended = false ∧ ∀ t, ¬ s.Shelves first t h) ∨
      (s.bound c m.backend.key ≠ some h ∧ x.suspended = true ∧
        ∃ t, s.Shelves first t h ∧ ∀ u, s.Shelves first u h → u = t))
  /-- An open scope with a transaction is active if the transaction is the current one, and suspended if not. -/
  state (t : StatusId) (st : Status ς) (h : HolderId) : first ≤ t → s.status? t = some st →
    st.isCompleted = false → st.holder = some h →
    ((m.currentHolder c s).1 = .ok (some h) ∧ s.state st = .active) ∨
      ((m.currentHolder c s).1 ≠ .ok (some h) ∧ s.state st = .suspended)

section Places

variable {m : Manager σ ρ ς} {c : ContextIndex} {s₀ : Session σ ρ ς} {n : Nest σ ρ ς} {h : HolderId} {t : StatusId}

theorem Nested.currentHolder (hn : Nested m c s₀ n) :
    (m.currentHolder c n.session).1 = .ok (n.session.bound c m.backend.key) := by
  obtain ⟨r, hfind, hlook⟩ := find_spec n.session c m.backend.kind m.backend.key
  rw [hn.purge_eq] at hfind hlook
  unfold Manager.currentHolder
  rw [attempt_adapt, hfind]
  cases hlook with
  | unbound hb => rw [hb]; rfl
  | live hb => rw [hb]; rfl
  | foreign _ hb hx _ hne =>
    obtain ⟨y, hy, -, hkind⟩ := hn.stacked.live hb
    obtain rfl := Option.some.inj (hx.symm.trans hy)
    exact absurd hkind hne

/-- A scope of the nest is open, and was opened since. -/
theorem Followed.underway (hf : Followed m c s₀ n) {x : OpenScope σ ρ ς} (hx : x ∈ n.scopes)
    (hown : n.session.owned? x.status = some h) : n.session.Underway s₀.statuses.size h := by
  obtain ⟨st, hst, hopen⟩ := hf.nested.stacked.opened hx
  exact ⟨x.status, st, hf.since x hx, hst, hopen, hown⟩

theorem Followed.shelves_iff (hf : Followed m c s₀ n) : n.session.Shelves s₀.statuses.size t h ↔
    ∃ x ∈ n.scopes, x.status = t ∧ n.session.Suspends t h := by
  constructor
  · rintro ⟨st, hle, hst, hopen, hs⟩
    obtain ⟨x, hx, rfl⟩ := List.mem_map.1 (hf.within t st hle hst hopen)
    exact ⟨x, hx, rfl, st, hst, hs⟩
  · rintro ⟨x, hx, rfl, st, hst, hs⟩
    obtain ⟨st', hst', hopen⟩ := hf.nested.stacked.opened hx
    obtain rfl := Option.some.inj (hst.symm.trans hst')
    exact ⟨st, hf.since x hx, hst, hopen, hs⟩

/-- The holder of an open scope, by where it is. -/
theorem Followed.holder (hf : Followed m c s₀ n) {x : OpenScope σ ρ ς} {st : Status ς} (hx : x ∈ n.scopes)
    (hst : n.session.status? x.status = some st) (hh : st.holder = some h) :
    ∃ z, n.session.holder? h = some z ∧ z.cleared = false ∧
      ((n.session.bound c m.backend.key = some h ∧ z.suspended = false) ∨
        (n.session.bound c m.backend.key ≠ some h ∧ z.suspended = true ∧
          ∃ y ∈ n.scopes, n.session.Suspends y.status h)) := by
  rcases hf.nested.stacked.located hx hst hh with hb | ⟨y, hy, hsus⟩
  · obtain ⟨z, hz, hlive, -⟩ := hf.nested.stacked.live hb
    exact ⟨z, hz, hlive, .inl ⟨hb, hf.nested.attached h z hb hz⟩⟩
  · have hmem : some h ∈ n.scopes.map (OpenScope.before · m c) := by
      rw [← hf.nested.stacked.before_of_suspends hy hsus]
      exact List.mem_map_of_mem hy
    obtain ⟨z, hz, hlive, -⟩ := hf.nested.stacked.live_before h hmem
    obtain ⟨z', hz', hon⟩ := hf.flagged y hy h hsus
    obtain rfl := Option.some.inj (hz.symm.trans hz')
    refine ⟨z, hz, hlive, .inr ⟨fun hb => ?_, hon, y, hy, hsus⟩⟩
    exact hf.nested.stacked.unsuspended hb hy hsus

theorem Followed.whereabouts (hf : Followed m c s₀ n) : Whereabouts m c s₀.statuses.size n.session := by
  have hstacked := hf.nested.stacked
  constructor
  case bound =>
    intro h hb
    obtain ⟨x, hx, hown⟩ := hstacked.began rfl hb
    exact hf.underway hx hown
  case shelved =>
    intro t h hshelves
    obtain ⟨x, hx, rfl, hsus⟩ := hf.shelves_iff.1 hshelves
    obtain ⟨y, hy, hown⟩ := hstacked.began_of_suspends rfl hx hsus
    exact hf.underway hy hown
  case placed =>
    rintro h ⟨t, st, hle, hst, hopen, hown⟩
    obtain ⟨x, hx, rfl⟩ := List.mem_map.1 (hf.within t st hle hst hopen)
    obtain ⟨z, hz, hlive, hplace⟩ := hf.holder hx hst (Owned.holder_of_owned hst hown).2
    refine ⟨z, hz, hlive, ?_⟩
    rcases hplace with ⟨hb, hoff⟩ | ⟨hb, hon, y, hy, hsus⟩
    · refine .inl ⟨hb, hoff, fun u hshelves => ?_⟩
      obtain ⟨y, hy, rfl, hsus⟩ := hf.shelves_iff.1 hshelves
      exact hstacked.unsuspended hb hy hsus
    · refine .inr ⟨hb, hon, y.status, hf.shelves_iff.2 ⟨y, hy, rfl, hsus⟩, fun u hshelves => ?_⟩
      obtain ⟨w, hw, rfl, hsus'⟩ := hf.shelves_iff.1 hshelves
      exact hstacked.suspended_once hw hy hsus' hsus
  case state =>
    intro t st h hle hst hopen hh
    obtain ⟨x, hx, rfl⟩ := List.mem_map.1 (hf.within t st hle hst hopen)
    obtain ⟨z, hz, -, hplace⟩ := hf.holder hx hst hh
    have hnone : st.completion = none := by
      cases hcompletion : st.completion with
      | none => rfl
      | some state =>
        rw [Status.isCompleted_of_some hcompletion] at hopen
        cases hopen
    have hholder : n.session.statusHolder? st = some z := by
      unfold statusHolder?
      rw [hh]
      exact hz
    rw [hf.nested.currentHolder]
    unfold Session.state
    rw [hnone, hholder]
    rcases hplace with ⟨hb, hoff⟩ | ⟨hb, hon, -⟩
    · left
      simp [hb, hoff]
    · right
      simp [hb, hon]

end Places

/-- Every transaction that is under way is in one place, for every manager, every backend and every run of nested
scopes in one context in which nothing was bound, whatever fails. The one that is bound, if any, is attached;
every other one is detached, and exactly one open scope is to resume it. So the state of every open scope says
whether its transaction is the current one. -/
theorem transactions_in_place (m : Manager σ ρ ς) (c : ContextIndex) (s₀ : Session σ ρ ς)
    (hc : c < s₀.registries.size) (hfree : s₀.bound c m.backend.key = none)
    (calls : List (ScopeCall (σ × Instant))) :
    Whereabouts m c s₀.statuses.size (Nest.run m c elapse calls ⟨s₀, []⟩).session :=
  ((Followed.start hc hfree).run calls).whereabouts

/-- The second of two transactions is suspended for a third one, which cannot begin, so that it is resumed, and then
it is suspended for a scope without one. Nothing is bound, and the first transaction waits for the second scope. -/
theorem transactions_in_place_suspended :
    let m : Manager Store ConnectionId Savepoint := { backend := Store.backend ⟨7⟩ .all }
    let calls : List (ScopeCall (Store × Instant)) :=
      [.enter { propagation := .required }, .enter { propagation := .requiresNew },
        .act ({ key := ⟨7⟩, faults := [(.begin, 1)] }, 5), .enter { propagation := .requiresNew },
        .enter { propagation := .notSupported }]
    let n := Nest.run m 0 elapse calls ⟨Session.ofContexts 1 { key := ⟨7⟩ }, []⟩
    n.scopes.map OpenScope.status = [2, 1, 0] ∧ n.session.bound 0 ⟨7⟩ = none ∧
      ∀ t, n.session.Shelves 0 t 0 ↔ t = 1 := by
  intro m calls n
  have hplaces : Whereabouts m 0 0 n.session :=
    transactions_in_place m 0 (Session.ofContexts 1 { key := ⟨7⟩ }) (by decide +kernel) (bound_ofContexts 1 _ 0 _)
      calls
  have hparts : (n.session.status? 1).map (fun st => (st.isCompleted, st.suspended)) = some (false, some 0) := by
    decide +kernel
  have hbound : n.session.bound 0 ⟨7⟩ = none := by decide +kernel
  have hshelves : n.session.Shelves 0 1 0 := by
    obtain ⟨st, hst, hst'⟩ := Option.map_eq_some_iff.1 hparts
    injection hst' with hopen hs
    exact ⟨st, Nat.zero_le 1, hst, hopen, hs⟩
  refine ⟨by decide +kernel, hbound, fun t => ⟨fun ht => ?_, fun ht => ht ▸ hshelves⟩⟩
  obtain ⟨x, -, -, hplace⟩ := hplaces.placed 0 (hplaces.shelved 1 0 hshelves)
  rcases hplace with ⟨hb, -, -⟩ | ⟨-, -, u, -, honly⟩
  · cases hbound.symm.trans hb
  · exact (honly t ht).trans (honly 1 hshelves).symm

end Demarcation
