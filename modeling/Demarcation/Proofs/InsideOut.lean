/-
Calls in any contexts that complete the scopes of each transaction from the inside out. A client that
nests its scopes in one context makes such calls.
-/
import Demarcation.Proofs.Client
import Demarcation.Proofs.Nesting

namespace Demarcation

open Session Manager

variable {σ ρ ς α : Type}

/-- No scope that was opened later in the transaction of an open scope is still open. -/
def Session.Innermost (s : Session σ ρ ς) (t : StatusId) : Prop :=
  ∀ st h u stᵤ, s.status? t = some st → st.isCompleted = false → st.holder = some h → t < u →
    s.status? u = some stᵤ → stᵤ.isCompleted = false → stᵤ.holder ≠ some h

/-- The calls complete the scopes of each transaction from the inside out. Completing a scope once more
may be tried at any time. -/
def Manager.InsideOut (m : Manager σ ρ ς) (act : α → Session σ ρ ς → Session σ ρ ς) :
    List (ManagerCall α) → Session σ ρ ς → Prop
  | [], _ => True
  | call :: calls, s => (∀ commit c t, call = .conclude commit c t → s.Innermost t) ∧
      m.InsideOut act calls (m.called act s call)

theorem Session.Innermost.last {s : Session σ ρ ς} {t : StatusId} (hlast : s.statuses.size ≤ t + 1) :
    s.Innermost t := by
  intro st h u stᵤ _ _ _ hlt hstᵤ
  exact absurd (Nat.lt_of_lt_of_le (status?_lt hstᵤ) hlast) (Nat.not_lt.2 hlt)

/-! ## Nested scopes -/

/-- The calls of the manager that a call of a client with nested scopes comes to. -/
def ScopeCall.called (c : ContextIndex) (n : Nest σ ρ ς) : ScopeCall α → List (ManagerCall α)
  | .enter d => [.enter c d]
  | .leave commit =>
    match n.scopes with
    | [] => []
    | x :: _ => [.conclude commit c x.status]
  | .mark t => [.mark t]
  | .act a => [.act a]

/-- The calls of the manager that a run of nested scopes makes. -/
def Nest.calls (m : Manager σ ρ ς) (c : ContextIndex) (act : α → Session σ ρ ς → Session σ ρ ς) :
    List (ScopeCall α) → Nest σ ρ ς → List (ManagerCall α)
  | [], _ => []
  | call :: calls, n => call.called c n ++ Nest.calls m c act calls (n.step m c act call)

/-- Every scope that is open is one of the nest, and inner scopes were opened later. -/
structure Nest.Enclosing (n : Nest σ ρ ς) : Prop where
  open_mem : ∀ t st, n.session.status? t = some st → st.isCompleted = false → t ∈ n.scopes.map OpenScope.status
  sorted : (n.scopes.map OpenScope.status).Pairwise (· > ·)
  lt : ∀ t ∈ n.scopes.map OpenScope.status, t < n.session.statuses.size

section Nested

variable {m : Manager σ ρ ς} {c : ContextIndex} {act : α → Session σ ρ ς → Session σ ρ ς} {n : Nest σ ρ ς}
  {s s' : Session σ ρ ς}

theorem Nest.calledAll_step (m : Manager σ ρ ς) (c : ContextIndex) (act : α → Session σ ρ ς → Session σ ρ ς)
    (n : Nest σ ρ ς) (call : ScopeCall α) :
    m.calledAll act (call.called c n) n.session = (n.step m c act call).session := by
  cases call with
  | enter d => exact (Nest.session_enter m c act n d).symm
  | leave commit => rcases n with ⟨s, _ | ⟨x, rest⟩⟩ <;> rfl
  | mark t => rfl
  | act a => rfl

/-- The calls lead to the session of the run. -/
theorem Nest.calledAll_calls (calls : List (ScopeCall α)) (n : Nest σ ρ ς) :
    m.calledAll act (Nest.calls m c act calls n) n.session = (n.run m c act calls).session := by
  induction calls generalizing n with
  | nil => rfl
  | cons call calls ih =>
    have hfirst := n.calledAll_step m c act call
    have hrest := ih (n.step m c act call)
    show (call.called c n ++ _).foldl (m.called act) n.session = _
    rw [List.foldl_append, show (call.called c n).foldl (m.called act) n.session = _ from hfirst]
    exact hrest

/-- A scope that is open after a run was open before it, or one of the calls opened it, in the session that the calls
before that one led to. -/
theorem Nest.opened_of_mem {x : OpenScope σ ρ ς} {calls : List (ScopeCall α)}
    (hx : x ∈ (n.run m c act calls).scopes) : x ∈ n.scopes ∨ ∃ before d after,
      calls = before ++ .enter d :: after ∧ x.origin = (n.run m c act before).session ∧
        (m.getTransaction c d x.origin).1 = .ok x.status := by
  induction calls generalizing n with
  | nil => exact .inl hx
  | cons call calls ih =>
    rcases ih hx with hx | ⟨before, d, after, rfl, horigin, hopened⟩
    · cases call with
      | enter d =>
        have hentered : x ∈ (n.entered (m.getTransaction c d n.session)).scopes := hx
        rcases hrun : m.getTransaction c d n.session with ⟨e | t, s'⟩ <;> rw [hrun] at hentered
        · exact .inl hentered
        · rcases List.mem_cons.1 hentered with rfl | hmem
          · exact .inr ⟨[], d, calls, rfl, rfl, congrArg Prod.fst hrun⟩
          · exact .inl hmem
      | leave commit =>
        rcases n with ⟨s, _ | ⟨y, rest⟩⟩
        · exact .inl hx
        · exact .inl (List.mem_cons_of_mem y hx)
      | mark t => exact .inl hx
      | act a => exact .inl hx
    · exact .inr ⟨call :: before, d, after, rfl, horigin, hopened⟩

/-- A scope that is open after a call was open before it, or was opened by it. -/
theorem open_before (m : Manager σ ρ ς) (act : α → Session σ ρ ς → Session σ ρ ς) (call : ManagerCall α)
    (hact : ∀ a, call = .act a → Steady s (act a s)) {t : StatusId} {st' : Status ς}
    (hst' : (m.called act s call).status? t = some st') (hopen : st'.isCompleted = false) :
    (∃ st, s.status? t = some st ∧ st.isCompleted = false ∧ ∀ commit c, call ≠ .conclude commit c t) ∨
    (s.status? t = none ∧ ∃ c d, call = .enter c d) := by
  cases hst : s.status? t with
  | none =>
    obtain ⟨c, d, hcall, _⟩ := called_status_new m call hact hst hst'
    exact .inr ⟨rfl, c, d, hcall⟩
  | some st =>
    refine .inl ⟨st, rfl, ?_⟩
    rcases called_status_cases m call hact hst with ⟨st'', hst'', hsame⟩ | ⟨_, _, state, _, _, hst''⟩
    · obtain rfl := Option.some.inj (hst''.symm.trans hst')
      have hbefore : st.isCompleted = false := (isCompleted_of_unmarked hsame).symm.trans hopen
      refine ⟨hbefore, ?_⟩
      rintro commit c rfl
      obtain ⟨state, hended⟩ := conclude_completes m commit c hst hbefore
      obtain rfl := Option.some.inj (hst'.symm.trans hended)
      cases hopen
    · obtain rfl := Option.some.inj (hst''.symm.trans hst')
      cases hopen

theorem statuses_le_called (m : Manager σ ρ ς) (act : α → Session σ ρ ς → Session σ ρ ς) (call : ManagerCall α)
    (hact : ∀ a, call = .act a → Steady s (act a s)) : s.statuses.size ≤ (m.called act s call).statuses.size := by
  refine statuses_le fun t st hst => ?_
  obtain ⟨st', hst', _⟩ := called_status m call hact hst
  exact ⟨st', hst'⟩

theorem Nest.Enclosing.entered (hn : n.Enclosing) (d : Definition) :
    (n.entered (m.getTransaction c d n.session)).Enclosing := by
  have hbefore : ∀ {t st'}, (m.getTransaction c d n.session).2.status? t = some st' → st'.isCompleted = false →
      (∃ st, n.session.status? t = some st ∧ st.isCompleted = false) ∨ n.session.status? t = none := by
    intro t st' hst' hopen
    rcases open_before m (fun (_ : Unit) s => s) (.enter c d) nofun hst' hopen with ⟨st, hst, ho, _⟩ | ⟨hnone, _⟩
    · exact .inl ⟨st, hst, ho⟩
    · exact .inr hnone
  have hle : n.session.statuses.size ≤ (m.getTransaction c d n.session).2.statuses.size :=
    statuses_le_called m (fun (_ : Unit) s => s) (.enter c d) nofun
  rcases hrun : m.getTransaction c d n.session with ⟨e | t, s'⟩ <;> rw [hrun] at hbefore hle
  · refine ⟨fun u st' hst' hopen => ?_, hn.sorted, fun u hu => Nat.lt_of_lt_of_le (hn.lt u hu) hle⟩
    rcases hbefore hst' hopen with ⟨st, hst, ho⟩ | hnone
    · exact hn.open_mem u st hst ho
    · -- a scope that was not opened has no status
      obtain ⟨r, s₁, hrun', houtline⟩ := getTransaction_outline m c d n.session (.const m.backend)
      obtain ⟨hr, rfl⟩ := Prod.mk.inj (hrun'.symm.trans hrun)
      cases houtline with
      | failed halike => cases hst'.symm.trans ((halike.status? u).trans hnone)
      | entered | begun => cases hr
  · obtain ⟨rfl, hsize⟩ := getTransaction_status hrun
    refine ⟨fun u st' hst' hopen => ?_, ?_, fun u hu => ?_⟩
    · rcases hbefore hst' hopen with ⟨st, hst, ho⟩ | hnone
      · exact List.mem_cons_of_mem _ (hn.open_mem u st hst ho)
      · have hlt : u < n.session.statuses.size + 1 := hsize ▸ status?_lt hst'
        have hge : n.session.statuses.size ≤ u := Array.getElem?_eq_none_iff.1 hnone
        exact List.mem_cons.2 (.inl (Nat.le_antisymm (Nat.lt_succ_iff.1 hlt) hge))
    · exact List.pairwise_cons.2 ⟨hn.lt, hn.sorted⟩
    · rcases List.mem_cons.1 hu with rfl | hu
      · exact hsize ▸ Nat.lt_succ_self _
      · exact Nat.lt_of_lt_of_le (hn.lt u hu) hle

theorem Nest.Enclosing.left {x : OpenScope σ ρ ς} {rest : List (OpenScope σ ρ ς)}
    (hn : (⟨s, x :: rest⟩ : Nest σ ρ ς).Enclosing) (commit : Bool) :
    (⟨(m.conclude commit c x.status s).2, rest⟩ : Nest σ ρ ς).Enclosing := by
  refine ⟨fun u st' hst' hopen => ?_, hn.sorted.of_cons, fun u hu => ?_⟩
  · rcases open_before m (fun (_ : Unit) s => s) (.conclude commit c x.status) nofun hst' hopen with
      ⟨st, hst, ho, hother⟩ | ⟨_, _, _, hcall⟩
    · rcases List.mem_cons.1 (hn.open_mem u st hst ho) with rfl | hmem
      · exact absurd rfl (hother commit c)
      · exact hmem
    · cases hcall
  · exact Nat.lt_of_lt_of_le (hn.lt u (List.mem_cons_of_mem _ hu))
      (statuses_le_called m (fun (_ : Unit) s => s) (.conclude commit c x.status) nofun)

theorem Nest.Enclosing.step (hn : n.Enclosing) (hact : ∀ a s, Steady s (act a s)) (call : ScopeCall α) :
    (n.step m c act call).Enclosing := by
  cases call with
  | enter d => exact hn.entered d
  | leave commit =>
    rcases n with ⟨s, _ | ⟨x, rest⟩⟩
    · exact hn
    · exact hn.left commit
  | mark t =>
    refine ⟨fun u st' hst' hopen => ?_, hn.sorted, fun u hu => ?_⟩
    · rcases open_before m act (.mark t) nofun hst' hopen with ⟨st, hst, ho, _⟩ | ⟨_, _, _, hcall⟩
      · exact hn.open_mem u st hst ho
      · cases hcall
    · exact Nat.lt_of_lt_of_le (hn.lt u hu) (statuses_le_called m act (.mark t) nofun)
  | act a =>
    have hsame := (hact a n.session).statuses
    refine ⟨fun u st' hst' hopen => hn.open_mem u st' ?_ hopen, hn.sorted, fun u hu => ?_⟩
    · exact ((hact a n.session).status? u).symm.trans hst'
    · show u < (act a n.session).statuses.size
      rw [hsame]
      exact hn.lt u hu

theorem Nest.Enclosing.start (hstatuses : s.statuses = #[]) : (⟨s, []⟩ : Nest σ ρ ς).Enclosing := by
  refine ⟨fun t st hst => ?_, .nil, nofun⟩
  unfold Session.status? at hst
  rw [hstatuses] at hst
  cases hst

theorem Nest.Enclosing.run (hn : n.Enclosing) (hact : ∀ a s, Steady s (act a s)) (calls : List (ScopeCall α)) :
    (n.run m c act calls).Enclosing := by
  induction calls generalizing n with
  | nil => exact hn
  | cons call calls ih => exact ih (hn.step hact call)

/-- A client that nests its scopes completes the scopes of each transaction from the inside out. -/
theorem Nest.Enclosing.insideOut (hn : n.Enclosing) (hact : ∀ a s, Steady s (act a s)) (calls : List (ScopeCall α)) :
    m.InsideOut act (Nest.calls m c act calls n) n.session := by
  induction calls generalizing n with
  | nil => exact trivial
  | cons call calls ih =>
    have hnext := ih (hn.step (m := m) (c := c) hact call)
    rw [← n.calledAll_step m c act call] at hnext
    unfold Nest.calls
    cases call with
    | enter d => exact ⟨nofun, hnext⟩
    | mark t => exact ⟨nofun, hnext⟩
    | act a => exact ⟨nofun, hnext⟩
    | leave commit =>
      rcases n with ⟨s, _ | ⟨x, rest⟩⟩
      · exact hnext
      · refine ⟨?_, hnext⟩
        rintro _ _ _ ⟨⟩ st h u stᵤ _ _ _ hlt hstᵤ hopenᵤ
        -- no open scope was opened later than the innermost one
        rcases List.mem_cons.1 (hn.open_mem u stᵤ hstᵤ hopenᵤ) with rfl | hmem
        · exact absurd hlt (Nat.lt_irrefl _)
        · exact absurd hlt (Nat.lt_asymm ((List.pairwise_cons.1 hn.sorted).1 u hmem))

end Nested

end Demarcation
