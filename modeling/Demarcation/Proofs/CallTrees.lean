/-
Trees of nested calls in one context, each wrapped in a template or in a transactional step. Whatever the
bodies answer and whatever fails, the calls of the manager are bracketed: every scope that is opened is
completed once, behind everything that was opened inside it.
-/
import Demarcation.Proofs.Nesting
import Demarcation.Proofs.References
import Demarcation.Proofs.Wrappers

namespace Demarcation

open Session Manager

variable {σ ρ ς τ : Type} {m : Manager σ ρ ς} {c : ContextIndex}

/-! ## Trees -/

/-- What a body does itself between its calls. It is quiet, but a look-up may drop a void binding. -/
structure OwnWork (m : Manager σ ρ ς) (c : ContextIndex) where
  run : Session σ ρ ς → Session σ ρ ς
  quiet : ∀ s, Quiet s (run s) ∨ Quiet (s.purge c m.backend.key) (run s)

/-- A body: its own work, and the calls that it makes, each wrapped and with a body of its own. What comes
next may depend on the session and on the answers to the calls. -/
inductive CallTree (m : Manager σ ρ ς) (c : ContextIndex) (τ : Type)
  | answer (outcome : Outcome τ)
  | work (w : OwnWork m c) (next : Session σ ρ ς → CallTree m c τ)
  | template (d : Definition) (body : StatusId → CallTree m c τ) (next : Outcome τ → CallTree m c τ)
  | intercepted (source : AttributeSource) (operation : Operation) (body : CallTree m c τ)
    (next : Outcome τ → CallTree m c τ)

def CallTree.run : CallTree m c τ → StateM (Session σ ρ ς) (Outcome τ)
  | answer outcome => pure outcome
  | work w next => fun s => (next (w.run s)).run (w.run s)
  | template d body next => fun s =>
    let (outcome, s) := Template.execute ⟨m, d⟩ .whole c (fun t => (body t).run) s
    (next outcome).run s
  | intercepted source operation body next => fun s =>
    let (outcome, s) := m.intercepted c source operation body.run s
    (next outcome).run s

/-- The calls of a wrapper, around those of its body. -/
def wrapped {α : Type} (m : Manager σ ρ ς) (c : ContextIndex) (d : Definition) (rollsBack : Failure → Bool)
    (body : Body σ ρ ς τ) (inner : StatusId → Session σ ρ ς → List (ManagerCall α)) (s : Session σ ρ ς) :
    List (ManagerCall α) :=
  match m.getTransaction c d s with
  | (.error _, _) => [.enter c d]
  | (.ok t, s) => .enter c d :: inner t s ++ [.conclude (commits rollsBack (body t s).1) c t]

/-- The calls of the manager that running a tree makes, and the work between them. -/
def CallTree.calls : CallTree m c τ → Session σ ρ ς → List (ManagerCall (OwnWork m c))
  | answer _, _ => []
  | work w next, s => .act w :: (next (w.run s)).calls (w.run s)
  | template d body next, s =>
    let (outcome, s') := Template.execute ⟨m, d⟩ .whole c (fun t => (body t).run) s
    wrapped m c d (fun _ => true) (fun t => (body t).run) (fun t => (body t).calls) s ++ (next outcome).calls s'
  | intercepted source operation body next, s =>
    let (outcome, s') := m.intercepted c source operation body.run s
    (match source operation with
    | none => body.calls s
    | some a =>
      wrapped m c (a.definition.withName operation.name) a.rollsBackOn (fun _ => body.run) (fun _ => body.calls) s) ++
      (next outcome).calls s'

/-! ## Brackets -/

/-- Calls whose brackets match, from one session to another: a scope that is opened is completed behind
bracketed calls, while it is still open, and its status is dropped then. -/
inductive Bracketed (m : Manager σ ρ ς) (c : ContextIndex) :
    Session σ ρ ς → List (ManagerCall (OwnWork m c)) → Session σ ρ ς → Prop
  | nil {s : Session σ ρ ς} : Bracketed m c s [] s
  | own {s s' : Session σ ρ ς} {calls : List (ManagerCall (OwnWork m c))} (w : OwnWork m c) :
    Bracketed m c (w.run s) calls s' → Bracketed m c s (.act w :: calls) s'
  | refused {s s₁ s' : Session σ ρ ς} {d : Definition} {e : TransactionError}
    {calls : List (ManagerCall (OwnWork m c))} :
    m.getTransaction c d s = (.error e, s₁) → Bracketed m c s₁ calls s' →
    Bracketed m c s (.enter c d :: calls) s'
  | scope {s s₁ s₂ s' : Session σ ρ ς} {d : Definition} {t : StatusId} {st : Status ς} {commit : Bool}
    {inner calls : List (ManagerCall (OwnWork m c))} :
    m.getTransaction c d s = (.ok t, s₁) → Bracketed m c s₁ inner s₂ →
    s₂.status? t = some st → st.isCompleted = false →
    Bracketed m c ((m.conclude commit c t s₂).2.forget t) calls s' →
    Bracketed m c s (.enter c d :: inner ++ .conclude commit c t :: calls) s'

/-- The call completes a scope. -/
def ManagerCall.concludes {α : Type} (t : StatusId) : ManagerCall α → Bool
  | .conclude _ _ u => u == t
  | .enter _ _ | .mark _ | .act _ => false

namespace Bracketed

variable {s s' s'' : Session σ ρ ς} {calls calls' : List (ManagerCall (OwnWork m c))}

theorem append (hb : Bracketed m c s calls s') (hb' : Bracketed m c s' calls' s'') :
    Bracketed m c s (calls ++ calls') s'' := by
  induction hb with
  | nil => exact hb'
  | own w _ ih => exact .own w (ih hb')
  | refused hget _ ih => exact .refused hget (ih hb')
  | @scope s s₁ s₂ s' d t st commit inner calls hget hinner hst hopen _ _ ih =>
    have hscope := Bracketed.scope hget hinner hst hopen (ih hb')
    rwa [List.append_assoc]

end Bracketed

/-! ## What is left of the scopes -/

/-- A body's own work opens and completes nothing. -/
theorem OwnWork.completed (w : OwnWork m c) (s : Session σ ρ ς) (u : StatusId) :
    ((w.run s).status? u).map Status.isCompleted = (s.status? u).map Status.isCompleted := by
  have hpurge : Alike Holder.resource s (s.purge c m.backend.key) := .purge s c m.backend.key
  have hquiet : ((w.run s).status? u).map Status.unmarked = (s.status? u).map Status.unmarked := by
    rcases w.quiet s with hq | hq
    · exact hq.statuses u
    · rw [hq.statuses u, hpurge.status?]
  have hcompleted := congrArg (Option.map Status.isCompleted) hquiet
  rwa [Option.map_map, Option.map_map] at hcompleted

/-- Everything that was opened is completed, and what had been opened before is as far completed as it was. -/
structure Restores (s s' : Session σ ρ ς) : Prop where
  size : s.statuses.size ≤ s'.statuses.size
  old : ∀ u, u < s.statuses.size →
    (s'.status? u).map Status.isCompleted = (s.status? u).map Status.isCompleted
  new : ∀ u st, s.statuses.size ≤ u → s'.status? u = some st → st.isCompleted = true

namespace Restores

variable {s s' s'' s₁ s₂ : Session σ ρ ς}

theorem of_same (hsame : ∀ u, (s'.status? u).map Status.isCompleted = (s.status? u).map Status.isCompleted) :
    Restores s s' := by
  refine ⟨Nat.le_of_eq (size_eq_of_getElem? hsame).symm, fun u _ => hsame u, fun u st hu hst => ?_⟩
  have hlt : u < s'.statuses.size := status?_lt hst
  rw [size_eq_of_getElem? hsame] at hlt
  omega

theorem of_statuses (h : s'.statuses = s.statuses) : Restores s s' :=
  of_same fun u => by unfold status?; rw [h]

theorem trans (h : Restores s s') (h' : Restores s' s'') : Restores s s'' := by
  have hsize := h.size
  refine ⟨Nat.le_trans h.size h'.size, fun u hu => ?_, fun u st hu hst => ?_⟩
  · exact (h'.old u (by omega)).trans (h.old u hu)
  · -- a status of the first part is completed there, and stays so
    by_cases hlt : u < s'.statuses.size
    · have hold := h'.old u hlt
      rw [hst] at hold
      obtain ⟨st', hst', hsame⟩ := Option.map_eq_some_iff.1 hold.symm
      exact hsame.symm.trans (h.new u st' hu hst')
    · exact h'.new u st (by omega) hst

end Restores

section Scopes

variable {s s₁ s₂ : Session σ ρ ς} {d : Definition} {t : StatusId} {st : Status ς}

theorem statuses_refused {e : TransactionError} (hget : m.getTransaction c d s = (.error e, s₁)) :
    s₁.statuses = s.statuses := by
  have hstatuses := getTransaction_statuses m c d s
  rwa [hget] at hstatuses

/-- A scope is opened. -/
theorem status?_entered (hget : m.getTransaction c d s = (.ok t, s₁)) :
    ∃ st, st.isCompleted = false ∧ ∀ u, s₁.status? u = if u = t then some st else s.status? u := by
  have hstatuses := getTransaction_statuses m c d s
  rw [hget] at hstatuses
  obtain ⟨rfl, st, hpush, hopen⟩ := hstatuses
  exact ⟨st, hopen, status?_pushed hpush⟩

/-- A scope is completed, and its status dropped. -/
theorem status?_left (hst : s.status? t = some st) (hopen : st.isCompleted = false) (commit : Bool) :
    ∃ st', st'.isCompleted = true ∧
      ∀ u, ((m.conclude commit c t s).2.forget t).status? u = if u = t then some st' else s.status? u := by
  obtain ⟨r, s', hrun, hc⟩ := conclude_spec m commit c hst hopen
  obtain ⟨state, -, -, -, -, -, -, -, hstatuses, -⟩ := hc.outline hst (.const m.backend)
  refine ⟨{ st.ended state with held := false }, rfl, fun u => ?_⟩
  rw [hrun]
  unfold Session.forget
  rw [status?_modifyStatus, hstatuses]
  split <;> rfl

theorem left_size (hst : s.status? t = some st) (hopen : st.isCompleted = false) (commit : Bool) :
    ((m.conclude commit c t s).2.forget t).statuses.size = s.statuses.size := by
  obtain ⟨st', -, hleft⟩ := status?_left (m := m) (c := c) hst hopen commit
  refine size_eq_of_getElem? (f := fun _ => ()) fun u => ?_
  show Option.map (fun _ => ()) (((m.conclude commit c t s).2.forget t).status? u) = Option.map _ (s.status? u)
  rw [hleft]
  split
  · rename_i hu
    rw [hu, hst]; rfl
  · rfl

/-- Behind calls that complete whatever they open, a scope is still open. -/
theorem Restores.still_open (hr : Restores s₁ s₂) (hget : m.getTransaction c d s = (.ok t, s₁)) :
    ∃ st, s₂.status? t = some st ∧ st.isCompleted = false := by
  obtain ⟨st, hopen, hentered⟩ := status?_entered hget
  have hst : s₁.status? t = some st := (hentered t).trans (if_pos rfl)
  have hold := hr.old t (status?_lt hst)
  rw [hst] at hold
  obtain ⟨st', hst', hsame⟩ := Option.map_eq_some_iff.1 hold
  exact ⟨st', hst', hsame.trans hopen⟩

/-- A scope is completed behind calls that complete whatever they open. -/
theorem Restores.scope (hr : Restores s₁ s₂) (hget : m.getTransaction c d s = (.ok t, s₁))
    (hst : s₂.status? t = some st) (hopen : st.isCompleted = false) (commit : Bool) :
    Restores s ((m.conclude commit c t s₂).2.forget t) := by
  obtain ⟨_, _, hentered⟩ := status?_entered hget
  obtain ⟨st', hended, hleft⟩ := status?_left (m := m) (c := c) hst hopen commit
  obtain ⟨rfl, hsize₁⟩ := getTransaction_status hget
  have hsize₂ := hr.size
  refine ⟨?_, fun u hu => ?_, fun u st₁ hu hst₁ => ?_⟩
  · rw [left_size hst hopen]
    omega
  · have hne : u ≠ s.statuses.size := by omega
    rw [hleft, if_neg hne, hr.old u (by omega), hentered, if_neg hne]
  · rw [hleft] at hst₁
    split at hst₁
    · obtain rfl := Option.some.inj hst₁
      exact hended
    · rename_i hne
      have hlt : s.statuses.size < u := Nat.lt_of_le_of_ne hu (Ne.symm hne)
      exact hr.new u st₁ (by omega) hst₁

end Scopes

namespace Bracketed

variable {s s' : Session σ ρ ς} {calls : List (ManagerCall (OwnWork m c))}

theorem restores (hb : Bracketed m c s calls s') : Restores s s' := by
  induction hb with
  | nil => exact .of_statuses rfl
  | own w _ ih => exact (Restores.of_same (w.completed _)).trans ih
  | refused hget _ ih => exact (Restores.of_statuses (statuses_refused hget)).trans ih
  | scope hget _ hst hopen _ ihinner ih => exact (ihinner.scope hget hst hopen _).trans ih

/-- Exactly the scopes that are opened are completed, each of them once. -/
theorem concluded_once (hb : Bracketed m c s calls s') (t : Nat) :
    calls.countP (·.concludes t) = if s.statuses.size ≤ t ∧ t < s'.statuses.size then 1 else 0 := by
  induction hb with
  | nil =>
    rw [if_neg (by omega)]
    rfl
  | @own s _ _ w _ ih =>
    rw [List.countP_cons_of_neg (by simp [ManagerCall.concludes]), ih, size_eq_of_getElem? (w.completed s)]
  | refused hget _ ih =>
    rw [List.countP_cons_of_neg (by simp [ManagerCall.concludes]), ih, statuses_refused hget]
  | @scope s s₁ s₂ s' d u st commit inner calls hget hinner hst hopen hrest ihinner ih =>
    -- the scope has the first new status, those inside it have the next ones, and the rest comes behind them
    obtain ⟨rfl, hsize₁⟩ := getTransaction_status hget
    have hsize₂ := hinner.restores.size
    have hsize₃ := left_size (m := m) (c := c) hst hopen commit
    have hsize₄ := hrest.restores.size
    rw [List.cons_append, List.countP_cons_of_neg (by simp [ManagerCall.concludes]), List.countP_append, ihinner,
      List.countP_cons, ih]
    simp only [ManagerCall.concludes, beq_iff_eq]
    grind

/-- Behind bracketed calls the scopes around them are nested as they were. -/
theorem nested {base : Option HolderId} {s₀ : Session σ ρ ς} {scopes : List (OpenScope σ ρ ς)}
    (hb : Bracketed m c s calls s') (hn : NestedOn m c base s₀ ⟨s, scopes⟩) :
    NestedOn m c base s₀ ⟨s', scopes⟩ := by
  induction hb generalizing scopes with
  | nil => exact hn
  | @own s _ _ w _ ih =>
    rcases w.quiet s with hq | hq
    · exact ih (hn.quiet hq)
    · rw [hn.purge_eq] at hq
      exact ih (hn.quiet hq)
  | @refused s s₁ _ d e _ hget _ ih =>
    have hentered := hn.enter elapse d
    have hstep : Nest.step m c elapse ⟨s, scopes⟩ (.enter d) = ⟨s₁, scopes⟩ :=
      congrArg (Nest.entered ⟨s, scopes⟩) hget
    rw [hstep] at hentered
    exact ih hentered
  | @scope s s₁ s₂ _ d t _ commit _ _ hget _ _ _ _ ihinner ih =>
    have hentered := hn.enter elapse d
    have hstep : Nest.step m c elapse ⟨s, scopes⟩ (.enter d) = ⟨s₁, ⟨t, s⟩ :: scopes⟩ :=
      congrArg (Nest.entered ⟨s, scopes⟩) hget
    rw [hstep] at hentered
    -- inside the scope it stays the innermost one, so that completing it binds what it found
    have hinside := ihinner hentered
    exact ih (hinside.pop ((hinside.closed commit).modifyStatus _))

end Bracketed

/-- What is bound under the manager's key, if anything is, is a transaction of the manager that is neither
over nor suspended. -/
def Manager.Attached (m : Manager σ ρ ς) (c : ContextIndex) (s : Session σ ρ ς) : Prop :=
  ∀ h, s.bound c m.backend.key = some h →
    ∃ x, s.holder? h = some x ∧ x.cleared = false ∧ x.kind = m.backend.kind ∧ x.suspended = false

theorem Manager.Attached.start {s : Session σ ρ ς} (ha : m.Attached c s) (hc : c < s.registries.size) :
    NestedOn m c (s.bound c m.backend.key) s ⟨s, []⟩ := by
  refine .start hc (fun h hb => ?_) (fun h x hb hx => ?_)
  · obtain ⟨x, hx, hl, hk, -⟩ := ha h hb
    exact ⟨x, hx, hl, hk⟩
  · obtain ⟨y, hy, -, -, hoff⟩ := ha h hb
    obtain rfl : y = x := Option.some.inj (hy.symm.trans hx)
    exact hoff

theorem NestedOn.is_attached {n : Nest σ ρ ς} {base : Option HolderId} {s₀ : Session σ ρ ς}
    (hn : NestedOn m c base s₀ n) : m.Attached c n.session := by
  intro h hb
  obtain ⟨x, hx, hl, hk⟩ := hn.stacked.live hb
  exact ⟨x, hx, hl, hk, hn.attached h x hb hx⟩

/-- Without an open scope everything is bound that was bound at the start. -/
theorem NestedOn.bound_outside {s s₀ : Session σ ρ ς} (hn : NestedOn m c (s₀.bound c m.backend.key) s₀ ⟨s, []⟩)
    (c' : ContextIndex) (k : ResourceKey) : s.bound c' k = s₀.bound c' k := by
  by_cases hkey : c' = c ∧ k = m.backend.key
  · obtain ⟨rfl, rfl⟩ := hkey
    have hstacked := hn.stacked
    dsimp only at hstacked
    generalize s.bound c' m.backend.key = bound at hstacked
    cases hstacked
    rfl
  · exact hn.others c' k hkey

/-! ## Running a tree -/

/-- A wrapper brackets the calls of its body. -/
theorem Wraps.bracketed {d : Definition} {rollsBack : Failure → Bool} {body : Body σ ρ ς τ}
    {run : StateM (Session σ ρ ς) (Outcome τ)}
    {inner : StatusId → Session σ ρ ς → List (ManagerCall (OwnWork m c))}
    (hw : Wraps m c d rollsBack body run) (hinner : ∀ t s, Bracketed m c s (inner t s) (body t s).2)
    (s : Session σ ρ ς) : Bracketed m c s (wrapped m c d rollsBack body inner s) (run s).2 := by
  unfold wrapped
  rcases hget : m.getTransaction c d s with ⟨e | t, s₁⟩
  · rw [hw.refused hget]
    exact .refused hget .nil
  · obtain ⟨st, hst, hopen⟩ := (hinner t s₁).restores.still_open hget
    rw [hw.session hget]
    exact .scope hget (hinner t s₁) hst hopen .nil

theorem CallTree.bracketed (tree : CallTree m c τ) (s : Session σ ρ ς) :
    Bracketed m c s (tree.calls s) (tree.run s).2 := by
  induction tree generalizing s with
  | answer outcome => exact .nil
  | work w next ih => exact .own w (ih (w.run s) (w.run s))
  | template d body next ihbody ih =>
    have hwrapped := (template_wraps m c d fun t => (body t).run).bracketed ihbody s
    exact hwrapped.append (ih _ _)
  | intercepted source operation body next ihbody ih =>
    refine .append (?_ : Bracketed m c s _ (m.intercepted c source operation body.run s).2) (ih _ _)
    split
    · rename_i hsource
      rw [intercepted_unknown m c body.run hsource]
      exact ihbody s
    · rename_i a hsource
      exact (intercepted_wraps m c body.run hsource).bracketed (fun _ => ihbody) s

/-- Nested calls in one context, for every manager with whatever failures of its native operations, and
for every tree of bodies that answer what they like and swallow or hand on what their calls answer.

A wrapper that gets no scope answers the error of the manager and does not run its body. A body's failure
is answered whatever becomes of its scope, which a template rolls back, and a transactional step too
unless the first rule that recognizes the failure says otherwise. A body's result is answered if its
commit succeeds, and the error of the commit otherwise. An operation that the source does not know runs by
itself.

Over a whole tree the calls of the manager are bracketed: each scope that is opened is completed once, while it
is open and behind every scope that was opened inside it. When the tree has returned, no scope of it is left
open, no other one was completed, and everything is bound that was bound before, and not left suspended. -/
theorem nested_calls_close (m : Manager σ ρ ς) (c : ContextIndex) :
    (∀ (d : Definition) (body : Body σ ρ ς τ),
      Wraps m c d (fun _ => true) body (Template.execute ⟨m, d⟩ .whole c body)) ∧
    (∀ (source : AttributeSource) (operation : Operation) (body : StateM (Session σ ρ ς) (Outcome τ)),
      match source operation with
      | none => m.intercepted c source operation body = body
      | some a =>
        Wraps m c (a.definition.withName operation.name) a.rollsBackOn (fun _ => body)
          (m.intercepted c source operation body) ∧
        ∀ f, a.rollsBackOn f = false ↔ ∃ x, a.rules.find? (fun r => r.matcher.accepts f) = some (.commitOn x)) ∧
    ∀ (tree : CallTree m c τ) (s : Session σ ρ ς),
      let s' := (tree.run s).2
      Bracketed m c s (tree.calls s) s' ∧ Restores s s' ∧
      (∀ t, (tree.calls s).countP (·.concludes t) =
        if s.statuses.size ≤ t ∧ t < s'.statuses.size then 1 else 0) ∧
      (c < s.registries.size → m.Attached c s → m.Attached c s' ∧ ∀ c' k, s'.bound c' k = s.bound c' k) := by
  refine ⟨?_, ?_, ?_⟩
  · intro d body
    exact template_wraps m c d body
  · intro source operation body
    split
    · rename_i hsource
      exact intercepted_unknown m c body hsource
    · rename_i a hsource
      exact ⟨intercepted_wraps m c body hsource, fun f => Attribute.rollsBackOn_eq_false⟩
  · intro tree s s'
    have hcalls : Bracketed m c s (tree.calls s) s' := tree.bracketed s
    refine ⟨hcalls, hcalls.restores, hcalls.concluded_once, fun hc hattached => ?_⟩
    have hafter := hcalls.nested (hattached.start hc)
    exact ⟨hafter.is_attached, hafter.bound_outside⟩

/-- A template calls a step with a transaction of its own, which is committed over the failure of its
body, and swallows the failure. -/
theorem nested_calls_close_swallowing :
    let m : Manager Store ConnectionId Savepoint := { backend := Store.backend ⟨7⟩ .all }
    let source : AttributeSource := .fixed
      { definition := { propagation := .requiresNew }, rules := [.commitOn ⟨"any", fun _ => true⟩] }
    let tree : CallTree m 0 Nat := .template {} (fun _ => .intercepted source { name := "audit" }
      (.answer (.error (.foreign "E" "text" none))) fun _ => .answer (.ok 1)) .answer
    let s : Session Store ConnectionId Savepoint :=
      { registries := #[{ context := ⟨1⟩ }], native := { key := ⟨7⟩ } }
    let s' := (tree.run s).2
    (tree.run s).1.isOk = true ∧ s'.statuses.size = 2 ∧
      (∀ t, t < 2 → (tree.calls s).countP (·.concludes t) = 1) ∧ ∀ c' k, s'.bound c' k = s.bound c' k := by
  intro m source tree s s'
  have hsize : s'.statuses.size = 2 := by decide
  have hnone : s.bound 0 m.backend.key = none := by decide
  have hattached : m.Attached 0 s := by
    intro h hb
    rw [hnone] at hb
    cases hb
  obtain ⟨-, -, honce, hbound⟩ := (nested_calls_close m 0).2.2 tree s
  refine ⟨by decide, hsize, ?_, ?_⟩
  · intro t ht
    rw [honce, if_pos ⟨Nat.zero_le t, hsize ▸ ht⟩]
  · exact (hbound (by decide) hattached).2

end Demarcation
