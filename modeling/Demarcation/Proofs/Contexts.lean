/-
Nested scopes in several contexts at once. Each context completes its scopes from the inside out, in any order
with the calls in the others. No transaction is in two contexts, and a call in one context leaves the scopes and
transactions of the others alone.
-/
import Demarcation.Proofs.Whereabouts
import Mathlib.Logic.Function.Basic

namespace Demarcation

open Session Manager

variable {σ ρ ς α : Type}

/-- A session with the open scopes of every context, the innermost one first. -/
structure Nests (σ ρ ς : Type) where
  session : Session σ ρ ς
  scopes : ContextIndex → List (OpenScope σ ρ ς) := fun _ => []

namespace Nests

/-- The session with the open scopes of one context. -/
def within (n : Nests σ ρ ς) (c : ContextIndex) : Nest σ ρ ς := ⟨n.session, n.scopes c⟩

/-- The session and the open scopes of one context become others. -/
def update (n : Nests σ ρ ς) (c : ContextIndex) (n' : Nest σ ρ ς) : Nests σ ρ ς :=
  ⟨n'.session, Function.update n.scopes c n'.scopes⟩

/-- One call in one context. -/
def step (m : Manager σ ρ ς) (act : α → Session σ ρ ς → Session σ ρ ς) (n : Nests σ ρ ς)
    (call : ContextIndex × ScopeCall α) : Nests σ ρ ς :=
  n.update call.1 ((n.within call.1).step m call.1 act call.2)

/-- Calls one after another. -/
def run (m : Manager σ ρ ς) (act : α → Session σ ρ ς → Session σ ρ ς)
    (calls : List (ContextIndex × ScopeCall α)) (n : Nests σ ρ ς) : Nests σ ρ ς :=
  calls.foldl (step m act) n

theorem within_update_self (n : Nests σ ρ ς) (c : ContextIndex) (n' : Nest σ ρ ς) :
    (n.update c n').within c = n' := by
  simp [update, within]

theorem within_update_of_ne (n : Nests σ ρ ς) {c c' : ContextIndex} (hne : c' ≠ c) (n' : Nest σ ρ ς) :
    (n.update c n').within c' = ⟨n'.session, n.scopes c'⟩ := by
  simp [update, within, hne]

end Nests

/-- The registries, holders and statuses are the same. -/
structure Session.Elapsed (s s' : Session σ ρ ς) : Prop where
  registries : s'.registries = s.registries
  holders : s'.holders = s.holders
  statuses : s'.statuses = s.statuses

theorem Session.Elapsed.quiet {s s' : Session σ ρ ς} (he : Elapsed s s') : Quiet s s' :=
  .of_alike ⟨he.statuses, fun h => congrArg (fun hs => (hs[h]?).map _) he.holders⟩ he.registries

theorem Manager.Opening.size {m : Manager σ ρ ς} {c : ContextIndex} {d : Definition} {s s' : Session σ ρ ς}
    {r : Except TransactionError StatusId} (ho : Opening m c d s r s') :
    s'.registries.size = s.registries.size := by
  have hbeginning : ∀ {s s' : Session σ ρ ς} {r : Except TransactionError HolderId}, Beginning m c d s r s' →
      s'.registries.size = s.registries.size := by
    intro s s' r hb
    cases hb with
    | refused | failed => rfl
    | begun => exact putBinding_size _ _ _ _
  cases ho with
  | refused | untransacted | suspendFailed | savepointFailed | nested | joined => rfl
  | beginFailed _ hbegin => exact hbeginning hbegin
  | begun _ _ hbegin => exact (hbeginning hbegin :)
  | @detached h _ n => exact detach_size (s.withNative n) c _ h
  | renewed _ _ _ _ _ _ hbegin => exact (hbeginning hbegin).trans (detach_size _ _ _ _)
  | @renewFailed h _ _ _ s₁ _ _ _ _ _ _ _ _ hbegin hres =>
    have hsize : s₁.registries.size = s.registries.size := (hbeginning hbegin).trans (detach_size _ _ _ _)
    rcases resume_spec m c h s₁ with ⟨_, _, hrun⟩ | ⟨_, hrun⟩
    · obtain ⟨-, rfl⟩ := Prod.mk.inj (hres.symm.trans hrun)
      exact hsize
    · obtain ⟨-, rfl⟩ := Prod.mk.inj (hres.symm.trans hrun)
      exact (attach_size _ _ _ _).trans hsize

/-- What is bound where a scope cannot be opened stays bound. -/
theorem Manager.Opening.bound_failed {m : Manager σ ρ ς} {c : ContextIndex} {d : Definition} {s s' : Session σ ρ ς}
    {e : TransactionError} (ho : Opening m c d s (.error e) s') (hc : c < s.registries.size) :
    s'.bound c m.backend.key = s.bound c m.backend.key := by
  cases ho with
  | refused | suspendFailed | savepointFailed => rfl
  | beginFailed _ hbegin => exact hbegin.quiet.bound c _
  | @renewFailed h x n _ s₁ _ _ hb hx _ _ _ _ hbegin hres =>
    have hsize : c < s₁.registries.size := by
      rw [hbegin.quiet.registries, detach_size]
      exact hc
    rw [resume_after_failure hx hbegin] at hres
    obtain ⟨-, rfl⟩ := Prod.mk.inj hres
    rw [bound_withNative, bound_attach _ _ _ _ _ _ hsize, if_pos ⟨rfl, rfl⟩, hb]

theorem Manager.Opening.grown {m : Manager σ ρ ς} {c : ContextIndex} {d : Definition} {s s' : Session σ ρ ς}
    {r : Except TransactionError StatusId} (ho : Opening m c d s r s') : s.holders.size ≤ s'.holders.size := by
  cases ho.outline (.const m.backend) with
  | failed halike => exact Nat.le_of_eq halike.holders_size.symm
  | entered halike => exact Nat.le_of_eq halike.holders_size.symm
  | @begun s₁ st x n halike =>
    refine Nat.le_trans (Nat.le_of_eq halike.holders_size.symm) ?_
    exact Nat.le_of_lt (Nat.lt_of_lt_of_eq (Nat.lt_succ_self _) (started_size s₁ c m.backend.key x n).symm)

/-- A new transaction is bound. -/
theorem Manager.Opening.bound_begun {m : Manager σ ρ ς} {c : ContextIndex} {d : Definition} {s s' : Session σ ρ ς}
    {r : Except TransactionError StatusId} (ho : Opening m c d s r s') (hc : c < s.registries.size) {h : HolderId}
    (hold : s.holders.size ≤ h) (hnew : h < s'.holders.size) : s'.bound c m.backend.key = some h := by
  have hcontext := ho.size
  cases ho.outline (.const m.backend) with
  | failed halike => exact absurd (halike.holders_size ▸ hnew) (Nat.not_lt.2 hold)
  | @entered s₁ st halike =>
    have hsame : s₁.holders.size = s.holders.size := halike.holders_size
    exact absurd (hsame ▸ hnew : h < s.holders.size) (Nat.not_lt.2 hold)
  | @begun s₁ st x n halike =>
    have hsame : s₁.holders.size = s.holders.size := halike.holders_size
    have hgrown := started_size s₁ c m.backend.key x n
    obtain rfl : h = s₁.holders.size :=
      Nat.le_antisymm (Nat.le_of_lt_succ (Nat.lt_of_lt_of_eq hnew hgrown)) (hsame ▸ hold)
    refine (bound_putBinding _ _ _ _ _ ?_ _).trans (if_pos ⟨rfl, rfl⟩)
    rw [← hcontext] at hc
    exact Nat.lt_of_lt_of_eq hc (putBinding_size _ _ _ _)

/-! ## One context -/

namespace Nest

variable {m : Manager σ ρ ς} {c c' : ContextIndex} {act : α → Session σ ρ ς → Session σ ρ ς} {n n' : Nest σ ρ ς}
  {h : HolderId}

/-- A transaction of a context: it is bound there, or comes back with a scope. -/
def Has (m : Manager σ ρ ς) (c : ContextIndex) (n : Nest σ ρ ς) (h : HolderId) : Prop :=
  some h ∈ n.session.bound c m.backend.key :: n.scopes.map (OpenScope.before · m c)

/-- What holds in a context between two calls: its scopes lead back from what is bound to nothing. -/
structure Sound (m : Manager σ ρ ς) (c : ContextIndex) (n : Nest σ ρ ς) : Prop where
  context : c < n.session.registries.size
  stacked : StackedOn m c n.session none (n.session.bound c m.backend.key) n.scopes
  attached : ∀ h x, n.session.bound c m.backend.key = some h → n.session.holder? h = some x →
    x.suspended = false

theorem Has.bound (hb : n.session.bound c m.backend.key = some h) : Has m c n h := List.mem_cons.2 (.inl hb.symm)

theorem not_has_of_free {s : Session σ ρ ς} (hfree : s.bound c m.backend.key = none) : ¬ Has m c ⟨s, []⟩ h := by
  rw [Has, hfree]
  simp

theorem Sound.live (hs : n.Sound m c) (hh : Has m c n h) : n.session.Live m.backend.kind h := by
  rcases List.mem_cons.1 hh with hb | hmem
  · exact hs.stacked.live hb.symm
  · exact hs.stacked.live_before h hmem

theorem Sound.has_lt (hs : n.Sound m c) (hh : Has m c n h) : h < n.session.holders.size := by
  obtain ⟨x, hx, -⟩ := hs.live hh
  exact holder?_lt hx

end Nest

/-- What a scope contributes to the way back. -/
def OpenScope.link (m : Manager σ ρ ς) (c : ContextIndex) (x : OpenScope σ ρ ς) : StatusId × Option HolderId :=
  (x.status, x.before m c)

section Links

variable {m : Manager σ ρ ς} {c : ContextIndex} {s : Session σ ρ ς} {base b : Option HolderId}
  {scopes scopes' : List (OpenScope σ ρ ς)}

theorem status_of_links (heq : scopes'.map (OpenScope.link m c) = scopes.map (OpenScope.link m c)) :
    scopes'.map OpenScope.status = scopes.map OpenScope.status := by
  simpa [List.map_map, Function.comp_def, OpenScope.link] using congrArg (List.map Prod.fst) heq

theorem before_of_links (heq : scopes'.map (OpenScope.link m c) = scopes.map (OpenScope.link m c)) :
    scopes'.map (OpenScope.before · m c) = scopes.map (OpenScope.before · m c) := by
  simpa [List.map_map, Function.comp_def, OpenScope.link] using congrArg (List.map Prod.snd) heq

/-- Of the sessions in which scopes were opened, only what was bound there counts. -/
theorem StackedOn.congr (hs : StackedOn m c s base b scopes)
    (heq : scopes'.map (OpenScope.link m c) = scopes.map (OpenScope.link m c)) :
    StackedOn m c s base b scopes' := by
  induction hs generalizing scopes' with
  | bottom hbase =>
    obtain rfl := List.map_eq_nil_iff.1 heq
    exact .bottom hbase
  | @scope x rest bound st hst hopen hnew hlink hlive hfresh hrest ih =>
    rcases scopes' with _ | ⟨y, rest'⟩
    · cases heq
    · have hbefore := before_of_links heq
      obtain ⟨hxy, hrests⟩ := List.cons.inj heq
      obtain ⟨hstatus, hback⟩ := Prod.mk.inj hxy
      refine .scope (hstatus ▸ hst) hopen ?_ (hback ▸ hlink) hlive (hbefore ▸ hfresh) ?_
      · rw [hstatus, status_of_links hrests]
        exact hnew
      · rw [hback]
        exact ih hrests

end Links

/-- The session with something else bound, or nothing. -/
def Session.rebound (s : Session σ ρ ς) (c : ContextIndex) (key : ResourceKey) : Option HolderId → Session σ ρ ς
  | none => s.dropBinding c key
  | some h => s.putBinding c key h

theorem Session.bound_rebound {s : Session σ ρ ς} {c : ContextIndex} (hc : c < s.registries.size)
    (key : ResourceKey) (b : Option HolderId) (c' : ContextIndex) (k : ResourceKey) :
    (s.rebound c key b).bound c' k = if c' = c ∧ k = key then b else s.bound c' k := by
  cases b with
  | none => exact bound_dropBinding s c c' key k
  | some h => exact bound_putBinding s c c' key k hc h

namespace Nest

variable {m : Manager σ ρ ς} {c c' : ContextIndex} {act : α → Session σ ρ ς → Session σ ρ ς} {n n' : Nest σ ρ ς}
  {s s' s₀ : Session σ ρ ς} {scopes : List (OpenScope σ ρ ς)} {h : HolderId}

/-- Seen from one context, its scopes might have been opened while the other contexts were as they are now. -/
theorem Sound.nested (hs : n.Sound m c) : ∃ scopes : List (OpenScope σ ρ ς),
    scopes.map (OpenScope.link m c) = n.scopes.map (OpenScope.link m c) ∧
      Nested m c n.session ⟨n.session, scopes⟩ := by
  let moved (x : OpenScope σ ρ ς) : OpenScope σ ρ ς := ⟨x.status, n.session.rebound c m.backend.key (x.before m c)⟩
  have hlink : ∀ x, (moved x).link m c = x.link m c := by
    intro x
    refine Prod.ext rfl ((bound_rebound hs.context _ _ _ _).trans (if_pos ⟨rfl, rfl⟩))
  have hlinks : (n.scopes.map moved).map (OpenScope.link m c) = n.scopes.map (OpenScope.link m c) := by
    rw [List.map_map]
    exact List.map_congr_left fun x _ => hlink x
  refine ⟨n.scopes.map moved, hlinks, hs.context, hs.stacked.congr hlinks, hs.attached, fun _ _ _ => rfl, ?_⟩
  intro x hx c' k hne
  obtain ⟨y, -, rfl⟩ := List.mem_map.1 hx
  exact (bound_rebound hs.context _ _ _ _).trans (if_neg hne)

theorem Sound.of_nested (hn : Nested m c s₀ n') (hsession : n.session = n'.session)
    (heq : n.scopes.map (OpenScope.link m c) = n'.scopes.map (OpenScope.link m c)) : n.Sound m c := by
  refine ⟨hsession ▸ hn.context, ?_, hsession ▸ hn.attached⟩
  rw [hsession]
  exact hn.stacked.congr heq

/-- A call does not depend on the sessions in which scopes were opened. -/
theorem step_congr {scopes' : List (OpenScope σ ρ ς)}
    (heq : scopes'.map (OpenScope.link m c) = scopes.map (OpenScope.link m c))
    (act : α → Session σ ρ ς → Session σ ρ ς) (call : ScopeCall α) :
    let n : Nest σ ρ ς := ⟨s, scopes⟩
    let n' : Nest σ ρ ς := ⟨s, scopes'⟩
    (n'.step m c act call).session = (n.step m c act call).session ∧
      (n'.step m c act call).scopes.map (OpenScope.link m c) =
        (n.step m c act call).scopes.map (OpenScope.link m c) := by
  intro n n'
  cases call with
  | enter d =>
    unfold step entered
    dsimp only [n, n']
    rcases m.getTransaction c d s with ⟨_ | t, s''⟩
    · exact ⟨rfl, heq⟩
    · exact ⟨rfl, congrArg (List.cons _) heq⟩
  | leave commit =>
    rcases scopes with _ | ⟨x, rest⟩ <;> rcases scopes' with _ | ⟨y, rest'⟩
    · exact ⟨rfl, rfl⟩
    · cases heq
    · cases heq
    · obtain ⟨hxy, hrests⟩ := List.cons.inj heq
      have hstatus : y.status = x.status := congrArg Prod.fst hxy
      refine ⟨?_, hrests⟩
      show (m.conclude commit c y.status s).2 = (m.conclude commit c x.status s).2
      rw [hstatus]
  | mark t => exact ⟨rfl, heq⟩
  | act a => exact ⟨rfl, heq⟩

theorem Sound.step (hs : n.Sound m c) (hact : ∀ a s, Elapsed s (act a s)) (call : ScopeCall α) :
    (n.step m c act call).Sound m c := by
  obtain ⟨scopes, hlinks, hn⟩ := hs.nested
  obtain ⟨hsession, hlinks'⟩ := step_congr hlinks act call
  exact .of_nested (hn.step act call fun a _ => (hact a _).quiet) hsession.symm hlinks'.symm

/-! ## What a call leaves alone -/

/-- What a call in a context leaves alone: what other contexts bind, the scopes that are not its own, and the
transactions that are not its own. -/
structure Spared (m : Manager σ ρ ς) (c : ContextIndex) (n n' : Nest σ ρ ς) : Prop where
  size : n'.session.registries.size = n.session.registries.size
  bound : ∀ c', c' ≠ c → n'.session.bound c' m.backend.key = n.session.bound c' m.backend.key
  statuses : ∀ t st, t ∉ n.scopes.map OpenScope.status → n.session.status? t = some st →
    ∃ st', n'.session.status? t = some st' ∧ st'.unmarked = st.unmarked
  holders : ∀ h x, ¬ Has m c n h → n.session.holder? h = some x → n'.session.holder? h = some x
  /-- Only a new transaction can become one of the context. -/
  has : ∀ h, Has m c n' h → Has m c n h ∨ n.session.holders.size ≤ h
  scopes : ∀ x ∈ n'.scopes, x ∈ n.scopes ∨ n.session.statuses.size ≤ x.status

theorem Spared.elapsed (he : Elapsed n.session s') : Spared m c n { n with session := s' } := by
  have hbound : ∀ c', s'.bound c' m.backend.key = n.session.bound c' m.backend.key := fun c' => he.quiet.bound c' _
  refine ⟨by rw [he.registries], fun c' _ => hbound c', fun t st _ hst => he.quiet.status hst, fun h x _ hx => ?_,
    fun h hh => .inl ?_, fun x hx => .inl hx⟩
  · rw [← hx]
    exact congrArg (·[h]?) he.holders
  · unfold Has at hh ⊢
    rwa [hbound] at hh

theorem Spared.setRollbackOnly (n : Nest σ ρ ς) (t : StatusId) :
    Spared m c n { n with session := n.session.setRollbackOnly t } :=
  ⟨rfl, fun _ _ => rfl, fun _ _ _ hst => (Quiet.setRollbackOnly n.session t).status hst, fun _ _ _ hx => hx,
    fun _ hh => .inl hh, fun _ hx => .inl hx⟩

/-! ## The calls of one context -/

theorem Sound.purge_eq (hs : n.Sound m c) : n.session.purge c m.backend.key = n.session := by
  obtain ⟨scopes, -, hn⟩ := hs.nested
  exact hn.purge_eq

theorem Sound.enters (hs : n.Sound m c) (act : α → Session σ ρ ς → Session σ ρ ς) (d : Definition) :
    ∃ r s', m.getTransaction c d n.session = (r, s') ∧ Opening m c d n.session r s' ∧
      n.step m c act (.enter d) = n.entered (r, s') := by
  obtain ⟨r, s', hrun, hopen⟩ := getTransaction_spec m c d n.session
  rw [hs.purge_eq] at hopen
  exact ⟨r, s', hrun, hopen, congrArg n.entered hrun⟩

theorem Sound.leaves (hs : n.Sound m c) (act : α → Session σ ρ ς → Session σ ρ ς) {x : OpenScope σ ρ ς}
    {rest : List (OpenScope σ ρ ς)} (hscopes : n.scopes = x :: rest) (commit : Bool) :
    ∃ st r s', n.session.status? x.status = some st ∧ Concluding m commit c x.status st n.session r s' ∧
      m.conclude commit c x.status n.session = (r, s') ∧
      Link st (x.before m c) (n.session.bound c m.backend.key) ∧
      n.step m c act (.leave commit) = ⟨s', rest⟩ := by
  have hstacked := hs.stacked
  rw [hscopes] at hstacked
  obtain ⟨st, hst, hopen, -, hlink, -⟩ := hstacked.top
  obtain ⟨r, s', hrun, hc⟩ := conclude_spec m commit c hst hopen
  refine ⟨st, r, s', hst, hc, hrun, hlink, ?_⟩
  rw [step_leave_cons hscopes, hrun]

theorem Sound.bound_other (hs : n.Sound m c) (hact : ∀ a s, Elapsed s (act a s)) (call : ScopeCall α)
    (hne : c' ≠ c) : (n.step m c act call).session.bound c' m.backend.key = n.session.bound c' m.backend.key := by
  obtain ⟨scopes, hlinks, hn⟩ := hs.nested
  obtain ⟨hsession, -⟩ := step_congr hlinks act call
  rw [← hsession]
  exact (hn.step act call fun a _ => (hact a _).quiet).others c' _ fun heq => hne heq.1

theorem Sound.spared_enter (hs : n.Sound m c) (hact : ∀ a s, Elapsed s (act a s)) (d : Definition) :
    Spared m c n (n.step m c act (.enter d)) := by
  have hbound : ∀ c', c' ≠ c → _ := fun c' hne => hs.bound_other hact (.enter d) hne
  have hstatuses := getTransaction_statuses m c d n.session
  obtain ⟨r, s', hrun, hopen, hstep⟩ := hs.enters act d
  rw [hstep] at hbound ⊢
  rw [hrun] at hstatuses
  have hholders : ∀ h x, ¬ Has m c n h → n.session.holder? h = some x → s'.holder? h = some x := by
    intro h x hno hx
    rw [hopen.holder?_unbound (fun hb => hno (.bound hb)) (holder?_lt hx), hx]
  have hnew : ∀ h, s'.bound c m.backend.key = some h → Has m c n h ∨ n.session.holders.size ≤ h := by
    intro h hb
    rcases hopen.bound_new hs.context hb with hold | rfl
    · exact .inl (.bound hold)
    · exact .inr (Nat.le_refl _)
  cases r with
  | error e =>
    refine ⟨hopen.size, hbound, fun t st _ hst => ⟨st, ?_, rfl⟩, hholders, fun h hh => ?_,
      fun x hx => .inl hx⟩
    · rw [← hst]
      exact congrArg (·[t]?) hstatuses
    · rcases List.mem_cons.1 hh with hb | hmem
      · exact hnew h hb.symm
      · exact .inl (List.mem_cons_of_mem _ hmem)
  | ok t =>
    obtain ⟨rfl, st', hpushed, -⟩ := hstatuses
    refine ⟨hopen.size, hbound, fun t st _ hst => ⟨st, ?_, rfl⟩, hholders, fun h hh => ?_,
      fun x hx => ?_⟩
    · show s'.status? t = some st
      rw [status?_pushed hpushed, if_neg (Nat.ne_of_lt (status?_lt hst))]
      exact hst
    · -- behind the new scope is what was bound
      rcases List.mem_cons.1 hh with hb | hmem
      · exact hnew h hb.symm
      · exact .inl hmem
    · rcases List.mem_cons.1 hx with rfl | hx
      · exact .inr (Nat.le_refl _)
      · exact .inl hx

section Leaving

variable {x : OpenScope σ ρ ς} {rest : List (OpenScope σ ρ ς)}

theorem Sound.nested_cons (hs : n.Sound m c) (hscopes : n.scopes = x :: rest) :
    ∃ y rest', y.status = x.status ∧ y.before m c = x.before m c ∧
      (y :: rest').map (OpenScope.before · m c) = n.scopes.map (OpenScope.before · m c) ∧
      Nested m c n.session ⟨n.session, y :: rest'⟩ := by
  obtain ⟨scopes, hlinks, hn⟩ := hs.nested
  have hbefores := before_of_links hlinks
  rw [hscopes] at hlinks
  rcases scopes with _ | ⟨y, rest'⟩
  · cases hlinks
  · obtain ⟨hstatus, hbefore⟩ := Prod.mk.inj (List.cons.inj hlinks).1
    exact ⟨y, rest', hstatus, hbefore, hbefores, hn⟩

theorem Sound.closed (hs : n.Sound m c) (hscopes : n.scopes = x :: rest) (commit : Bool) :
    Rebound m c x.status (n.scopes.map (OpenScope.before · m c)) n.session (x.before m c)
      (m.conclude commit c x.status n.session).2 := by
  obtain ⟨y, rest', hstatus, hbefore, hbefores, hn⟩ := hs.nested_cons hscopes
  have hclosed := hn.closed commit
  rwa [hstatus, hbefore, hbefores] at hclosed

/-- Nothing is bound when a scope comes to resume what it suspended. -/
theorem Sound.released (hs : n.Sound m c) (hscopes : n.scopes = x :: rest) {st : Status ς} {s₁ s₂ : Session σ ρ ς}
    {state : TransactionState} {r : Except TransactionError Unit} (hst : n.session.status? x.status = some st)
    (hq : Quiet n.session s₁) (hrel : Releasing m c st (s₁.endStatus x.status state) r s₂) (h : HolderId)
    (hsus : st.suspended = some h) : s₂.bound c m.backend.key = none := by
  obtain ⟨y, rest', hstatus, -, -, hn⟩ := hs.nested_cons hscopes
  rw [← hstatus] at hst hrel
  have hreleased := hn.released hst hq hrel
  rw [hreleased.bound, if_pos ⟨rfl, rfl⟩, hsus]
  rfl

end Leaving

theorem Sound.spared_leave (hs : n.Sound m c) (act : α → Session σ ρ ς → Session σ ρ ς) (commit : Bool) :
    Spared m c n (n.step m c act (.leave commit)) := by
  cases hscopes : n.scopes with
  | nil =>
    rw [step_leave_nil hscopes]
    exact .elapsed ⟨rfl, rfl, rfl⟩
  | cons x rest =>
    have hclosed := hs.closed hscopes commit
    obtain ⟨st, r, s', hst, hc, hrun, hlink, hstep⟩ := hs.leaves act hscopes commit
    rw [hrun] at hclosed
    rw [hstep]
    have hhas : ∀ {h}, some h ∈ (x :: rest).map (OpenScope.before · m c) → Has m c n h := by
      intro h hmem
      rw [← hscopes] at hmem
      exact List.mem_cons_of_mem _ hmem
    refine ⟨hclosed.size, fun c' hne => ?_, fun t st' hout hst' => ?_, fun h x hno hx => ?_, fun h hh => .inl ?_,
      fun y hy => .inl (hscopes ▸ List.mem_cons_of_mem _ hy)⟩
    · rw [hclosed.bound, if_neg fun heq => hne heq.1]
    · refine hclosed.statuses t st' ?_ hst'
      rintro rfl
      exact hout (hscopes ▸ List.mem_cons_self)
    · rw [hc.holder?_untouched (fun hh => ?_) fun hsus => ?_, hx]
      · exact hno (.bound (hlink.bound_of_holder hh))
      · exact hno (hhas (List.mem_cons.2 (.inl (hlink.before_of_suspended hsus).symm)))
    · -- what comes back was there before the scope
      rw [Has, hclosed.bound, if_pos ⟨rfl, rfl⟩] at hh
      exact hhas hh

theorem Sound.spared (hs : n.Sound m c) (hact : ∀ a s, Elapsed s (act a s)) (call : ScopeCall α) :
    Spared m c n (n.step m c act call) := by
  cases call with
  | enter d => exact hs.spared_enter hact d
  | leave commit => exact hs.spared_leave act commit
  | mark t => exact .setRollbackOnly n t
  | act a => exact .elapsed (hact a n.session)

/-- A call in one context leaves another one sound, if they share neither scopes nor transactions. -/
theorem Sound.beside (hs : n.Sound m c) {n₁ n₂ : Nest σ ρ ς} (hspared : Spared m c' n₁ n₂)
    (hsession : n₁.session = n.session) (hne : c ≠ c')
    (hstatuses : ∀ x ∈ n.scopes, x.status ∉ n₁.scopes.map OpenScope.status)
    (hholders : ∀ h, Has m c n h → ¬ Has m c' n₁ h) : Sound m c { n with session := n₂.session } := by
  have hbound := hspared.bound c hne
  have hsize := hspared.size
  have hsame := hspared.holders
  have hold := hspared.statuses
  rw [hsession] at hbound hsize hsame hold
  refine ⟨hsize ▸ hs.context, ?_, fun h x hb hx => ?_⟩
  · show StackedOn m c n₂.session none (n₂.session.bound c m.backend.key) n.scopes
    rw [hbound]
    refine hs.stacked.mono (fun x hx st hst => hold _ st (hstatuses x hx) hst) ?_
    rintro h hh ⟨x, hx, hl, hk⟩
    refine ⟨x, hsame h x (hholders h ?_) hx, hl, hk⟩
    exact hh.elim .bound (List.mem_cons_of_mem _)
  · have hb' : n.session.bound c m.backend.key = some h := hbound.symm.trans hb
    obtain ⟨y, hy, -⟩ := hs.live (.bound hb')
    obtain rfl : y = x := Option.some.inj ((hsame h y (hholders h (.bound hb')) hy).symm.trans hx)
    exact hs.attached h y hb' hy

end Nest

/-! ## All contexts -/

namespace Nests

variable {m : Manager σ ρ ς} {act : α → Session σ ρ ς → Session σ ρ ς} {n : Nests σ ρ ς} {s : Session σ ρ ς}

/-- What holds between two calls: every context is sound, and no two of them share a scope or a transaction. -/
structure Sound (m : Manager σ ρ ς) (n : Nests σ ρ ς) : Prop where
  each : ∀ c, c < n.session.registries.size → (n.within c).Sound m c
  disjoint : ∀ c c' h, c < n.session.registries.size → c' < n.session.registries.size → c ≠ c' →
    Nest.Has m c (n.within c) h → ¬ Nest.Has m c' (n.within c') h
  separate : ∀ c c', c < n.session.registries.size → c' < n.session.registries.size → c ≠ c' →
    ∀ x ∈ n.scopes c, ∀ y ∈ n.scopes c', x.status ≠ y.status

theorem Sound.start (hfree : ∀ c, s.bound c m.backend.key = none) : Sound m (⟨s, fun _ => []⟩ : Nests σ ρ ς) := by
  refine ⟨fun c hc => ⟨hc, ?_, fun h x hb => ?_⟩, fun c _ h _ _ _ hh => absurd hh (Nest.not_has_of_free (hfree c)),
    fun _ _ _ _ _ => nofun⟩
  · show StackedOn m c s none (s.bound c m.backend.key) []
    rw [hfree]
    exact .bottom nofun
  · cases (hfree c).symm.trans hb

/-- The other contexts keep their transactions. -/
theorem has_update_iff {c c' : ContextIndex} {n' : Nest σ ρ ς} (hspared : (n.within c).Spared m c n') (hne : c' ≠ c)
    (h : HolderId) : Nest.Has m c' ((n.update c n').within c') h ↔ Nest.Has m c' (n.within c') h := by
  rw [within_update_of_ne n hne, Nest.Has, Nest.Has]
  dsimp only
  rw [hspared.bound c' hne]
  rfl

/-- Nothing but one context changed, and what it left alone is as it was. -/
theorem Sound.updated (hn : n.Sound m) {c : ContextIndex} (hc : c < n.session.registries.size) {n' : Nest σ ρ ς}
    (hsound : n'.Sound m c) (hspared : (n.within c).Spared m c n') : (n.update c n').Sound m := by
  have hsize : (n.update c n').session.registries.size = n.session.registries.size := hspared.size
  -- what is new in the context is in no other one
  have hholders : ∀ {c' h}, c' < n.session.registries.size → c' ≠ c → Nest.Has m c n' h →
      ¬ Nest.Has m c' (n.within c') h := by
    intro c' h hc' hne hh hh'
    rcases hspared.has h hh with hold | hnew
    · exact hn.disjoint c c' h hc hc' (Ne.symm hne) hold hh'
    · exact absurd ((hn.each c' hc').has_lt hh') (Nat.not_lt.2 hnew)
  have hscopes : ∀ {c'}, c' < n.session.registries.size → c' ≠ c → ∀ x ∈ n'.scopes, ∀ y ∈ n.scopes c',
      x.status ≠ y.status := by
    intro c' hc' hne x hx y hy
    rcases hspared.scopes x hx with hold | hnew
    · exact hn.separate c c' hc hc' (Ne.symm hne) x hold y hy
    · exact Ne.symm (Nat.ne_of_lt (Nat.lt_of_lt_of_le ((hn.each c' hc').stacked.status_lt y hy) hnew))
  refine ⟨fun c' hc' => ?_, fun c₁ c₂ h hc₁ hc₂ hne hh hh' => ?_, fun c₁ c₂ hc₁ hc₂ hne x hx y hy => ?_⟩
  · rw [hsize] at hc'
    by_cases heq : c' = c
    · subst heq
      rw [within_update_self]
      exact hsound
    · rw [within_update_of_ne n heq]
      refine (hn.each c' hc').beside hspared rfl heq (fun x hx hmem => ?_) fun h hh =>
        hn.disjoint c' c h hc' hc heq hh
      obtain ⟨y, hy, hstatus⟩ := List.mem_map.1 hmem
      exact hn.separate c c' hc hc' (Ne.symm heq) y hy x hx hstatus
  · rw [hsize] at hc₁ hc₂
    by_cases heq : c₁ = c
    · subst heq
      rw [within_update_self] at hh
      exact hholders hc₂ (Ne.symm hne) hh ((has_update_iff hspared (Ne.symm hne) h).1 hh')
    · by_cases heq' : c₂ = c
      · subst heq'
        rw [within_update_self] at hh'
        exact hholders hc₁ hne hh' ((has_update_iff hspared hne h).1 hh)
      · exact hn.disjoint c₁ c₂ h hc₁ hc₂ hne ((has_update_iff hspared heq h).1 hh)
          ((has_update_iff hspared heq' h).1 hh')
  · rw [hsize] at hc₁ hc₂
    have hself : (n.update c n').scopes c = n'.scopes := Function.update_self ..
    have hother : ∀ {c'}, c' ≠ c → (n.update c n').scopes c' = n.scopes c' := fun hne => Function.update_of_ne hne ..
    by_cases heq : c₁ = c
    · subst heq
      rw [hself] at hx
      rw [hother (Ne.symm hne)] at hy
      exact hscopes hc₂ (Ne.symm hne) x hx y hy
    · rw [hother heq] at hx
      by_cases heq' : c₂ = c
      · subst heq'
        rw [hself] at hy
        exact Ne.symm (hscopes hc₁ hne y hy x hx)
      · rw [hother heq'] at hy
        exact hn.separate c₁ c₂ hc₁ hc₂ hne x hx y hy

end Nests

end Demarcation
