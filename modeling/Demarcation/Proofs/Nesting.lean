/-
Nested scopes in one context. A client opens scopes and completes them from the inside out, and
in between it may do anything that is quiet. However the native operations end, completing a scope
binds again what was bound before the scope was opened.
-/
import Demarcation.Proofs.Session.Quiet
import Demarcation.Store

namespace Demarcation

open Session Manager

variable {σ ρ ς α : Type}

/-- A call of a client that nests its scopes: only the innermost scope can be left. -/
inductive ScopeCall (α : Type)
  | enter (d : Definition)
  | leave (commit : Bool)
  /-- A rollback is requested on any status. -/
  | mark (t : StatusId)
  /-- Something that is not a call of the manager. -/
  | act (a : α)

/-- A scope that is open, with the session just before it was opened. -/
structure OpenScope (σ ρ ς : Type) where
  status : StatusId
  origin : Session σ ρ ς

/-- A session with the open scopes of a context, the innermost one first. -/
structure Nest (σ ρ ς : Type) where
  session : Session σ ρ ς
  scopes : List (OpenScope σ ρ ς) := []

namespace Nest

/-- After an opening: a scope that could not be opened is not there. -/
def entered (n : Nest σ ρ ς) : Except TransactionError StatusId × Session σ ρ ς → Nest σ ρ ς
  | (.ok t, s) => ⟨s, ⟨t, n.session⟩ :: n.scopes⟩
  | (.error _, s) => { n with session := s }

/-- One call. Without an open scope there is nothing to leave. -/
def step (m : Manager σ ρ ς) (c : ContextIndex) (act : α → Session σ ρ ς → Session σ ρ ς)
    (n : Nest σ ρ ς) : ScopeCall α → Nest σ ρ ς
  | .enter d => n.entered (m.getTransaction c d n.session)
  | .leave commit =>
    match n.scopes with
    | [] => n
    | x :: rest => ⟨(m.conclude commit c x.status n.session).2, rest⟩
  | .mark t => { n with session := n.session.setRollbackOnly t }
  | .act a => { n with session := act a n.session }

theorem session_enter (m : Manager σ ρ ς) (c : ContextIndex) (act : α → Session σ ρ ς → Session σ ρ ς)
    (n : Nest σ ρ ς) (d : Definition) :
    (n.step m c act (.enter d)).session = (m.getTransaction c d n.session).2 := by
  show (n.entered (m.getTransaction c d n.session)).session = _
  rcases m.getTransaction c d n.session with ⟨_ | _, _⟩ <;> rfl

theorem step_leave_nil {m : Manager σ ρ ς} {c : ContextIndex} {act : α → Session σ ρ ς → Session σ ρ ς}
    {n : Nest σ ρ ς} (h : n.scopes = []) (commit : Bool) : n.step m c act (.leave commit) = n := by
  unfold step; rw [h]

theorem step_leave_cons {m : Manager σ ρ ς} {c : ContextIndex} {act : α → Session σ ρ ς → Session σ ρ ς}
    {n : Nest σ ρ ς} {x : OpenScope σ ρ ς} {rest : List (OpenScope σ ρ ς)} (h : n.scopes = x :: rest)
    (commit : Bool) :
    n.step m c act (.leave commit) = ⟨(m.conclude commit c x.status n.session).2, rest⟩ := by
  unfold step; rw [h]

/-- Calls one after another. -/
def run (m : Manager σ ρ ς) (c : ContextIndex) (act : α → Session σ ρ ς → Session σ ρ ς)
    (calls : List (ScopeCall α)) (n : Nest σ ρ ς) : Nest σ ρ ς :=
  calls.foldl (step m c act) n

theorem run_append (m : Manager σ ρ ς) (c : ContextIndex) (act : α → Session σ ρ ς → Session σ ρ ς) (n : Nest σ ρ ς)
    (before after : List (ScopeCall α)) :
    n.run m c act (before ++ after) = (n.run m c act before).run m c act after :=
  List.foldl_append ..

end Nest

/-- What was bound under the manager's key just before a scope was opened. -/
def OpenScope.before (x : OpenScope σ ρ ς) (m : Manager σ ρ ς) (c : ContextIndex) : Option HolderId :=
  x.origin.bound c m.backend.key

/-- A holder that a look-up of the kind finds. -/
def Session.Live (s : Session σ ρ ς) (kind : HolderKind) (h : HolderId) : Prop :=
  ∃ x, s.holder? h = some x ∧ x.cleared = false ∧ x.kind = kind

/-! ## The invariant -/

/-- How an open scope ties what was bound before it to what is bound inside it. -/
inductive Link (st : Status ς) : Option HolderId → Option HolderId → Prop
  | owner {h : HolderId} {before : Option HolderId} : st.holder = some h → st.newTransaction = true →
    st.suspended = before → Link st before (some h)
  | joined {h : HolderId} : st.holder = some h → st.newTransaction = false → st.suspended = none →
    Link st (some h) (some h)
  | detached {h : HolderId} : st.holder = none → st.newTransaction = false → st.suspended = some h →
    Link st (some h) none
  | plain : st.holder = none → st.newTransaction = false → st.suspended = none → Link st none none

section Unmarked

variable {ς : Type} {st st' : Status ς} (heq : st'.unmarked = st.unmarked)
include heq

theorem isCompleted_of_unmarked : st'.isCompleted = st.isCompleted := by
  obtain ⟨on, rfl⟩ := Status.eq_of_unmarked heq
  rfl

theorem newTransaction_of_unmarked : st'.newTransaction = st.newTransaction := by
  obtain ⟨on, rfl⟩ := Status.eq_of_unmarked heq
  rfl

theorem Link.congr {before bound : Option HolderId} (h : Link st before bound) : Link st' before bound := by
  obtain ⟨on, rfl⟩ := Status.eq_of_unmarked heq
  cases h with
  | owner hh hn hs => exact .owner hh hn hs
  | joined hh hn hs => exact .joined hh hn hs
  | detached hh hn hs => exact .detached hh hn hs
  | plain hh hn hs => exact .plain hh hn hs

end Unmarked

theorem Link.bound_of_new {st : Status ς} {before bound : Option HolderId} (h : Link st before bound)
    (hnew : st.newTransaction = true) : ∃ h, bound = some h := by
  cases h with
  | owner => exact ⟨_, rfl⟩
  | joined => exact ⟨_, rfl⟩
  | detached _ hn _ | plain _ hn _ => rw [hnew] at hn; cases hn

theorem Link.bound_of_holder {st : Status ς} {before bound : Option HolderId} {h : HolderId}
    (hl : Link st before bound) (hh : st.holder = some h) : bound = some h := by
  cases hl with
  | owner hh' | joined hh' => exact hh'.symm.trans hh
  | detached hh' | plain hh' => rw [hh] at hh'; cases hh'

theorem Link.holder_of_new {st : Status ς} {before bound : Option HolderId} (hl : Link st before bound)
    (hnew : st.newTransaction = true) : ∃ h, st.holder = some h := by
  cases hl with
  | owner hh => exact ⟨_, hh⟩
  | joined _ hn | detached _ hn | plain _ hn => rw [hnew] at hn; cases hn

theorem Link.before_of_suspended {st : Status ς} {before bound : Option HolderId} {h : HolderId}
    (hl : Link st before bound) (hs : st.suspended = some h) : before = some h := by
  cases hl with
  | owner _ _ hs' | detached _ _ hs' => exact hs'.symm.trans hs
  | joined _ _ hs' | plain _ _ hs' => rw [hs] at hs'; cases hs'

/-- The open scopes lead from what is bound now, scope by scope, back to what was bound before all of them. -/
inductive StackedOn (m : Manager σ ρ ς) (c : ContextIndex) (s : Session σ ρ ς) (base : Option HolderId) :
    Option HolderId → List (OpenScope σ ρ ς) → Prop
  | bottom : (∀ h, base = some h → s.Live m.backend.kind h) → StackedOn m c s base base []
  | scope {x : OpenScope σ ρ ς} {rest : List (OpenScope σ ρ ς)} {bound : Option HolderId} {st : Status ς} :
    s.status? x.status = some st → st.isCompleted = false → x.status ∉ rest.map OpenScope.status →
    Link st (x.before m c) bound → (∀ h, bound = some h → s.Live m.backend.kind h) →
    (st.newTransaction = true → bound ∉ (x :: rest).map (OpenScope.before · m c)) →
    StackedOn m c s base (x.before m c) rest → StackedOn m c s base bound (x :: rest)

/-- What holds between two calls of a client that started in the session `s₀`, in which `base` was bound. -/
structure NestedOn (m : Manager σ ρ ς) (c : ContextIndex) (base : Option HolderId) (s₀ : Session σ ρ ς)
    (n : Nest σ ρ ς) : Prop where
  context : c < n.session.registries.size
  stacked : StackedOn m c n.session base (n.session.bound c m.backend.key) n.scopes
  attached : ∀ h x, n.session.bound c m.backend.key = some h → n.session.holder? h = some x →
    x.suspended = false
  others : ∀ c' k, ¬ (c' = c ∧ k = m.backend.key) → n.session.bound c' k = s₀.bound c' k
  origins : ∀ x ∈ n.scopes, ∀ c' k, ¬ (c' = c ∧ k = m.backend.key) → x.origin.bound c' k = s₀.bound c' k

/-- What holds if the client started without an open scope. -/
abbrev Nested (m : Manager σ ρ ς) (c : ContextIndex) (s₀ : Session σ ρ ς) (n : Nest σ ρ ς) : Prop :=
  NestedOn m c none s₀ n

variable {m : Manager σ ρ ς} {c : ContextIndex} {s s' s₀ : Session σ ρ ς} {n : Nest σ ρ ς}
  {base : Option HolderId}

namespace StackedOn

variable {b : Option HolderId} {scopes : List (OpenScope σ ρ ς)}

theorem live (hs : StackedOn m c s base b scopes) {h : HolderId} (hb : b = some h) : s.Live m.backend.kind h := by
  cases hs with
  | bottom hbase => exact hbase h hb
  | scope _ _ _ _ hlive _ _ => exact hlive h hb

theorem live_before (hs : StackedOn m c s base b scopes) :
    ∀ h, some h ∈ scopes.map (OpenScope.before · m c) → s.Live m.backend.kind h := by
  induction hs with
  | bottom => intro h hmem; cases hmem
  | scope _ _ _ _ _ _ hrest ih =>
    intro h hmem
    rcases List.mem_cons.1 hmem with heq | hmem
    · exact hrest.live heq.symm
    · exact ih h hmem

theorem top {x : OpenScope σ ρ ς} {rest : List (OpenScope σ ρ ς)} (hs : StackedOn m c s base b (x :: rest)) :
    ∃ st, s.status? x.status = some st ∧ st.isCompleted = false ∧ x.status ∉ rest.map OpenScope.status ∧
      Link st (x.before m c) b ∧
      (st.newTransaction = true → b ∉ (x :: rest).map (OpenScope.before · m c)) ∧
      StackedOn m c s base (x.before m c) rest := by
  cases hs with
  | scope hst hopen hnew hlink _ hfresh hrest => exact ⟨_, hst, hopen, hnew, hlink, hfresh, hrest⟩

/-- A scope that is open has its status in the session. -/
theorem status_lt (hs : StackedOn m c s base b scopes) : ∀ x ∈ scopes, x.status < s.statuses.size := by
  induction hs with
  | bottom => intro x hx; cases hx
  | scope hst _ _ _ _ _ _ ih =>
    intro x hx
    rcases List.mem_cons.1 hx with rfl | hx
    · exact status?_lt hst
    · exact ih x hx

/-- The scopes stay stacked while their statuses stay as they are, up to requests for a rollback, and
the holders that they lead back to stay live. -/
theorem mono (hs : StackedOn m c s base b scopes)
    (hstatus : ∀ x ∈ scopes, ∀ st, s.status? x.status = some st →
      ∃ st', s'.status? x.status = some st' ∧ st'.unmarked = st.unmarked)
    (hlive : ∀ h, b = some h ∨ some h ∈ scopes.map (OpenScope.before · m c) →
      s.Live m.backend.kind h → s'.Live m.backend.kind h) :
    StackedOn m c s' base b scopes := by
  induction hs with
  | bottom hbase => exact .bottom fun h hb => hlive h (.inl hb) (hbase h hb)
  | @scope x rest bound st hst hopen hnew hlink hl hfresh hrest ih =>
    obtain ⟨st', hst', heq⟩ := hstatus x (List.mem_cons_self ..) st hst
    refine .scope hst' ?_ hnew (hlink.congr heq) ?_ ?_ (ih ?_ ?_)
    · exact (isCompleted_of_unmarked heq).trans hopen
    · intro h hb
      exact hlive h (.inl hb) (hl h hb)
    · intro hown
      exact hfresh ((newTransaction_of_unmarked heq).symm.trans hown)
    · intro y hy
      exact hstatus y (List.mem_cons_of_mem _ hy)
    · intro h hb
      refine hlive h (.inr ?_)
      rcases hb with hb | hb
      · rw [List.map_cons, hb]; exact List.mem_cons_self ..
      · exact List.mem_cons_of_mem _ hb

end StackedOn

/-! ## What a call preserves -/

theorem Session.Live.of_quiet {kind : HolderKind} {h : HolderId} (hl : s.Live kind h) (hq : Quiet s s') :
    s'.Live kind h := by
  obtain ⟨x, hx, hcleared, hkind⟩ := hl
  obtain ⟨x', hx', heq⟩ := hq.holder hx
  refine ⟨x', hx', ?_, ?_⟩
  · show x'.resetRollbackOnly.cleared = false
    rw [heq]; exact hcleared
  · show x'.resetRollbackOnly.kind = kind
    rw [heq]; exact hkind

theorem Session.Live.modifyHolder {kind : HolderKind} {h : HolderId} (hl : s.Live kind h) (k : HolderId)
    {f : Holder ρ → Holder ρ} (hf : ∀ x, (f x).cleared = x.cleared ∧ (f x).kind = x.kind) :
    (s.modifyHolder k f).Live kind h := by
  obtain ⟨x, hx, hcleared, hkind⟩ := hl
  by_cases heq : h = k
  · refine ⟨f x, ?_, (hf x).1.trans hcleared, (hf x).2.trans hkind⟩
    rw [holder?_modifyHolder, if_pos heq, hx]; rfl
  · exact ⟨x, by rw [holder?_modifyHolder, if_neg heq]; exact hx, hcleared, hkind⟩

namespace NestedOn

/-- No scope was opened or completed. -/
theorem stay (hn : NestedOn m c base s₀ n) (hsize : s'.registries.size = n.session.registries.size)
    (hbound : ∀ c' k, s'.bound c' k = n.session.bound c' k)
    (hstatus : ∀ u st, n.session.status? u = some st →
      ∃ st', s'.status? u = some st' ∧ st'.unmarked = st.unmarked)
    (hholders : ∀ h, n.session.Live m.backend.kind h → s'.Live m.backend.kind h)
    (hattached : ∀ h x, n.session.bound c m.backend.key = some h → s'.holder? h = some x →
      x.suspended = false) :
    NestedOn m c base s₀ { n with session := s' } := by
  refine ⟨hsize ▸ hn.context, ?_, ?_, ?_, hn.origins⟩
  · show StackedOn m c s' base (s'.bound c m.backend.key) n.scopes
    rw [hbound]
    exact hn.stacked.mono (fun x _ st hst => hstatus x.status st hst) fun h _ => hholders h
  · intro h x hb hx
    exact hattached h x ((hbound c _).symm.trans hb) hx
  · intro c' k hne
    exact (hbound c' k).trans (hn.others c' k hne)

theorem quiet (hn : NestedOn m c base s₀ n) (hq : Quiet n.session s') :
    NestedOn m c base s₀ { n with session := s' } := by
  refine hn.stay (by rw [hq.registries]) hq.bound (fun u st hst => hq.status hst)
    (fun h hl => hl.of_quiet hq) ?_
  intro h x' hb hx'
  obtain ⟨x, hx, _, _⟩ := hn.stacked.live hb
  obtain ⟨y, hy, heq⟩ := hq.holder hx
  obtain rfl : y = x' := Option.some.inj (hy.symm.trans hx')
  show y.resetRollbackOnly.suspended = false
  rw [heq]; exact hn.attached h x hb hx

/-- A void holder is never bound under the manager's key, so that a look-up changes nothing. -/
theorem purge_eq (hn : NestedOn m c base s₀ n) : n.session.purge c m.backend.key = n.session := by
  cases hb : n.session.bound c m.backend.key with
  | none => exact purge_of_unbound hb
  | some h =>
    obtain ⟨x, hx, hl, _⟩ := hn.stacked.live hb
    exact purge_of_live hb hx hl

/-- A scope was opened. -/
theorem push (hn : NestedOn m c base s₀ n) {b : Option HolderId} {st : Status ς}
    (hsize : s'.registries.size = n.session.registries.size)
    (hbound : ∀ c' k, s'.bound c' k =
      if c' = c ∧ k = m.backend.key then b else n.session.bound c' k)
    (hstatus : ∀ u, s'.status? u = if u = n.session.statuses.size then some st else n.session.status? u)
    (hholders : ∀ h, n.session.Live m.backend.kind h → s'.Live m.backend.kind h)
    (hattached : ∀ h, b = some h →
      ∃ x, s'.holder? h = some x ∧ x.cleared = false ∧ x.kind = m.backend.kind ∧ x.suspended = false)
    (hlink : Link st (n.session.bound c m.backend.key) b) (hopen : st.isCompleted = false)
    (hfresh : st.newTransaction = true → ∀ h, b = some h → ¬ n.session.Live m.backend.kind h) :
    NestedOn m c base s₀ ⟨s', ⟨n.session.statuses.size, n.session⟩ :: n.scopes⟩ := by
  have hself : s'.bound c m.backend.key = b := by rw [hbound]; simp
  -- the scopes around the new one are those that were open before
  have hrest : StackedOn m c s' base (n.session.bound c m.backend.key) n.scopes := by
    refine hn.stacked.mono ?_ fun h _ => hholders h
    intro x hx st' hst'
    have hne : x.status ≠ n.session.statuses.size := Nat.ne_of_lt (hn.stacked.status_lt x hx)
    exact ⟨st', by rw [hstatus, if_neg hne]; exact hst', rfl⟩
  refine ⟨hsize ▸ hn.context, ?_, ?_, ?_, ?_⟩
  · show StackedOn m c s' base (s'.bound c m.backend.key) _
    rw [hself]
    refine .scope (by rw [hstatus, if_pos rfl]) hopen ?_ hlink ?_ ?_ hrest
    · intro hmem
      obtain ⟨x, hx, heq⟩ := List.mem_map.1 hmem
      exact Nat.ne_of_lt (hn.stacked.status_lt x hx) heq
    · intro h hb
      obtain ⟨x, hx, hl, hk, _⟩ := hattached h hb
      exact ⟨x, hx, hl, hk⟩
    · -- an owner's holder is new, so that no scope around it leads back to it
      intro hnew hmem
      obtain ⟨h, rfl⟩ := hlink.bound_of_new hnew
      refine hfresh hnew h rfl ?_
      rcases List.mem_cons.1 hmem with heq | hmem
      · exact hn.stacked.live heq.symm
      · exact hn.stacked.live_before h hmem
  · intro h x hb hx
    rw [show (s'.bound c m.backend.key) = b from hself] at hb
    obtain ⟨y, hy, _, _, hoff⟩ := hattached h hb
    obtain rfl : y = x := Option.some.inj (hy.symm.trans hx)
    exact hoff
  · intro c' k hne
    show s'.bound c' k = _
    rw [hbound, if_neg hne]
    exact hn.others c' k hne
  · intro x hx c' k hne
    rcases List.mem_cons.1 hx with rfl | hx
    · exact hn.others c' k hne
    · exact hn.origins x hx c' k hne

end NestedOn

/-! ## Opening a scope -/

section Opening

variable {d : Definition} {h : HolderId} {e : TransactionError}

/-- The parts of the session in which a transaction has begun. -/
structure Begun (m : Manager σ ρ ς) (c : ContextIndex) (s : Session σ ρ ς) (h : HolderId)
    (s' : Session σ ρ ς) : Prop where
  holder : h = s.holders.size
  size : s'.registries.size = s.registries.size
  bound : ∀ c' k, s'.bound c' k = if c' = c ∧ k = m.backend.key then some h else s.bound c' k
  statuses : s'.statuses = s.statuses
  held : ∃ x, (∀ k, s'.holder? k = if k = h then some x else s.holder? k) ∧ x.cleared = false ∧
    x.kind = m.backend.kind ∧ x.suspended = false

theorem Manager.Beginning.parts (hb : Beginning m c d s (.ok h) s') (hc : c < s.registries.size) :
    Begun m c s h s' := by
  cases hb with
  | @begun timeout r n _ _ _ =>
    obtain ⟨hkind, _, hcleared, hsuspended, _⟩ := newHolder_fresh m d r timeout s.now
    refine ⟨rfl, by simp [addHolder, Session.withNative], ?_, rfl, _, fun k => ?_, hcleared, hkind, hsuspended⟩
    · intro c' k
      exact bound_putBinding _ _ _ _ _ (by simpa [addHolder, Session.withNative] using hc) _
    · exact holder?_addHolder _ _ _

/-- A transaction was begun, behind the detachment of an older one if there was one. -/
theorem NestedOn.pushBegun (hn : NestedOn m c base s₀ n) (hbegun : Begun m c s h s')
    (hsize : s.registries.size = n.session.registries.size)
    (hbound : ∀ c' k, ¬ (c' = c ∧ k = m.backend.key) → s.bound c' k = n.session.bound c' k)
    (hstatuses : s.statuses = n.session.statuses) (hcount : s.holders.size = n.session.holders.size)
    (hholders : ∀ k, n.session.Live m.backend.kind k → s.Live m.backend.kind k) {st : Status ς}
    (hst : st.holder = some h ∧ st.newTransaction = true ∧ st.completion = none ∧
      st.suspended = n.session.bound c m.backend.key) :
    NestedOn m c base s₀ (n.entered (.ok s'.statuses.size, (s'.addStatus st).2)) := by
  obtain ⟨hh, hsize', hbound', hstatuses', x, hx, hl, hk, hoff⟩ := hbegun
  obtain ⟨hholder, hnew, hopen, hsuspended⟩ := hst
  have hsame : s'.statuses = n.session.statuses := hstatuses'.trans hstatuses
  -- the new holder is none of those that were live
  have hlt : ∀ k, n.session.Live m.backend.kind k → k ≠ h := by
    intro k ⟨y, hy, _⟩ heq
    have := holder?_lt hy
    rw [heq, hh, hcount] at this
    exact Nat.lt_irrefl _ this
  unfold Nest.entered
  dsimp only
  rw [hsame]
  refine hn.push (hsize'.trans hsize) ?_ ?_ ?_ ?_ (.owner hholder hnew hsuspended) ?_ ?_
  · intro c' k
    rw [bound_addStatus, hbound']
    split
    · rfl
    · rename_i hne; exact hbound c' k hne
  · intro u
    rw [status?_addStatus, hsame]
    unfold status?
    rw [hsame]
  · intro k hlive
    obtain ⟨y, hy, hcleared, hkind⟩ := hholders k hlive
    exact ⟨y, by rw [holder?_addStatus, hx, if_neg (hlt k hlive)]; exact hy, hcleared, hkind⟩
  · rintro _ ⟨⟩
    exact ⟨x, by rw [holder?_addStatus, hx, if_pos rfl], hl, hk, hoff⟩
  · exact Status.isCompleted_of_none hopen
  · rintro _ _ ⟨⟩ hlive
    exact hlt h hlive rfl

/-- A scope joined the transaction that is bound. -/
theorem NestedOn.pushJoined (hn : NestedOn m c base s₀ n) (hb : n.session.bound c m.backend.key = some h) (native : σ)
    {st : Status ς} (hst : st.holder = some h ∧ st.newTransaction = false ∧ st.completion = none ∧
      st.suspended = none) :
    NestedOn m c base s₀ (n.entered (.ok n.session.statuses.size,
      (((n.session.withNative native).modifyHolder h Holder.requested).addStatus st).2)) := by
  obtain ⟨hholder, hnew, hopen, hsuspended⟩ := hst
  refine hn.push (b := some h) rfl ?_ (fun u => status?_addStatus _ u _) (fun k hl => ?_) ?_ ?_ ?_ ?_
  · intro c' k
    split
    · rename_i heq; rw [heq.1, heq.2]; exact hb
    · rfl
  · exact hl.modifyHolder h fun _ => ⟨rfl, rfl⟩
  · rintro _ ⟨⟩
    obtain ⟨x, hx, hl, hk⟩ := hn.stacked.live hb
    refine ⟨x.requested, ?_, hl, hk, hn.attached h x hb hx⟩
    rw [holder?_addStatus, holder?_modifyHolder, if_pos rfl, holder?_withNative, hx]; rfl
  · rw [hb]; exact .joined hholder hnew hsuspended
  · exact Status.isCompleted_of_none hopen
  · rw [hnew]; nofun

/-- The transaction that was bound was detached and attached again. -/
theorem NestedOn.reattached (hn : NestedOn m c base s₀ n) (hb : n.session.bound c m.backend.key = some h) {native : σ}
    (hq : Quiet ((n.session.withNative native).detach c m.backend.key h) s') (native' : σ) :
    NestedOn m c base s₀ { n with session := (s'.attach c m.backend.key h).withNative native' } := by
  have hsize : s'.registries.size = n.session.registries.size := by
    rw [hq.registries]; exact detach_size _ _ _ _
  refine hn.stay ?_ ?_ ?_ ?_ ?_
  · exact (attach_size _ _ _ _).trans hsize
  · intro c' k
    rw [bound_withNative, bound_attach _ _ _ _ _ _ (hsize ▸ hn.context), hq.bound, bound_detach]
    by_cases heq : c' = c ∧ k = m.backend.key
    · rw [if_pos heq, heq.1, heq.2, hb]
    · rw [if_neg heq, if_neg heq]; rfl
  · intro u st hst
    exact hq.status hst
  · intro k hl
    have hl' : ((n.session.withNative native).detach c m.backend.key h).Live m.backend.kind k :=
      hl.modifyHolder h fun _ => ⟨rfl, rfl⟩
    exact (hl'.of_quiet hq).modifyHolder h fun _ => ⟨rfl, rfl⟩
  · intro k x hb' hx
    obtain rfl : h = k := Option.some.inj (hb.symm.trans hb')
    rw [holder?_withNative, attach, holder?_modifyHolder, if_pos rfl] at hx
    obtain ⟨y, _, rfl⟩ := Option.map_eq_some_iff.1 hx
    rfl

theorem NestedOn.enter (hn : NestedOn m c base s₀ n) (act : α → Session σ ρ ς → Session σ ρ ς) (d : Definition) :
    NestedOn m c base s₀ (n.step m c act (.enter d)) := by
  obtain ⟨r, s', hrun, hopen⟩ := getTransaction_spec m c d n.session
  rw [hn.purge_eq] at hopen
  show NestedOn m c base s₀ (n.entered (m.getTransaction c d n.session))
  rw [hrun]
  clear hrun
  cases hopen with
  | refused => exact hn
  | untransacted hb _ =>
    refine hn.push (b := none) rfl ?_ (fun u => status?_addStatus _ u _) (fun h hl => hl) nofun ?_ rfl nofun
    · intro c' k
      split
      · rename_i heq; rw [heq.1, heq.2]; exact hb
      · rfl
    · rw [hb]; exact .plain rfl rfl rfl
  | beginFailed hb hbegin => exact hn.quiet hbegin.quiet
  | suspendFailed => exact hn.quiet (.withNative _ _)
  | savepointFailed => exact hn.quiet (.withNative _ _)
  | begun hb hp hbegin =>
    exact hn.pushBegun (hbegin.parts hn.context) rfl (fun _ _ _ => rfl) rfl rfl (fun _ hl => hl)
      ⟨rfl, rfl, rfl, hb.symm⟩
  | @detached h x n' hb hx hl hk hp hnat =>
    refine hn.push (b := none) (detach_size (n.session.withNative n') c _ h)
      (fun c' k => bound_detach (n.session.withNative n') c c' _ k h)
      (fun u => status?_addStatus _ u _) (fun k hl => ?_) nofun ?_ rfl nofun
    · exact hl.modifyHolder h fun _ => ⟨rfl, rfl⟩
    · rw [hb]; exact .detached rfl rfl rfl
  | @renewed h h' x n' s' hb hx hl hk hp hnat hbegin =>
    refine hn.pushBegun (hbegin.parts ?_) (detach_size _ _ _ _) ?_ rfl ?_ ?_ ⟨rfl, rfl, rfl, hb.symm⟩
    · rw [detach_size]; exact hn.context
    · intro c' k hne
      rw [bound_detach, if_neg hne]; rfl
    · exact Array.size_modify
    · intro k hl
      exact hl.modifyHolder h fun _ => ⟨rfl, rfl⟩
  | @renewFailed h x n' e s' s'' r hb hx hl hk hp hnat hbegin hres =>
    have hfree : s'.bound c m.backend.key = none := by
      rw [hbegin.quiet.bound, bound_detach_self]
    rcases resume_spec m c h s' with ⟨e', hbind, _⟩ | ⟨_, hrun⟩
    · rw [bind_unbound hfree] at hbind; cases hbind
    · obtain ⟨-, rfl⟩ := Prod.mk.inj (hres.symm.trans hrun)
      exact hn.reattached hb hbegin.quiet _
  | nested hb hx hl hk hp hn' hsp hnat => exact hn.pushJoined hb _ ⟨rfl, rfl, rfl, rfl⟩
  | joined hb hx hl hk hp => exact hn.pushJoined hb n.session.native ⟨rfl, rfl, rfl, rfl⟩

end Opening

/-! ## Completing a scope -/

theorem Session.Live.modifyHolder_ne {kind : HolderKind} {h k : HolderId} (hl : s.Live kind h) (hne : h ≠ k)
    (f : Holder ρ → Holder ρ) : (s.modifyHolder k f).Live kind h := by
  obtain ⟨x, hx, hcleared, hkind⟩ := hl
  exact ⟨x, by rw [holder?_modifyHolder, if_neg hne]; exact hx, hcleared, hkind⟩

/-- What a step of the completion of a scope keeps: all bindings but the one under the manager's key,
the statuses of other scopes, and the holders to come back to. -/
structure Rebound (m : Manager σ ρ ς) (c : ContextIndex) (t : StatusId) (kept : List (Option HolderId))
    (s : Session σ ρ ς) (b : Option HolderId) (s' : Session σ ρ ς) : Prop where
  size : s'.registries.size = s.registries.size
  bound : ∀ c' k, s'.bound c' k = if c' = c ∧ k = m.backend.key then b else s.bound c' k
  statuses : ∀ u st, u ≠ t → s.status? u = some st →
    ∃ st', s'.status? u = some st' ∧ st'.unmarked = st.unmarked
  holders : ∀ h, some h ∈ kept → s.Live m.backend.kind h → s'.Live m.backend.kind h
  attached : ∀ h y, b = some h → s'.holder? h = some y → y.suspended = false

namespace Rebound

variable {t : StatusId} {kept : List (Option HolderId)} {b : Option HolderId} {h : HolderId}

theorem withNative (hr : Rebound m c t kept s b s') (native : σ) :
    Rebound m c t kept s b (s'.withNative native) :=
  ⟨hr.size, hr.bound, hr.statuses, hr.holders, hr.attached⟩

theorem modifyStatus (hr : Rebound m c t kept s b s') (f : Status ς → Status ς) :
    Rebound m c t kept s b (s'.modifyStatus t f) := by
  refine ⟨hr.size, hr.bound, fun u st hne hst => ?_, hr.holders, hr.attached⟩
  obtain ⟨st', hst', heq⟩ := hr.statuses u st hne hst
  exact ⟨st', by rw [status?_modifyStatus, if_neg hne]; exact hst', heq⟩

theorem released (hr : Rebound m c t kept s b s') (h : HolderId) :
    Rebound m c t kept s b (s'.modifyHolder h Holder.released) := by
  refine ⟨hr.size, hr.bound, hr.statuses, fun k hk hl => ?_, fun k y hb hy => ?_⟩
  · exact (hr.holders k hk hl).modifyHolder h fun _ => ⟨rfl, rfl⟩
  · rw [holder?_modifyHolder] at hy
    split at hy
    · obtain ⟨z, hz, rfl⟩ := Option.map_eq_some_iff.1 hy
      exact hr.attached k z hb hz
    · exact hr.attached k y hb hy

theorem dropped (hr : Rebound m c t kept s b s') (hout : some h ∉ kept) :
    Rebound m c t kept s none ((s'.dropBinding c m.backend.key).modifyHolder h giveUp) := by
  refine ⟨(dropBinding_size _ _ _).trans hr.size, fun c' k => ?_, hr.statuses, fun k hk hl => ?_, nofun⟩
  · rw [bound_modifyHolder, bound_dropBinding, hr.bound]
    split <;> rfl
  · refine Live.modifyHolder_ne (hr.holders k hk hl) ?_ giveUp
    rintro rfl
    exact hout hk

theorem reattached (hr : Rebound m c t kept s none s') (hc : c < s.registries.size) (h : HolderId) :
    Rebound m c t kept s (some h) (s'.attach c m.backend.key h) := by
  refine ⟨(attach_size _ _ _ _).trans hr.size, fun c' k => ?_, hr.statuses, fun k hk hl => ?_, ?_⟩
  · rw [bound_attach _ _ _ _ _ _ (hr.size ▸ hc), hr.bound]
    split <;> rfl
  · exact (hr.holders k hk hl).modifyHolder h fun _ => ⟨rfl, rfl⟩
  · rintro _ y ⟨⟩ hy
    rw [attach, holder?_modifyHolder, if_pos rfl] at hy
    obtain ⟨z, _, rfl⟩ := Option.map_eq_some_iff.1 hy
    rfl

end Rebound

section Completing

variable {x : OpenScope σ ρ ς} {rest : List (OpenScope σ ρ ς)} {st : Status ς} {commit : Bool}
  {state : TransactionState} {outcome r : Except TransactionError Unit} {s₁ s₂ s₃ : Session σ ρ ς}

/-- The innermost scope was completed. -/
theorem NestedOn.pop (hn : NestedOn m c base s₀ ⟨s, x :: rest⟩)
    (h : Rebound m c x.status ((x :: rest).map (OpenScope.before · m c)) s (x.before m c) s') :
    NestedOn m c base s₀ ⟨s', rest⟩ := by
  have hself : s'.bound c m.backend.key = x.before m c := by rw [h.bound]; simp
  refine ⟨h.size ▸ hn.context, ?_, ?_, ?_, ?_⟩
  · show StackedOn m c s' base (s'.bound c m.backend.key) rest
    rw [hself]
    obtain ⟨_, _, _, hfresh, _, _, hrest⟩ := hn.stacked.top
    refine hrest.mono ?_ ?_
    · intro y hy st hst
      refine h.statuses y.status st (fun heq => hfresh ?_) hst
      exact List.mem_map.2 ⟨y, hy, heq⟩
    · intro k hb hl
      refine h.holders k ?_ hl
      rcases hb with hb | hb
      · rw [List.map_cons, hb]; exact List.mem_cons_self ..
      · exact List.mem_cons_of_mem _ hb
  · intro k y hb hy
    exact h.attached k y (hself.symm.trans hb) hy
  · intro c' k hne
    show s'.bound c' k = _
    rw [h.bound, if_neg hne]
    exact hn.others c' k hne
  · intro y hy
    exact hn.origins y (List.mem_cons_of_mem _ hy)

/-- Behind the end of a scope's work, what was bound inside it still is. -/
theorem NestedOn.ended (hn : NestedOn m c base s₀ ⟨s, x :: rest⟩) (kept : List (Option HolderId)) (hq : Quiet s s₁)
    (state : TransactionState) :
    Rebound m c x.status kept s (s.bound c m.backend.key) (s₁.endStatus x.status state) := by
  have hquiet := hn.quiet hq
  refine Rebound.modifyStatus ⟨by rw [hq.registries], fun c' k => ?_, fun u st _ hst => hq.status hst,
    fun h _ hl => hl.of_quiet hq, fun h y hb hy => ?_⟩ _
  · rw [hq.bound]
    split
    · rename_i heq; rw [heq.1, heq.2]
    · rfl
  · exact hquiet.attached h y ((hq.bound c _).trans hb) hy

/-- Behind the release of what a scope acquired, nothing is bound if the scope suspended something,
and otherwise what was bound before the scope was opened. -/
theorem NestedOn.released (hn : NestedOn m c base s₀ ⟨s, x :: rest⟩) (hst : s.status? x.status = some st)
    (hq : Quiet s s₁) (hrel : Releasing m c st (s₁.endStatus x.status state) r s₂) :
    Rebound m c x.status ((x :: rest).map (OpenScope.before · m c)) s
      (if st.suspended.isSome then none else x.before m c) s₂ := by
  obtain ⟨st', hst', _, _, hlink, hfresh, _⟩ := hn.stacked.top
  obtain rfl : st' = st := Option.some.inj (hst'.symm.trans hst)
  have hended := hn.ended ((x :: rest).map (OpenScope.before · m c)) hq state
  generalize hb : s.bound c m.backend.key = b at hlink hended hfresh
  generalize hbefore : x.before m c = before at hlink
  cases hlink with
  | @owner h _ hh hnew hs =>
    have hnone : (if st'.suspended.isSome then none else before) = none := by
      rw [hs]; cases before <;> rfl
    -- the owner's holder is still bound when it is released, and no scope around has it
    obtain ⟨y, hy, hl, hk⟩ := (hn.stacked.live hb).of_quiet hq
    have hbound : (s₁.endStatus x.status state).bound c m.backend.key = some h := (hq.bound c _).trans hb
    rw [hnone]
    cases hrel with
    | nothing hh' => rw [hh] at hh'; cases hh'
    | reference _ hnew' => rw [hnew] at hnew'; cases hnew'
    | transaction hh' _ hun happ =>
      obtain rfl := Option.some.inj (hh'.symm.trans hh)
      rw [hun.of_live hbound hy hl hk]
      exact (hended.dropped (hfresh hnew)).withNative _
  | joined hh hnew hs =>
    rw [hs]
    cases hrel with
    | nothing hh' => rw [hh] at hh'; cases hh'
    | transaction _ hnew' => rw [hnew] at hnew'; cases hnew'
    | reference => exact hended.released _
  | detached hh hnew hs =>
    rw [hs]
    cases hrel with
    | nothing => exact hended
    | reference hh' => rw [hh] at hh'; cases hh'
    | transaction hh' => rw [hh] at hh'; cases hh'
  | plain hh hnew hs =>
    rw [hs]
    cases hrel with
    | nothing => exact hended
    | reference hh' => rw [hh] at hh'; cases hh'
    | transaction hh' => rw [hh] at hh'; cases hh'

/-- Behind the resumption of what a scope suspended, the context binds again what it bound before the
scope was opened. -/
theorem NestedOn.resumed (hn : NestedOn m c base s₀ ⟨s, x :: rest⟩) {kept : List (Option HolderId)}
    (hst : s.status? x.status = some st)
    (hr : Rebound m c x.status kept s (if st.suspended.isSome then none else x.before m c) s₂)
    (hres : Resuming m c x.status st s₂ r s₃) : Rebound m c x.status kept s (x.before m c) s₃ := by
  obtain ⟨st', hst', _, _, hlink, _, _⟩ := hn.stacked.top
  obtain rfl : st' = st := Option.some.inj (hst'.symm.trans hst)
  cases hres with
  | nothing hs => rw [hs] at hr; exact hr
  | @refused h e hs hbind =>
    rw [hs] at hr
    -- nothing is bound any more, so that binding again cannot be refused
    have hfree : (s₂.takeSuspended x.status).bound c m.backend.key = none := by
      show s₂.bound c m.backend.key = none
      rw [hr.bound]; simp
    rw [bind_unbound hfree] at hbind
    cases hbind
  | @resumed h _ _ hs happ =>
    rw [hs] at hr
    rw [hlink.before_of_suspended hs]
    exact ((hr.modifyStatus _).reattached hn.context h).withNative _

/-- Completing the innermost scope, as asked or not, failing or not. -/
theorem NestedOn.closed (hn : NestedOn m c base s₀ ⟨s, x :: rest⟩) (commit : Bool) :
    Rebound m c x.status ((x :: rest).map (OpenScope.before · m c)) s (x.before m c)
      (m.conclude commit c x.status s).2 := by
  obtain ⟨st, hst, hopen, _⟩ := hn.stacked.top
  obtain ⟨r, s', hrun, hconclude⟩ := conclude_spec m commit c hst hopen
  rw [hrun]
  cases hconclude with
  | mk hwork hrel hres => exact hn.resumed hst (hn.released hst hwork.quiet hrel) hres

end Completing

/-! ## Runs -/

theorem NestedOn.step (hn : NestedOn m c base s₀ n) (act : α → Session σ ρ ς → Session σ ρ ς) (call : ScopeCall α)
    (hact : ∀ a, call = .act a → Quiet n.session (act a n.session)) : NestedOn m c base s₀ (n.step m c act call) := by
  cases call with
  | enter d => exact hn.enter act d
  | leave commit =>
    unfold Nest.step
    rcases n with ⟨s, _ | ⟨x, rest⟩⟩
    · exact hn
    · exact hn.pop (hn.closed commit)
  | mark t => exact hn.quiet (.setRollbackOnly _ t)
  | act a => exact hn.quiet (hact a rfl)

theorem NestedOn.run (hn : NestedOn m c base s₀ n) (calls : List (ScopeCall (σ × Instant))) :
    NestedOn m c base s₀ (n.run m c elapse calls) := by
  induction calls generalizing n with
  | nil => exact hn
  | cons call calls ih =>
    exact ih (hn.step elapse call fun a _ => ⟨rfl, fun _ => rfl, fun _ => rfl⟩)

theorem NestedOn.start (hc : c < s.registries.size)
    (hlive : ∀ h, s.bound c m.backend.key = some h → s.Live m.backend.kind h)
    (hattached : ∀ h x, s.bound c m.backend.key = some h → s.holder? h = some x → x.suspended = false) :
    NestedOn m c (s.bound c m.backend.key) s ⟨s, []⟩ :=
  ⟨hc, .bottom hlive, hattached, fun _ _ _ => rfl, nofun⟩

theorem Nested.start (hc : c < s.registries.size) (hfree : s.bound c m.backend.key = none) :
    Nested m c s ⟨s, []⟩ := by
  have hnone : ∀ h, s.bound c m.backend.key ≠ some h := by
    intro h
    rw [hfree]
    nofun
  have hstart : NestedOn m c (s.bound c m.backend.key) s ⟨s, []⟩ :=
    .start hc (fun h hb => absurd hb (hnone h)) fun h _ hb => absurd hb (hnone h)
  rwa [hfree] at hstart

/-- Scope bracketing, for every manager, every backend and every run of nested scopes in one context:
completing a scope, whether that fails or not, leaves bound under the manager's key what was bound
just before the scope was opened, attached, and leaves all other bindings as they were then. Without
an open scope nothing is bound. -/
theorem leave_rebinds (m : Manager σ ρ ς) (c : ContextIndex) (s : Session σ ρ ς)
    (hc : c < s.registries.size) (hfree : s.bound c m.backend.key = none)
    (calls : List (ScopeCall (σ × Instant))) :
    let n := Nest.run m c elapse calls ⟨s, []⟩
    (∀ x rest, n.scopes = x :: rest → ∀ commit,
      let s' := (n.step m c elapse (.leave commit)).session
      s'.bound c m.backend.key = x.origin.bound c m.backend.key ∧
      (∀ h, s'.bound c m.backend.key = some h →
        ∃ y, s'.holder? h = some y ∧ y.suspended = false ∧ y.cleared = false) ∧
      ∀ c' k, ¬ (c' = c ∧ k = m.backend.key) → s'.bound c' k = x.origin.bound c' k) ∧
    (n.scopes = [] → n.session.bound c m.backend.key = none) := by
  intro n
  have hn : Nested m c s n := (Nested.start hc hfree).run calls
  clear_value n
  rcases n with ⟨s₁, scopes⟩
  constructor
  · rintro x rest ⟨⟩ commit
    have hclosed := hn.closed commit
    have hafter := hn.pop hclosed
    refine ⟨?_, ?_, ?_⟩
    · exact (hclosed.bound c m.backend.key).trans (if_pos ⟨rfl, rfl⟩)
    · intro h hb
      obtain ⟨y, hy, hl, _⟩ := hafter.stacked.live hb
      exact ⟨y, hy, hafter.attached h y hb hy, hl⟩
    · intro c' k hne
      exact (hafter.others c' k hne).trans (hn.origins x (List.mem_cons_self ..) c' k hne).symm
  · rintro ⟨⟩
    have hstacked := hn.stacked
    generalize hb : s₁.bound c m.backend.key = b at hstacked
    cases hstacked
    rfl

/-- A new transaction suspends an older one, and then its native commit fails: the older one is bound
again. -/
theorem leave_rebinds_failing :
    let m : Manager Store ConnectionId Savepoint := { backend := Store.backend ⟨7⟩ .all }
    let s : Session Store ConnectionId Savepoint :=
      { registries := #[{ context := ⟨1⟩ }], native := { key := ⟨7⟩ } }
    let calls := [.enter { propagation := .required }, .enter { propagation := .requiresNew },
      .act (({ key := ⟨7⟩ } : Store), 5)]
    let n := Nest.run m 0 elapse calls ⟨s, []⟩
    n.scopes.map OpenScope.status = [1, 0] ∧ (m.conclude true 0 1 n.session).1.isOk = false ∧
      (n.step m 0 elapse (.leave true)).session.bound 0 ⟨7⟩ = some 0 := by
  intro m s calls n
  obtain ⟨hleave, _⟩ := leave_rebinds m 0 s (by decide) (by decide) calls
  refine ⟨by decide, by decide, ?_⟩
  have horigins : n.scopes.map (OpenScope.before · m 0) = [some 0, none] := by decide
  rcases hx : n.scopes with _ | ⟨x, rest⟩
  · rw [hx] at horigins; cases horigins
  · rw [hx, List.map_cons] at horigins
    exact (hleave x rest hx true).1.trans (List.cons.inj horigins).1

end Demarcation
