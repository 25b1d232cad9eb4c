/-
Work of a scope that was rolled back and the mark that remembers it. A participant that is rolled back
leaves its changes staged and marks the transaction; a nested scope that returns to its savepoint takes
the mark back. If the nested scope was opened before the participant ended, the changes are dropped with
it. If it was opened afterwards they stay, and the owner publishes them when it commits.
-/
import Demarcation.Proofs.Store.Ledger

namespace Demarcation

open Session Manager

/-! ## Savepoints in the ledger -/

/-- A scope has staged exactly what stands behind a place. -/
structure StagedFrom (staged : List StagedWrite) (mark : Nat) (t : StatusId) : Prop where
  reached : mark ≤ staged.length
  before : ∀ e ∈ staged.take mark, t ∉ e.1
  behind : ∀ e ∈ staged.drop mark, t ∈ e.1

namespace StagedFrom

variable {staged : List StagedWrite} {mark mark' n : Nat} {t u : StatusId}

theorem fresh (h : ∀ e ∈ staged, t ∉ e.1) : StagedFrom staged staged.length t := by
  refine ⟨Nat.le_refl _, fun e he => h e (List.mem_of_mem_take he), fun e he => ?_⟩
  rw [List.drop_length] at he
  cases he

theorem append (h : StagedFrom staged mark t) {inside : List StatusId} (ht : t ∈ inside) (ws : List Write) :
    StagedFrom (staged ++ ws.map fun w => (inside, w)) mark t := by
  refine ⟨?_, fun e he => ?_, fun e he => ?_⟩
  · rw [List.length_append]
    exact Nat.le_trans h.reached (Nat.le_add_right _ _)
  · rw [List.take_append_of_le_length h.reached] at he
    exact h.before e he
  · rw [List.drop_append_of_le_length h.reached] at he
    rcases List.mem_append.1 he with he | he
    · exact h.behind e he
    · obtain ⟨w, _, rfl⟩ := List.mem_map.1 he
      exact ht

theorem take (h : StagedFrom staged mark t) (hn : mark ≤ n) : StagedFrom (staged.take n) mark t := by
  refine ⟨?_, fun e he => ?_, fun e he => ?_⟩
  · rw [List.length_take]
    exact Nat.le_min.2 ⟨hn, h.reached⟩
  · rw [List.take_take, Nat.min_eq_left hn] at he
    exact h.before e he
  · rw [List.drop_take] at he
    exact h.behind e (List.mem_of_mem_take he)

/-- The place of a scope is behind those of the scopes around it. -/
theorem le (h : StagedFrom staged mark t) (h' : StagedFrom staged mark' u)
    (hinside : ∀ e ∈ staged, u ∈ e.1 → t ∈ e.1) : mark ≤ mark' := by
  rcases Nat.lt_or_ge mark' mark with hlt | hle
  case inr => exact hle
  -- otherwise a change stands between the two places
  have hlen : mark' < staged.length := Nat.lt_of_lt_of_le hlt h.reached
  have hbehind : staged[mark'] ∈ staged.drop mark' := by
    rw [List.drop_eq_getElem_cons hlen]
    exact List.mem_cons_self ..
  have hbefore : staged[mark'] ∈ staged.take mark :=
    List.mem_take_iff_getElem.2 ⟨mark', by omega, rfl⟩
  exact absurd (hinside _ (List.getElem_mem hlen) (h'.behind _ hbehind)) (h.before _ hbefore)

end StagedFrom

/-! ## Forgiveness -/

/-- A nested scope of a holder's transaction. -/
def Session.NestedIn (s : Session Store ConnectionId Savepoint) (t : StatusId) (h : HolderId) : Prop :=
  ∃ st, s.status? t = some st ∧ st.definition.propagation = .nested ∧ st.holder = some h

/-- A scope that took part in a holder's transaction, not as its owner, and ended rolled back. -/
def Session.Undone (s : Session Store ConnectionId Savepoint) (t : StatusId) (h : HolderId) : Prop :=
  ∃ st, s.status? t = some st ∧ st.completion = some .rolledBack ∧ st.newTransaction = false ∧
    st.holder = some h

/-- The mark of a transaction was taken back last by the end of a nested scope that was opened after
another scope had ended, and it was not set again. -/
def Ledger.Forgave (l : Ledger) (t : StatusId) (h : HolderId) : Prop :=
  ∃ n, l.forgiver h = some n ∧ l.ended t ≤ n ∧ l.session.NestedIn n h

/-- What holds of a ledger between two calls. Changes of a scope that was rolled back are staged in an
unmarked transaction only if a later nested scope was forgiven for them. -/
structure Accounted (l : Ledger) : Prop extends Tagged l where
  held : ∀ t st h, l.session.status? t = some st → st.holder = some h → h < l.session.holders.size
  range : ∀ h k, l.session.Ongoing h k → k < l.session.native.connections.size
  apart : ∀ h j k, l.session.Ongoing h k → l.session.Ongoing j k → h = j
  nested : ∀ t st sp, l.session.status? t = some st → st.savepoint = some sp →
    st.newTransaction = false ∧ st.definition.propagation = .nested
  saved : ∀ t ∈ l.nest.inside, ∀ st sp h k, l.session.status? t = some st → st.savepoint = some sp →
    st.holder = some h → l.session.Ongoing h k → StagedFrom (l.staged k) sp.mark t
  forgiven : ∀ t h k, l.session.Undone t h → l.session.Ongoing h k → l.session.marked h = false →
    ∀ e ∈ l.staged k, t ∈ e.1 → l.Forgave t h
  unmarked : ∀ h n, l.forgiver h = some n → l.session.marked h = false

theorem Ledger.unmarked_moved {l : Ledger} {n : Nest Store ConnectionId Savepoint} {h : HolderId}
    {t : StatusId} (hf : (l.moved n).forgiver h = some t) : n.session.marked h = false := by
  cases hm : n.session.marked h with
  | false => rfl
  | true =>
    unfold moved at hf
    dsimp only at hf
    rw [hm, if_pos rfl] at hf
    cases hf

theorem Ledger.forgiver_moved {l : Ledger} {n : Nest Store ConnectionId Savepoint} {h : HolderId}
    (hm : n.session.marked h = false) (hb : l.session.marked h = false) :
    (l.moved n).forgiver h = l.forgiver h := by
  unfold moved
  dsimp only
  rw [hm, hb]; rfl

/-! ## Calls that end no scope -/

/-- Every transaction is carried on, and at most one more has begun, on a fresh connection. -/
structure Session.Carries (s s' : Session Store ConnectionId Savepoint) : Prop where
  grows : s.native.Grows s'.native
  marked : ∀ h, s.marked h = true → s'.marked h = true
  holders : s.holders.size ≤ s'.holders.size
  ongoing : ∀ h k, s'.Ongoing h k → s.Ongoing h k ∨
    (h = s.holders.size ∧ k = s.native.connections.size ∧ k < s'.native.connections.size)

/-- A change of a session that ends no scope and no transaction. -/
structure Session.Advance (s s' : Session Store ConnectionId Savepoint) : Prop extends Carries s s' where
  kept : ∀ t st, s.status? t = some st → ∃ on, s'.status? t = some { st with rollbackOnly := on }
  opened : ∀ t st, s.status? t = none → s'.status? t = some st →
    st.isCompleted = false ∧ (∀ h, st.holder = some h → h < s'.holders.size) ∧
    ∀ sp, st.savepoint = some sp → st.newTransaction = false ∧ st.definition.propagation = .nested ∧
      ∃ h x, st.holder = some h ∧ s.holder? h = some x ∧ sp.mark = (s.native.log x.resource).length ∧
        s'.native.log x.resource = s.native.log x.resource

section Advancing

variable {s s' s₁ : Session Store ConnectionId Savepoint}

theorem Session.Carries.of_alike (h : Alike Holder.fate s s') (hs : s'.native.staging = s.native.staging) :
    Carries s s' := by
  refine ⟨.of_staging hs, fun j hj => ?_, Nat.le_of_eq h.holders_size.symm, fun j k hj => ?_⟩
  · exact (marked_of_fate (h.holders j)).trans hj
  · exact .inl ((ongoing_of_fate (h.holders j)).1 hj)

/-- A transaction begins in a session in which nothing became of the others. -/
theorem Session.Carries.begun (h : Alike Holder.fate s s₁) (hs : s₁.native.staging = s.native.staging)
    {x : Holder ConnectionId} {n : Store} {key : ResourceKey} {capabilities : Capabilities} {d : Definition}
    (hstart : (Store.backend key capabilities).start d s₁.native = (.ok x.resource, n)) (c : ContextIndex) :
    Carries s (s₁.started c key x n) := by
  obtain ⟨hresource, hcount, hlog⟩ := Store.backend_start hstart
  have hsize := started_size s₁ c key x n
  have hholders := h.holders_size
  have hstores : s₁.native.connections.size = s.native.connections.size := congrArg Prod.snd hs
  have hgrows : s₁.native.Grows n := .of_log (by omega) hlog
  refine ⟨(Store.Grows.of_staging hs).trans hgrows, fun j hj => ?_, by omega, fun j k hj => ?_⟩
  · have hj' : s₁.marked j = true := (marked_of_fate (h.holders j)).trans hj
    have hne : j ≠ s₁.holders.size := Nat.ne_of_lt (marked_lt hj')
    unfold Session.marked at hj' ⊢
    rw [holder?_started, if_neg hne]
    exact hj'
  · obtain ⟨y, hy, hlive, hk⟩ := hj
    rw [holder?_started] at hy
    split at hy
    · rename_i hj
      obtain rfl := Option.some.inj hy
      refine .inr ⟨hj.trans hholders, ?_, ?_⟩
      · rw [← hk, hresource, hstores]
      · show k < n.connections.size
        rw [← hk, hresource, hcount]
        exact Nat.lt_succ_self _
    · exact .inl ((ongoing_of_fate (h.holders j)).1 ⟨y, hy, hlive, hk⟩)

theorem Session.Advance.of_statuses (hc : Carries s s') (h : ∀ t, s'.status? t = s.status? t) : Advance s s' := by
  refine ⟨hc, fun t st hst => ⟨_, (h t).trans hst⟩, fun t st hnone hst => ?_⟩
  rw [h, hnone] at hst
  cases hst

/-- A scope is opened in a session in which the statuses are still the same. -/
theorem Session.Advance.opening (hc : Carries s s₁) (h : ∀ t, s₁.status? t = s.status? t) {st : Status Savepoint}
    (hopen : st.completion = none) (hheld : ∀ h, st.holder = some h → h < s₁.holders.size)
    (hsp : ∀ sp, st.savepoint = some sp → st.newTransaction = false ∧ st.definition.propagation = .nested ∧
      ∃ h x, st.holder = some h ∧ s.holder? h = some x ∧ sp.mark = (s.native.log x.resource).length ∧
        s₁.native.log x.resource = s.native.log x.resource) :
    Advance s (s₁.addStatus st).2 := by
  refine ⟨⟨hc.grows, hc.marked, hc.holders, hc.ongoing⟩, fun t st' hst' => ?_, fun t st' hnone hst' => ?_⟩
  · exact ⟨_, status?_addStatus_old ((h t).trans hst') st⟩
  · rw [status?_addStatus, h, hnone] at hst'
    split at hst'
    · obtain rfl := Option.some.inj hst'
      exact ⟨Status.isCompleted_of_none hopen, hheld, hsp⟩
    · cases hst'

theorem Session.Onward.advance (h : Onward s s') : Advance s s' := by
  have hsize : s'.holders.size = s.holders.size := holders_size_of_alike h.quiet.holders
  refine ⟨⟨h.grows, h.marked, by omega, fun j k hj => .inl ((ongoing_of_quiet h.quiet).1 hj)⟩,
    fun t st hst => ?_, fun t st hnone hst => ?_⟩
  · obtain ⟨st', hst', heq⟩ := h.quiet.status hst
    obtain ⟨on, rfl⟩ := Status.eq_of_unmarked heq
    exact ⟨on, hst'⟩
  · have heq := h.quiet.statuses t
    rw [hnone, hst] at heq
    cases heq

/-- Opening a scope, whether that fails or not. -/
theorem Session.Advance.enter (key : ResourceKey) (capabilities : Capabilities) (config : ManagerConfig)
    (c : ContextIndex) (d : Definition) (s : Session Store ConnectionId Savepoint) :
    ∃ r s', (storeManager key capabilities config).getTransaction c d s = (r, s') ∧ Advance s s' ∧
      ∀ t, r = .ok t → t = s.statuses.size ∧ t < s'.statuses.size := by
  obtain ⟨r, s', hrun, houtline⟩ := getTransaction_outline (storeManager key capabilities config) c d s
    Store.backend_untouched
  have hopened : ∀ (s₁ : Session Store ConnectionId Savepoint) (st : Status Savepoint), s₁.statuses = s.statuses →
      s₁.statuses.size = s.statuses.size ∧ s₁.statuses.size < (s₁.addStatus st).2.statuses.size := by
    intro s₁ st hsame
    have hsize := addStatus_size s₁ st
    exact ⟨by rw [hsame], by omega⟩
  refine ⟨r, s', hrun, ?_⟩
  cases houtline with
  | failed h hs => exact ⟨.of_statuses (.of_alike h hs) h.status?, nofun⟩
  | @entered s₁ st h hs hopen hnew hlt hsp =>
    refine ⟨.opening (.of_alike h hs) h.status? hopen (fun j hj => ?_) fun sp hsp' => ?_, ?_⟩
    · rw [h.holders_size]
      exact hlt j hj
    · obtain ⟨hp, j, x, hj, hx, hsave⟩ := hsp sp hsp'
      have hlog : s₁.native.log = s.native.log := congrArg Prod.fst hs
      exact ⟨hnew, hp, j, x, hj, hx, Store.backend_createSavepoint hsave, congrFun hlog _⟩
    · rintro _ ⟨⟩
      exact hopened s₁ st h.statuses
  | @begun s₁ st x n h hs hstart _ hopen _ hsp _ hh =>
    refine ⟨.opening (.begun h hs hstart c) h.status? hopen (fun j hj => ?_) fun sp hsp' => ?_, ?_⟩
    · rw [hh] at hj
      obtain rfl := Option.some.inj hj
      show s₁.holders.size < (s₁.started c key x n).holders.size
      rw [started_size]
      omega
    · rw [hsp] at hsp'; cases hsp'
    · rintro _ ⟨⟩
      exact hopened (s₁.started c key x n) st h.statuses

end Advancing

section Moving

variable {l : Ledger} {n : Nest Store ConnectionId Savepoint}

theorem Tagged.staged_of_grown (hl : Tagged l) {k : ConnectionId}
    (h : l.session.native.log k <+: n.session.native.log k) :
    (l.moved n).staged k = l.staged k ++
      ((n.session.native.log k).drop (l.staged k).length).map fun w => (l.nest.inside, w) :=
  restaged_of_grown (by rw [hl.logs]; exact h)

theorem Tagged.staged_of_shrunk (hl : Tagged l) {k : ConnectionId}
    (h : n.session.native.log k <+: l.session.native.log k) :
    (l.moved n).staged k = (l.staged k).take (n.session.native.log k).length :=
  restaged_of_shrunk (by rw [hl.logs]; exact h)

theorem Tagged.staged_of_same (hl : Tagged l) {k : ConnectionId}
    (h : n.session.native.log k = l.session.native.log k) : (l.moved n).staged k = l.staged k :=
  restaged_of_same (by rw [hl.logs, h])

/-- What a transaction was forgiven it stays forgiven while its mark stays off. -/
theorem Accounted.forgave_moved (hl : Accounted l) {t : StatusId} {h : HolderId} {k : ConnectionId}
    (hu : l.session.Undone t h) (ho : l.session.Ongoing h k) {e : StagedWrite} (he : e ∈ l.staged k) (ht : t ∈ e.1)
    (hkept : ∀ u st, l.session.status? u = some st →
      ∃ st', n.session.status? u = some st' ∧ st'.definition = st.definition ∧ st'.holder = st.holder)
    (hb : l.session.marked h = false) (hm : n.session.marked h = false) : (l.moved n).Forgave t h := by
  obtain ⟨u, hforgiver, hle, st, hst, hp, hh⟩ := hl.forgiven t h k hu ho hb e he ht
  obtain ⟨st', hst', hdef, hholder⟩ := hkept u st hst
  obtain ⟨stₜ, hstₜ, hended, _⟩ := hu
  refine ⟨u, (Ledger.forgiver_moved hm hb).trans hforgiver, ?_, st', hst', ?_, hholder.trans hh⟩
  · rw [hl.ended_moved hstₜ (Status.isCompleted_of_some hended)]
    exact hle
  · rw [hdef]; exact hp

/-- The scopes that are open stay open, and at most one more is opened. -/
def Ledger.Opens (l : Ledger) (n : Nest Store ConnectionId Savepoint) : Prop :=
  n.inside = l.nest.inside ∨ (n.inside = l.session.statuses.size :: l.nest.inside ∧
    l.session.statuses.size < n.session.statuses.size)

theorem Ledger.Opens.inside (hin : l.Opens n) {t : StatusId} (ht : t ∈ n.inside) :
    t ∈ l.nest.inside ∨ t = l.session.statuses.size := by
  rcases hin with heq | ⟨heq, _⟩
  · exact .inl (heq ▸ ht)
  · rw [heq] at ht
    exact (List.mem_cons.1 ht).symm

/-- A status is an old one or belongs to a scope that was opened. -/
theorem Session.Advance.old {s s' : Session Store ConnectionId Savepoint} (ha : Advance s s') {t : StatusId}
    {st' : Status Savepoint} (hst' : s'.status? t = some st') :
    s.status? t = none ∨ ∃ st on, s.status? t = some st ∧ st' = { st with rollbackOnly := on } := by
  cases hst : s.status? t with
  | none => exact .inl rfl
  | some st =>
    obtain ⟨on, hsome⟩ := ha.kept t st hst
    exact .inr ⟨st, on, rfl, Option.some.inj (hst'.symm.trans hsome)⟩

theorem Tagged.advance (hl : Tagged l) (ha : Advance l.session n.session) (hin : l.Opens n) :
    Tagged (l.moved n) := by
  have hlive : ∀ t ∈ l.nest.inside, ∃ st, n.session.status? t = some st ∧ st.isCompleted = false := by
    intro t ht
    obtain ⟨st, hst, ho⟩ := hl.live t ht
    obtain ⟨on, hst'⟩ := ha.kept t st hst
    exact ⟨_, hst', ho⟩
  have hcount : l.session.statuses.size ≤ n.session.statuses.size := by
    refine statuses_le fun t st hst => ?_
    obtain ⟨on, hst'⟩ := ha.kept t st hst
    exact ⟨_, hst'⟩
  refine hl.moved (fun k => .inl (ha.grows.logs k)) hcount ?_ ?_ (fun t => hin.inside) ?_ ?_
  · rcases hin with heq | ⟨heq, _⟩
    · rw [heq]; exact hl.sorted
    · rw [heq]; exact List.pairwise_cons.2 ⟨fun t ht => hl.inside_lt ht, hl.sorted⟩
  · intro t ht
    rcases hin with heq | ⟨heq, hlt⟩
    · exact hlive t (heq ▸ ht)
    · rw [heq] at ht
      rcases List.mem_cons.1 ht with rfl | ht
      · have hst : n.session.status? l.session.statuses.size = some n.session.statuses[l.session.statuses.size] :=
          Array.getElem?_eq_getElem hlt
        exact ⟨_, hst, (ha.opened _ _ (Array.getElem?_eq_none (Nat.le_refl _)) hst).1⟩
      · exact hlive t ht
  · intro t ht hout
    rcases hin with heq | ⟨heq, _⟩
    · exact absurd (heq ▸ ht) hout
    · exact absurd (heq ▸ List.mem_cons_of_mem _ ht) hout
  · intro t st' hst' hc
    rcases ha.old hst' with hnone | ⟨st, on, hst, rfl⟩
    · rw [(ha.opened t st' hnone hst').1] at hc; cases hc
    · exact .inl ⟨st, hst, hc⟩

/-- A holder that is known goes on only if it went on before. -/
theorem Session.Advance.ongoing_of_lt {s s' : Session Store ConnectionId Savepoint} (ha : Advance s s')
    {h : HolderId} {k : ConnectionId} (hlt : h < s.holders.size) (ho : s'.Ongoing h k) : s.Ongoing h k := by
  rcases ha.ongoing h k ho with ho | ⟨rfl, _⟩
  · exact ho
  · exact absurd hlt (Nat.lt_irrefl _)

theorem Accounted.saved_advance (hl : Accounted l) (ha : Advance l.session n.session) (hin : l.Opens n)
    {t : StatusId} (ht : t ∈ n.inside) {st' : Status Savepoint} {sp : Savepoint} {h : HolderId} {k : ConnectionId}
    (hst' : n.session.status? t = some st') (hsp : st'.savepoint = some sp) (hh : st'.holder = some h)
    (ho : n.session.Ongoing h k) : StagedFrom ((l.moved n).staged k) sp.mark t := by
  rcases ha.old hst' with hnone | ⟨st, on, hst, rfl⟩
  · -- the savepoint was just taken, at the end of the log
    obtain ⟨_, _, j, x, hj, hx, hmark, hlog⟩ := (ha.opened t st' hnone hst').2.2 sp hsp
    obtain rfl := Option.some.inj (hh.symm.trans hj)
    obtain ⟨y, hy, _, rfl⟩ := ha.ongoing_of_lt (holder?_lt hx) ho
    obtain rfl := Option.some.inj (hy.symm.trans hx)
    rw [hl.staged_of_same hlog, hmark, ← hl.logs, List.length_map]
    refine .fresh fun e he hmem => ?_
    have hge : l.session.statuses.size ≤ t := Array.getElem?_eq_none_iff.1 hnone
    exact absurd (hl.tags _ e he t hmem) (Nat.not_lt.2 hge)
  · have htl : t ∈ l.nest.inside := by
      rcases hin.inside ht with ht | rfl
      · exact ht
      · exact absurd (status?_lt hst) (Nat.lt_irrefl _)
    rw [hl.staged_of_grown (ha.grows.logs k)]
    exact (hl.saved t htl st sp h k hst hsp hh (ha.ongoing_of_lt (hl.held t st h hst hh) ho)).append htl _

theorem Accounted.forgiven_advance (hl : Accounted l) (ha : Advance l.session n.session) {t : StatusId}
    {h : HolderId} {k : ConnectionId} (hu : n.session.Undone t h) (ho : n.session.Ongoing h k)
    (hm : n.session.marked h = false) {e : StagedWrite} (he : e ∈ (l.moved n).staged k) (ht : t ∈ e.1) :
    (l.moved n).Forgave t h := by
  obtain ⟨st', hst', hended, hnew, hh⟩ := hu
  have hc : st'.isCompleted = true := Status.isCompleted_of_some hended
  rcases ha.old hst' with hnone | ⟨st, on, hst, rfl⟩
  · rw [(ha.opened t st' hnone hst').1] at hc; cases hc
  have hb : l.session.marked h = false := unmarked_before (ha.marked h) hm
  rcases mem_restaged he with he | hinside
  · have hbefore : l.session.Ongoing h k := ha.ongoing_of_lt (hl.held t st h hst hh) ho
    refine hl.forgave_moved ⟨st, hst, hended, hnew, hh⟩ hbefore he ht (fun u st hst => ?_) hb hm
    obtain ⟨on, hst'⟩ := ha.kept u st hst
    exact ⟨_, hst', rfl, rfl⟩
  · -- a scope that ended does not stage any more
    rw [hinside] at ht
    exact absurd ht (hl.not_inside hst hc)

/-- A call that ends no scope. -/
theorem Accounted.advance (hl : Accounted l) (ha : Advance l.session n.session) (hin : l.Opens n) :
    Accounted (l.moved n) := by
  refine ⟨hl.toTagged.advance ha hin, ?_, ?_, ?_, ?_, ?_, ?_, fun h t => Ledger.unmarked_moved⟩
  · intro t st' h hst' hh
    rcases ha.old hst' with hnone | ⟨st, on, hst, rfl⟩
    · exact (ha.opened t st' hnone hst').2.1 h hh
    · exact Nat.lt_of_lt_of_le (hl.held t st h hst hh) ha.holders
  · -- a transaction that began is on the connection that was opened for it
    intro h k ho
    rcases ha.ongoing h k ho with ho | ⟨_, _, hlt⟩
    · exact Nat.lt_of_lt_of_le (hl.range h k ho) ha.grows.size
    · exact hlt
  · intro h j k hh hj
    rcases ha.ongoing h k hh with hh | ⟨rfl, hk, _⟩
    · rcases ha.ongoing j k hj with hj | ⟨_, hk, _⟩
      · exact hl.apart h j k hh hj
      · exact absurd (hl.range h k hh) (hk ▸ Nat.lt_irrefl _)
    · rcases ha.ongoing j k hj with hj | ⟨rfl, _⟩
      · exact absurd (hl.range j k hj) (hk ▸ Nat.lt_irrefl _)
      · rfl
  · intro t st' sp hst' hsp
    rcases ha.old hst' with hnone | ⟨st, on, hst, rfl⟩
    · obtain ⟨hnew, hp, _⟩ := (ha.opened t st' hnone hst').2.2 sp hsp
      exact ⟨hnew, hp⟩
    · exact hl.nested t st sp hst hsp
  · intro t ht st' sp h k hst' hsp hh ho
    exact hl.saved_advance ha hin ht hst' hsp hh ho
  · intro t h k hu ho hm e he ht
    exact hl.forgiven_advance ha hu ho hm he ht

end Moving

end Demarcation
