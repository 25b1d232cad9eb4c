/-
A ledger of nested scopes on a store. It says inside which scopes each staged change was staged, when
each scope ended, and which scope last took the mark of a transaction back. The ledger only watches the
run; what follows from it is that changes staged inside a scope were staged inside all scopes around it.
-/
import Demarcation.Proofs.Nesting
import Demarcation.Proofs.Store.Leaving
import Demarcation.Proofs.Store.Staging

namespace Demarcation

open Session Manager

/-- A change that is staged, with the scopes that were open when it was, the innermost one first. -/
abbrev StagedWrite := List StatusId × Write

/-- The staged changes brought up to date with the log of their connection: what was dropped is gone, and
what was added was staged inside the scopes that are open. -/
def restaged (inside : List StatusId) (old : List StagedWrite) (log : List Write) : List StagedWrite :=
  old.take log.length ++ (log.drop old.length).map fun w => (inside, w)

section Restaging

variable {inside : List StatusId} {old : List StagedWrite} {log : List Write}

theorem restaged_of_grown (h : old.map Prod.snd <+: log) :
    restaged inside old log = old ++ (log.drop old.length).map fun w => (inside, w) := by
  have hle : old.length ≤ log.length := by simpa using h.length_le
  unfold restaged
  rw [List.take_of_length_le hle]

theorem restaged_of_shrunk (h : log <+: old.map Prod.snd) : restaged inside old log = old.take log.length := by
  have hle : log.length ≤ old.length := by simpa using h.length_le
  unfold restaged
  rw [List.drop_of_length_le hle, List.map_nil, List.append_nil]

theorem restaged_of_same (h : old.map Prod.snd = log) : restaged inside old log = old := by
  rw [restaged_of_shrunk (h ▸ List.prefix_refl _), ← h, List.length_map, List.take_length]

theorem map_restaged (h : old.map Prod.snd <+: log ∨ log <+: old.map Prod.snd) :
    (restaged inside old log).map Prod.snd = log := by
  rcases h with h | h
  · obtain ⟨ws, rfl⟩ := h
    rw [restaged_of_grown (List.prefix_append _ _), List.map_append, List.map_map]
    have hdrop : (old.map Prod.snd ++ ws).drop old.length = ws := by
      rw [← List.length_map (f := Prod.snd), List.drop_left]
    rw [hdrop]
    exact congrArg _ (List.map_id ws)
  · rw [restaged_of_shrunk h, List.map_take]
    exact (List.prefix_iff_eq_take.1 h).symm

theorem mem_restaged {e : StagedWrite} (h : e ∈ restaged inside old log) : e ∈ old ∨ e.1 = inside := by
  rcases List.mem_append.1 h with h | h
  · exact .inl (List.mem_of_mem_take h)
  · obtain ⟨w, _, rfl⟩ := List.mem_map.1 h
    exact .inr rfl

end Restaging

/-! ## The ledger -/

/-- The scopes that are open, the innermost one first. -/
def Nest.inside {σ ρ ς : Type} (n : Nest σ ρ ς) : List StatusId := n.scopes.map OpenScope.status

/-- A run of nested scopes on a store, with what is known of its staged changes. -/
structure Ledger where
  nest : Nest Store ConnectionId Savepoint
  staged : ConnectionId → List StagedWrite
  /-- How many scopes had been opened when a scope ended. -/
  ended : StatusId → Nat
  /-- The scope whose end last took the mark of a transaction back, if it was not set again. -/
  forgiver : HolderId → Option StatusId

namespace Ledger

def session (l : Ledger) : Session Store ConnectionId Savepoint := l.nest.session

/-- The ledger after a call of the client that led to another nest. -/
def moved (l : Ledger) (n : Nest Store ConnectionId Savepoint) : Ledger where
  nest := n
  staged k := restaged l.nest.inside (l.staged k) (n.session.native.log k)
  ended t := if t ∈ l.nest.inside ∧ t ∉ n.inside then n.session.statuses.size else l.ended t
  forgiver h :=
    if n.session.marked h then none
    else if l.session.marked h then l.nest.inside.head?
    else l.forgiver h

def step (m : Manager Store ConnectionId Savepoint) (c : ContextIndex) (l : Ledger)
    (call : ScopeCall StagingAct) : Ledger :=
  l.moved (l.nest.step m c (StagingAct.perform m.backend.key c) call)

/-- Calls one after another. The nest goes through them as it would without the ledger (`run_nest`). -/
def run (m : Manager Store ConnectionId Savepoint) (c : ContextIndex) (calls : List (ScopeCall StagingAct))
    (l : Ledger) : Ledger :=
  calls.foldl (step m c) l

/-- A ledger that is opened while no scope is. -/
def start (s : Session Store ConnectionId Savepoint) : Ledger where
  nest := ⟨s, []⟩
  staged k := (s.native.log k).map fun w => ([], w)
  ended _ := 0
  forgiver _ := none

theorem run_nest (m : Manager Store ConnectionId Savepoint) (c : ContextIndex)
    (calls : List (ScopeCall StagingAct)) (l : Ledger) :
    (l.run m c calls).nest = l.nest.run m c (StagingAct.perform m.backend.key c) calls := by
  induction calls generalizing l with
  | nil => rfl
  | cons call calls ih => exact ih (l.step m c call)

end Ledger

/-! ## What is known of the scopes around a change -/

/-- Scopes are opened one inside the other: what was staged inside a scope was staged inside all scopes
around it, and a scope that ended was either opened inside a scope that is still open or had ended
before that one was opened. -/
structure Tagged (l : Ledger) : Prop where
  logs : ∀ k, (l.staged k).map Prod.snd = l.session.native.log k
  sorted : l.nest.inside.Pairwise (· > ·)
  live : ∀ t ∈ l.nest.inside, ∃ st, l.session.status? t = some st ∧ st.isCompleted = false
  tags : ∀ k, ∀ e ∈ l.staged k, ∀ t ∈ e.1, t < l.session.statuses.size
  covered : ∀ k, ∀ e ∈ l.staged k, ∀ t ∈ e.1, ∀ u ∈ l.nest.inside, u < t → u ∈ e.1
  endings : ∀ t, l.ended t ≤ l.session.statuses.size
  parted : ∀ t st, l.session.status? t = some st → st.isCompleted = true →
    ∀ u ∈ l.nest.inside, u < t ∨ l.ended t ≤ u

namespace Tagged

variable {l : Ledger} {n : Nest Store ConnectionId Savepoint}

theorem inside_lt (hl : Tagged l) {t : StatusId} (ht : t ∈ l.nest.inside) : t < l.session.statuses.size := by
  obtain ⟨st, hst, _⟩ := hl.live t ht
  exact status?_lt hst

theorem not_inside (hl : Tagged l) {t : StatusId} {st : Status Savepoint} (hst : l.session.status? t = some st)
    (hc : st.isCompleted = true) : t ∉ l.nest.inside := by
  intro ht
  obtain ⟨st', hst', ho⟩ := hl.live t ht
  obtain rfl := Option.some.inj (hst'.symm.trans hst)
  rw [hc] at ho; cases ho

theorem ended_moved (hl : Tagged l) {t : StatusId} {st : Status Savepoint} (hst : l.session.status? t = some st)
    (hc : st.isCompleted = true) : (l.moved n).ended t = l.ended t :=
  if_neg fun h => hl.not_inside hst hc h.1

/-- A call keeps the ledger in order, whatever it does to the transactions. -/
theorem moved (hl : Tagged l)
    (hlogs : ∀ k, l.session.native.log k <+: n.session.native.log k ∨
      n.session.native.log k <+: l.session.native.log k)
    (hcount : l.session.statuses.size ≤ n.session.statuses.size) (hsorted : n.inside.Pairwise (· > ·))
    (hlive : ∀ t ∈ n.inside, ∃ st, n.session.status? t = some st ∧ st.isCompleted = false)
    (hinside : ∀ t ∈ n.inside, t ∈ l.nest.inside ∨ t = l.session.statuses.size)
    (hleft : ∀ t ∈ l.nest.inside, t ∉ n.inside → ∀ u ∈ n.inside, u < t)
    (hcompleted : ∀ t st, n.session.status? t = some st → st.isCompleted = true →
      (∃ st', l.session.status? t = some st' ∧ st'.isCompleted = true) ∨ (t ∈ l.nest.inside ∧ t ∉ n.inside)) :
    Tagged (l.moved n) := by
  have htag : ∀ k, ∀ e ∈ (l.moved n).staged k, ∀ t ∈ e.1, t < l.session.statuses.size := by
    intro k e he t ht
    rcases mem_restaged he with he | heq
    · exact hl.tags k e he t ht
    · rw [heq] at ht
      exact hl.inside_lt ht
  refine ⟨fun k => ?_, hsorted, hlive, ?_, ?_, fun t => ?_, ?_⟩
  · have hk := hlogs k
    rw [← hl.logs k] at hk
    exact map_restaged hk
  · intro k e he t ht
    exact Nat.lt_of_lt_of_le (htag k e he t ht) hcount
  · -- what is staged now is staged inside every open scope, and nothing is inside a scope yet that is only opened
    intro k e he t ht u hu hlt
    rcases hinside u hu with hu | rfl
    · rcases mem_restaged he with he | heq
      · exact hl.covered k e he t ht u hu hlt
      · rw [heq]; exact hu
    · exact absurd hlt (Nat.lt_asymm (htag k e he t ht))
  · show (if _ then n.session.statuses.size else l.ended t) ≤ n.session.statuses.size
    split
    · exact Nat.le_refl _
    · exact Nat.le_trans (hl.endings t) hcount
  · -- a scope that ends is the innermost one, and a scope that is opened comes behind all that ended
    intro t st hst hc u hu
    rcases hcompleted t st hst hc with ⟨st', hst', hc'⟩ | ⟨ht, hout⟩
    · rw [hl.ended_moved hst' hc']
      rcases hinside u hu with hu | rfl
      · exact hl.parted t st' hst' hc' u hu
      · exact .inr (hl.endings t)
    · exact .inl (hleft t ht hout u hu)

end Tagged

end Demarcation
