/-
Recording backends. A backend whose calls are written down shows what a manager asks of each
transaction. In any order of calls, failing or not, every transaction is completed once, by its
owner, and cleaned up once.
-/
import Demarcation.Proofs.Manager.Mirror
import Demarcation.Primitive

namespace Demarcation

open Session Manager

variable {σ ρ ς α β : Type}

/-- A call of a primitive on a numbered resource, with whether it succeeded. -/
structure NativeCall where
  primitive : Primitive
  resource : Nat
  ok : Bool
deriving DecidableEq, Repr

/-- A native state, how many transactions have begun on it, and the calls made so far. -/
structure Recorded (σ : Type) where
  state : σ
  begun : Nat := 0
  calls : List NativeCall := []

/-- The primitives that complete a transaction or release its resource. -/
def Primitive.completes : Primitive → Bool
  | commit | rollback | cleanup => true
  | begin | suspend | resume | createSavepoint | rollbackToSavepoint | releaseSavepoint => false

namespace Recorded

/-- Runs an operation and writes it down as a call of `p` on the resource `n`. -/
def note (p : Primitive) (n : Nat) (op : Native σ α) : Native (Recorded σ) α := fun t =>
  ((op t.state).1,
    { t with state := (op t.state).2, calls := t.calls ++ [⟨p, n, (op t.state).1.isOk⟩] })

/-- The calls that completed or released a resource, in order. -/
def completions (t : Recorded σ) (n : Nat) : List (Primitive × Bool) :=
  (t.calls.filter fun k => k.resource == n && k.primitive.completes).map fun k => (k.primitive, k.ok)

theorem completions_note (p : Primitive) (k : Nat) (op : Native σ α) (t : Recorded σ) (n : Nat) :
    (note p k op t).2.completions n =
      t.completions n ++ if k = n ∧ p.completes = true then [(p, (op t.state).1.isOk)] else [] := by
  unfold completions note
  rw [List.filter_append, List.map_append]
  congr 1
  by_cases hk : k = n
  · cases hp : p.completes <;> simp [hk, hp]
  · simp [hk]

/-- A call that completes nothing is not seen among the completions. -/
theorem completions_note_of_not {p : Primitive} (hp : p.completes = false) (k : Nat) (op : Native σ α)
    (t : Recorded σ) : (note p k op t).2.completions = t.completions := by
  funext n
  rw [completions_note, hp]
  simp

end Recorded

/-- The backend with its calls written down. The resources are numbered in the order in which their
transactions began. -/
def Backend.recorded (b : Backend σ ρ ς) : Backend (Recorded σ) (Nat × ρ) ς where
  key := b.key
  kind := b.kind
  capabilities := b.capabilities
  start d t :=
    match Recorded.note .begin t.begun (b.start d) t with
    | (.ok r, t') => (.ok (t.begun, r), { t' with begun := t.begun + 1 })
    | (.error f, t') => (.error f, t')
  suspend r := Recorded.note .suspend r.1 (b.suspend r.2)
  resume r := Recorded.note .resume r.1 (b.resume r.2)
  commit r := Recorded.note .commit r.1 (b.commit r.2)
  rollback r := Recorded.note .rollback r.1 (b.rollback r.2)
  cleanup r := Recorded.note .cleanup r.1 (b.cleanup r.2)
  createSavepoint r := Recorded.note .createSavepoint r.1 (b.createSavepoint r.2)
  rollbackToSavepoint r sp := Recorded.note .rollbackToSavepoint r.1 (b.rollbackToSavepoint r.2 sp)
  releaseSavepoint r sp := Recorded.note .releaseSavepoint r.1 (b.releaseSavepoint r.2 sp)

/-- The manager with the calls to its backend written down. -/
def Manager.recorded (m : Manager σ ρ ς) : Manager (Recorded σ) (Nat × ρ) ς :=
  { backend := m.backend.recorded, config := m.config }

/-- What is there without the record. -/
def unrecorded : NativeView (Recorded σ) σ (Nat × ρ) ρ := ⟨Recorded.state, Prod.snd⟩

/-- Writing the calls down changes nothing else. -/
theorem recorded_mirrored (m : Manager σ ρ ς) : m.recorded.Mirrored unrecorded m := by
  have hnote : ∀ {δ : Type} (p : Primitive) (n : Nat) (op : Native σ δ),
      Native.Mirrored Recorded.state (Recorded.note p n op) op := fun _ _ _ _ => rfl
  refine ⟨⟨rfl, rfl, rfl, fun d t => ?_, fun r => hnote _ _ _, fun r => hnote _ _ _, fun r => hnote _ _ _,
    fun r => hnote _ _ _, fun r => hnote _ _ _, fun r => hnote _ _ _, fun r sp => hnote _ _ _,
    fun r sp => hnote _ _ _⟩, rfl⟩
  have hstart := hnote .begin t.begun (m.backend.start d) t
  show m.backend.start d t.state =
    ((m.backend.recorded.start d t).1.map Prod.snd, (m.backend.recorded.start d t).2.state)
  unfold Backend.recorded
  dsimp only
  rcases hrun : Recorded.note .begin t.begun (m.backend.start d) t with ⟨_ | _, _⟩ <;> rw [hrun] at hstart <;>
    exact hstart

/-- What a manager may ask of a transaction to end it. A commit is asked for only if the work is to be
`kept`; a rollback follows it only where it failed and that is configured; and the resource is
cleaned up once, at last. -/
inductive Ending (config : ManagerConfig) : Bool → List (Primitive × Bool) → Prop
  | committed {cleaned : Bool} : Ending config true [(.commit, true), (.cleanup, cleaned)]
  | commitFailed {cleaned : Bool} : config.rollbackOnCommitFailure = false →
    Ending config true [(.commit, false), (.cleanup, cleaned)]
  | commitUndone {undone cleaned : Bool} : config.rollbackOnCommitFailure = true →
    Ending config true [(.commit, false), (.rollback, undone), (.cleanup, cleaned)]
  | rolledBack {undone cleaned : Bool} : Ending config false [(.rollback, undone), (.cleanup, cleaned)]

/-! ## What the record shows of one call -/

/-- How many transactions have begun, and how far each is completed. -/
def Recorded.summary (t : Recorded σ) : Nat × (Nat → List (Primitive × Bool)) := (t.begun, t.completions)

theorem recorded_unmoved (b : Backend σ ρ ς) : b.recorded.Unmoved Recorded.summary := by
  have hnote : ∀ {δ : Type} {p : Primitive}, p.completes = false → ∀ k (op : Native σ δ) (t : Recorded σ),
      (Recorded.note p k op t).2.summary = t.summary := by
    intro δ p hp k op t
    exact Prod.ext rfl (Recorded.completions_note_of_not hp k op t)
  refine ⟨⟨?_, fun r => hnote rfl _ _, fun r => hnote rfl _ _, fun r => hnote rfl _ _⟩,
    fun r sp => hnote rfl _ _, fun r sp => hnote rfl _ _⟩
  intro d t f t' hstart
  have hbegin := hnote (δ := ρ) (p := .begin) rfl t.begun (b.start d) t
  unfold Backend.recorded at hstart
  dsimp only at hstart
  rcases hrun : Recorded.note .begin t.begun (b.start d) t with ⟨_ | _, t''⟩ <;> rw [hrun] at hstart hbegin <;>
    cases hstart
  exact hbegin

theorem recorded_start {b : Backend σ ρ ς} {d : Definition} {t t' : Recorded σ} {r : Nat × ρ}
    (hstart : b.recorded.start d t = (.ok r, t')) :
    r.1 = t.begun ∧ t'.begun = t.begun + 1 ∧ t'.completions = t.completions := by
  have hbegin := Recorded.completions_note_of_not (p := .begin) rfl t.begun (b.start d) t
  unfold Backend.recorded at hstart
  dsimp only at hstart
  rcases hrun : Recorded.note .begin t.begun (b.start d) t with ⟨_ | _, t''⟩ <;> rw [hrun] at hstart hbegin <;>
    cases hstart
  exact ⟨rfl, rfl, hbegin⟩

section Owners

variable {m : Manager σ ρ ς} {c : ContextIndex} {commit : Bool} {st : Status ς} {h : HolderId}
  {s s' s₁ s₂ : Session (Recorded σ) (Nat × ρ) ς} {x : Holder (Nat × ρ)}

/-- A call on the resource of a holder, as the completions show it. -/
theorem applied_completions (hx : s.holder? h = some x) {p : Primitive} (hp : p.completes = true)
    {op : ρ → Native σ Unit} {r : Except Failure Unit} {t : Recorded σ}
    (happ : s.applied (some h) (fun r => Recorded.note p r.1 (op r.2)) = (r, t)) (n : Nat) :
    t.completions n = s.native.completions n ++ if x.resource.1 = n then [(p, r.isOk)] else [] := by
  rw [applied_of_holder hx] at happ
  have hnote := Recorded.completions_note p x.resource.1 (op x.resource.2) s.native n
  rw [happ] at hnote
  rw [hnote, hp]
  have hr : (op x.resource.2 s.native.state).1 = r := congrArg Prod.fst happ
  simp only [and_true, hr]

/-- What the owner's work asks of its transaction; only the cleanup is missing. -/
theorem Manager.Working.owner {state : TransactionState} {outcome : Except TransactionError Unit}
    (hw : Working m.recorded commit st s state outcome s') (hnew : st.newTransaction = true)
    (hsp : st.savepoint = none) (hh : st.holder = some h) (hx : s.holder? h = some x) :
    ∃ calls : List (Primitive × Bool),
      (∀ n, s'.native.completions n = s.native.completions n ++ if x.resource.1 = n then calls else []) ∧
      ∀ cleaned, Ending m.config (keepsWork commit st s) (calls ++ [(.cleanup, cleaned)]) := by
  cases hw with
  | kept _ _ hnew' | marked _ _ hnew' | unmarked _ _ hnew' => rw [hnew] at hnew'; cases hnew'
  | savepointReleased _ hsp' | returnFailed _ hsp' | returned _ hsp' => rw [hsp] at hsp'; cases hsp'
  | committed hk _ _ happ =>
    rw [hk]
    rw [hh] at happ
    exact ⟨_, applied_completions hx rfl happ, fun _ => .committed⟩
  | commitFailed hk _ _ happ hoff =>
    rw [hk]
    rw [hh] at happ
    exact ⟨_, applied_completions hx rfl happ, fun _ => .commitFailed hoff⟩
  | @commitUndone f n r n' hk _ _ happ hon hundo =>
    rw [hk]
    rw [hh] at happ hundo
    -- the rollback follows the commit that failed
    have hx' : (s.withNative n).holder? h = some x := hx
    refine ⟨[(.commit, false), (.rollback, r.isOk)], fun k => ?_, fun _ => .commitUndone hon⟩
    show n'.completions k = _
    rw [applied_completions hx' rfl hundo k]
    show n.completions k ++ _ = _
    rw [applied_completions hx rfl happ k, List.append_assoc]
    split <;> rfl
  | undone hk _ _ happ =>
    rw [hk]
    rw [hh] at happ
    exact ⟨_, applied_completions hx rfl happ, fun _ => .rolledBack⟩

/-- The owner's release asks for one cleanup. -/
theorem Manager.Releasing.owner {r : Except TransactionError Unit} (hr : Releasing m.recorded c st s r s')
    (hnew : st.newTransaction = true) (hh : st.holder = some h) (hx : s.holder? h = some x) :
    ∃ cleaned, ∀ n, s'.native.completions n =
      s.native.completions n ++ if x.resource.1 = n then [(.cleanup, cleaned)] else [] := by
  cases hr with
  | nothing hh' => rw [hh] at hh'; cases hh'
  | reference _ hnew' => rw [hnew] at hnew'; cases hnew'
  | @transaction h' r₁ s₁ r₂ n hh' _ hun happ =>
    obtain rfl : h' = h := Option.some.inj (hh'.symm.trans hh)
    have hsteady : Steady s (s₁.modifyHolder h' giveUp) :=
      ((Alike.purge s c _).trans hun.alike).trans (.modifyHolder s₁ h' fun _ => rfl)
    obtain ⟨y, hy, hres⟩ := hsteady.holder hx
    have hnative : (s₁.modifyHolder h' giveUp).native = s.native := hun.native.trans (native_purge s c _)
    refine ⟨r₂.isOk, fun k => ?_⟩
    show n.completions k = _
    rw [applied_completions hy rfl happ k, hnative, hres]

/-- Completing an owner appends one ending to the completions of its transaction. -/
theorem Manager.Concluding.owner {t : StatusId} {r : Except TransactionError Unit}
    (hst : s.status? t = some st) (hc : Concluding m.recorded commit c t st s r s')
    (hnew : st.newTransaction = true) (hsp : st.savepoint = none) (hh : st.holder = some h)
    (hx : s.holder? h = some x) :
    ∃ ending, Ending m.config (keepsWork commit st s) ending ∧ ∀ n, s'.native.completions n =
      s.native.completions n ++ if x.resource.1 = n then ending else [] := by
  obtain ⟨state, outcome, s₁, r₁, s₂, hwork, hrel, hn, -⟩ := hc.outline hst (recorded_unmoved m.backend).toUntouched
  obtain ⟨calls, hcalls, hending⟩ := hwork.owner hnew hsp hh hx
  obtain ⟨y, hy, hres⟩ := hwork.steady.holder hx
  -- the cleanup comes behind whatever the work asked for
  obtain ⟨cleaned, hcleaned⟩ := hrel.owner (s := s₁.endStatus t state) hnew hh hy
  refine ⟨_, hending cleaned, fun n => ?_⟩
  have hsame : s'.native.completions = s₂.native.completions := congrArg Prod.snd hn
  rw [hsame, hcleaned, hres]
  show s₁.native.completions n ++ _ = _
  rw [hcalls, List.append_assoc]
  split <;> rfl

end Owners

/-! ## What holds between calls -/

/-- The session after a client's own work: the state behind the record and the clock become anything. -/
def elapseRecorded (a : σ × Instant) (s : Session (Recorded σ) ρ ς) : Session (Recorded σ) ρ ς :=
  { s with native := { s.native with state := a.1 }, now := a.2 }

/-- Resources are numbered like their holders. -/
structure Numbered (s : Session (Recorded σ) (Nat × ρ) ς) : Prop where
  count : s.holders.size = s.native.begun
  numbers : ∀ h x, s.holder? h = some x → x.resource.1 = h

/-- A transaction is completed exactly if its owner is. -/
structure Settled (config : ManagerConfig) (s : Session (Recorded σ) (Nat × ρ) ς) : Prop
    extends Numbered s where
  owned : Owned s
  unbegun : ∀ n, s.native.begun ≤ n → s.native.completions n = []
  running : ∀ t st n, s.status? t = some st → s.owned? t = some n → st.isCompleted = false →
    s.native.completions n = []
  ended : ∀ t st n, s.status? t = some st → s.owned? t = some n → st.isCompleted = true →
    ∃ kept, Ending config kept (s.native.completions n)

section Calls

variable {m : Manager σ ρ ς} {s : Session (Recorded σ) (Nat × ρ) ς} {call : ManagerCall (σ × Instant)}

theorem elapseRecorded_steady (a : σ × Instant) (s : Session (Recorded σ) (Nat × ρ) ς) :
    Steady s (elapseRecorded a s) := ⟨rfl, fun _ => rfl⟩

/-- An owner's transaction, its holder and its number. -/
theorem Settled.owner (hs : Settled m.config s) {t : StatusId} {st : Status ς} {n : Nat}
    (hst : s.status? t = some st) (hown : s.owned? t = some n) :
    st.newTransaction = true ∧ st.savepoint = none ∧ st.holder = some n ∧
      ∃ x, s.holder? n = some x ∧ x.resource.1 = n := by
  obtain ⟨hnew, hh⟩ := Owned.holder_of_owned hst hown
  obtain ⟨hsp, h, hh', hlt⟩ := hs.owned.own t st hst hnew
  obtain rfl := Option.some.inj (hh'.symm.trans hh)
  refine ⟨hnew, hsp, hh, s.holders[h], Array.getElem?_eq_getElem hlt, ?_⟩
  exact hs.numbers h _ (Array.getElem?_eq_getElem hlt)

/-- Completing a scope leaves alone every transaction but the one that the scope began. -/
theorem Settled.completions_other (hs : Settled m.config s) {commit : Bool} {c : ContextIndex} {t : StatusId}
    {st : Status ς} {r : Except TransactionError Unit} {s' : Session (Recorded σ) (Nat × ρ) ς} {n : Nat}
    (hst : s.status? t = some st) (hc : Concluding m.recorded commit c t st s r s')
    (hown : s.owned? t ≠ some n) : s'.native.completions n = s.native.completions n := by
  cases hnew : st.newTransaction with
  | false => exact congrFun (congrArg Prod.snd (hc.participant hst (recorded_unmoved m.backend) hnew)) n
  | true =>
    obtain ⟨hsp, h, hh, _⟩ := hs.owned.own t st hst hnew
    have hown' : s.owned? t = some h := by rw [Owned.owned?_eq hst, hnew, if_pos rfl, hh]
    obtain ⟨_, _, _, x, hx, hnumber⟩ := hs.owner hst hown'
    obtain ⟨_, _, hcalls⟩ := hc.owner hst hnew hsp hh hx
    have hne : x.resource.1 ≠ n := by
      rw [hnumber]
      exact fun heq => hown (heq ▸ hown')
    rw [hcalls, if_neg hne, List.append_nil]

/-- A call completes the transaction whose owner it completes, in one of the ways to end it, and no
other. -/
theorem Settled.completions_called (hs : Settled m.config s) (call : ManagerCall (σ × Instant)) (n : Nat) :
    (∃ commit c t st ending, call = .conclude commit c t ∧ s.status? t = some st ∧ st.isCompleted = false ∧
      s.owned? t = some n ∧ Ending m.config (keepsWork commit st s) ending ∧
      (m.recorded.called elapseRecorded s call).native.completions n = s.native.completions n ++ ending) ∨
    ((∀ commit c t st, call = .conclude commit c t → s.status? t = some st → st.isCompleted = false →
      s.owned? t ≠ some n) ∧
      (m.recorded.called elapseRecorded s call).native.completions n = s.native.completions n) := by
  cases call with
  | enter c d =>
    refine .inr ⟨fun _ _ _ _ h => (by cases h), ?_⟩
    obtain ⟨r, s', hrun, houtline⟩ := getTransaction_outline m.recorded c d s (recorded_unmoved m.backend).toUntouched
    show (m.recorded.getTransaction c d s).2.native.completions n = _
    rw [hrun]
    have hsame : ∀ {t : Recorded σ}, t.summary = s.native.summary → t.completions n = s.native.completions n :=
      fun h => congrFun (congrArg Prod.snd h) n
    cases houtline with
    | failed _ hn => exact hsame hn
    | entered _ hn => exact hsame hn
    | begun _ hn hstart =>
      obtain ⟨_, _, hcompletions⟩ := recorded_start hstart
      exact (congrFun hcompletions n).trans (hsame hn)
  | conclude commit c t =>
    rw [show m.recorded.called elapseRecorded s (.conclude commit c t) = (m.recorded.conclude commit c t s).2 from rfl]
    rcases conclude_cases m.recorded commit c t s with ⟨hrefused, hdone⟩ | ⟨st, r, s', hst, hopen, hrun, hc⟩
    · refine .inr ⟨?_, by rw [hrefused]⟩
      rintro _ _ _ st ⟨⟩ hst hopen
      rw [hdone st hst] at hopen; cases hopen
    · rw [hrun]
      by_cases hown : s.owned? t = some n
      · obtain ⟨hnew, hsp, hh, x, hx, hnumber⟩ := hs.owner hst hown
        obtain ⟨ending, hending, hcalls⟩ := hc.owner hst hnew hsp hh hx
        exact .inl ⟨commit, c, t, st, ending, rfl, hst, hopen, hown, hending, (hcalls n).trans (by rw [if_pos hnumber])⟩
      · refine .inr ⟨?_, hs.completions_other hst hc hown⟩
        rintro _ _ _ _ ⟨⟩ _ _
        exact hown
  | mark t => exact .inr ⟨fun _ _ _ _ h => (by cases h), rfl⟩
  | act a => exact .inr ⟨fun _ _ _ _ h => (by cases h), rfl⟩

/-- Only a beginning changes how many transactions have begun. -/
theorem begun_conclude (m : Manager σ ρ ς) (hs : Settled m.config s) (commit : Bool) (c : ContextIndex)
    (t : StatusId) : (m.recorded.conclude commit c t s).2.native.begun = s.native.begun := by
  rcases conclude_cases m.recorded commit c t s with ⟨hrefused, _⟩ | ⟨st, r, s', hst, _, hrun, hc⟩
  · rw [hrefused]
  · rw [hrun]
    have hunmoved := recorded_unmoved m.backend
    cases hnew : st.newTransaction with
    | false => exact congrArg Prod.fst (hc.participant hst hunmoved hnew)
    | true =>
      obtain ⟨hsp, _⟩ := hs.owned.own t st hst hnew
      obtain ⟨_, _, s₁, _, s₂, hwork, hrel, hn, -⟩ := hc.outline hst hunmoved.toUntouched
      have hreleased : s₂.native.begun = s₁.native.begun :=
        hrel.observed (φ := Recorded.begun) fun _ _ => rfl
      refine ((congrArg Prod.fst hn).trans hreleased).trans ?_
      rcases hwork.observed (φ := Recorded.begun) (fun _ _ => rfl) hnew hsp with ⟨_, hsame, _⟩ | ⟨_, hsame, _⟩
      · exact hsame
      · exact hsame.trans (applied_observed (φ := Recorded.begun) fun _ _ => rfl)

theorem Numbered.congr {s' : Session (Recorded σ) (Nat × ρ) ς} (hs : Numbered s)
    (hres : ∀ h, (s'.holder? h).map Holder.resource = (s.holder? h).map Holder.resource)
    (hbegun : s'.native.begun = s.native.begun) : Numbered s' := by
  refine ⟨(holders_size_of_alike hres).trans (hs.count.trans hbegun.symm), fun h x' hx' => ?_⟩
  have heq := hres h
  rw [hx'] at heq
  obtain ⟨x, hx, hsame⟩ := Option.map_eq_some_iff.1 heq.symm
  rw [← hsame]
  exact hs.numbers h x hx

theorem Numbered.begun {s₁ : Session (Recorded σ) (Nat × ρ) ς} (hs : Numbered s₁) {d : Definition}
    {x : Holder (Nat × ρ)} {n : Recorded σ} (hstart : m.recorded.backend.start d s₁.native = (.ok x.resource, n))
    (c : ContextIndex) (key : ResourceKey) (st : Status ς) : Numbered ((s₁.started c key x n).addStatus st).2 := by
  obtain ⟨hnumber, hbegun, _⟩ := recorded_start hstart
  refine ⟨?_, fun h y hy => ?_⟩
  · have hsize := started_size s₁ c key x n
    have hcount := hs.count
    show (s₁.started c key x n).holders.size = n.begun
    omega
  · rw [holder?_addStatus, holder?_started] at hy
    split at hy
    · rename_i hh
      obtain rfl := Option.some.inj hy
      exact hnumber.trans (hs.count.symm.trans hh.symm)
    · exact hs.numbers h y hy

theorem Settled.numbered (hs : Settled m.config s) (call : ManagerCall (σ × Instant)) :
    Numbered (m.recorded.called elapseRecorded s call) := by
  cases call with
  | enter c d =>
    obtain ⟨r, s', hrun, houtline⟩ := getTransaction_outline m.recorded c d s (recorded_unmoved m.backend).toUntouched
    show Numbered (m.recorded.getTransaction c d s).2
    rw [hrun]
    cases houtline with
    | failed halike hn => exact hs.toNumbered.congr halike.steady.holders (congrArg Prod.fst hn)
    | entered halike hn => exact hs.toNumbered.congr halike.steady.holders (congrArg Prod.fst hn)
    | begun halike hn hstart =>
      exact (hs.toNumbered.congr halike.steady.holders (congrArg Prod.fst hn)).begun hstart c _ _
  | conclude commit c t =>
    have hbegun := begun_conclude m hs commit c t
    rcases conclude_statuses m.recorded s commit c t with hsame | ⟨_, _, _, _, _, hres⟩
    · show Numbered (m.recorded.conclude commit c t s).2
      rw [hsame]; exact hs.toNumbered
    · exact hs.toNumbered.congr hres hbegun
  | mark t => exact ⟨hs.count, hs.numbers⟩
  | act a => exact ⟨hs.count, hs.numbers⟩

/-- Where an owner stood before a call. -/
theorem before_called (hact : ∀ a, call = .act a → Steady s (elapseRecorded a s))
    {t : StatusId} {st st' : Status ς} {n : Nat} (hst : s.status? t = some st)
    (hst' : (m.recorded.called elapseRecorded s call).status? t = some st')
    (hown' : (m.recorded.called elapseRecorded s call).owned? t = some n) :
    s.owned? t = some n ∧ (st'.completion = st.completion ∨
      ∃ commit c, call = .conclude commit c t ∧ st.isCompleted = false ∧ st'.isCompleted = true) := by
  obtain ⟨st'', hst'', hnew, hholder, hend⟩ := called_status m.recorded call hact hst
  obtain rfl : st'' = st' := Option.some.inj (hst''.symm.trans hst')
  rw [Owned.owned?_eq hst', hnew, hholder] at hown'
  exact ⟨(Owned.owned?_eq hst).trans hown', hend⟩

/-- A transaction that has not begun has no owner that a call could complete. -/
theorem Settled.unbegun_called (hs : Settled m.config s) (call : ManagerCall (σ × Instant)) {n : Nat}
    (hn : (m.recorded.called elapseRecorded s call).native.begun ≤ n) :
    (m.recorded.called elapseRecorded s call).native.completions n = [] := by
  have howned := hs.owned.called (m := m.recorded) call fun a _ => elapseRecorded_steady a s
  have hfresh : ∀ t, s.owned? t ≠ some n := by
    intro t hown
    have hlt := howned.range
      (owned?_called m.recorded call (fun a _ => elapseRecorded_steady a s) hown)
    rw [(hs.numbered call).count] at hlt
    exact absurd hlt (Nat.not_lt_of_le hn)
  rcases hs.completions_called call n with ⟨_, _, t, _, _, _, _, _, hown, _⟩ | ⟨_, hsame⟩
  · exact absurd hown (hfresh t)
  · rw [hsame]
    refine hs.unbegun n (Nat.le_of_not_lt fun hlt => ?_)
    obtain ⟨t, hown⟩ := hs.owned.each n (hs.count ▸ hlt)
    exact hfresh t hown

/-- An owner that is open after a call was not completed by it. -/
theorem Settled.running_called (hs : Settled m.config s) (call : ManagerCall (σ × Instant)) {t : StatusId}
    {st' : Status ς} {n : Nat} (hst' : (m.recorded.called elapseRecorded s call).status? t = some st')
    (hown' : (m.recorded.called elapseRecorded s call).owned? t = some n) (hopen' : st'.isCompleted = false) :
    (m.recorded.called elapseRecorded s call).native.completions n = [] := by
  have hact : ∀ a, call = .act a → Steady s (elapseRecorded a s) := fun a _ => elapseRecorded_steady a s
  cases hst : s.status? t with
  | none =>
    -- the transaction has just begun
    obtain ⟨c, d, rfl, _, hnew⟩ := called_status_new m.recorded call hact hst hst'
    obtain ⟨hnew', hh⟩ := Owned.holder_of_owned hst' hown'
    have hn : s.holders.size = n := Option.some.inj ((hnew hnew').symm.trans hh)
    rcases hs.completions_called (.enter c d) n with ⟨_, _, _, _, _, hcall, _⟩ | ⟨_, hsame⟩
    · cases hcall
    · rw [hsame]
      exact hs.unbegun n (Nat.le_of_eq (hs.count.symm.trans hn))
  | some st =>
    obtain ⟨hown, hend⟩ := before_called hact hst hst' hown'
    have hopen : st.isCompleted = false := by
      rcases hend with hsame | ⟨_, _, _, hopen, _⟩
      · exact (Status.isCompleted_congr hsame).symm.trans hopen'
      · exact hopen
    rcases hs.completions_called call n with ⟨commit, c, t₁, st₁, _, rfl, hst₁, hopen₁, hown₁, _⟩ | ⟨_, hsame⟩
    · obtain rfl := hs.owned.unique t₁ t n hown₁ hown
      obtain ⟨state, hended⟩ := conclude_completes m.recorded commit c hst₁ hopen₁
      obtain rfl := Option.some.inj (hst'.symm.trans hended)
      cases hopen'
    · rw [hsame]; exact hs.running t st n hst hown hopen

/-- An owner that is completed after a call was completed by it or before it. -/
theorem Settled.ended_called (hs : Settled m.config s) (call : ManagerCall (σ × Instant)) {t : StatusId}
    {st' : Status ς} {n : Nat} (hst' : (m.recorded.called elapseRecorded s call).status? t = some st')
    (hown' : (m.recorded.called elapseRecorded s call).owned? t = some n) (hcomplete : st'.isCompleted = true) :
    ∃ kept, Ending m.config kept ((m.recorded.called elapseRecorded s call).native.completions n) := by
  have hact : ∀ a, call = .act a → Steady s (elapseRecorded a s) := fun a _ => elapseRecorded_steady a s
  cases hst : s.status? t with
  | none =>
    obtain ⟨_, _, _, hnone, _⟩ := called_status_new m.recorded call hact hst hst'
    rw [Status.isCompleted_of_none hnone] at hcomplete
    cases hcomplete
  | some st =>
    obtain ⟨hown, hend⟩ := before_called hact hst hst' hown'
    rcases hs.completions_called call n with
      ⟨_, _, t₁, st₁, ending, _, hst₁, hopen₁, hown₁, hending, hcalls⟩ | ⟨hno, hsame⟩
    · obtain rfl := hs.owned.unique t₁ t n hown₁ hown
      rw [hcalls, hs.running t₁ st₁ n hst₁ hown₁ hopen₁]
      exact ⟨_, hending⟩
    · rw [hsame]
      rcases hend with hsame' | ⟨commit, c, hcall, hopen, _⟩
      · exact hs.ended t st n hst hown ((Status.isCompleted_congr hsame').symm.trans hcomplete)
      · exact absurd hown (hno commit c t st hcall hst hopen)

theorem Settled.called (hs : Settled m.config s) (call : ManagerCall (σ × Instant)) :
    Settled m.config (m.recorded.called elapseRecorded s call) := by
  refine ⟨hs.numbered call, hs.owned.called (m := m.recorded) call fun a _ => elapseRecorded_steady a s, ?_, ?_, ?_⟩
  · intro n hn
    exact hs.unbegun_called call hn
  · intro t st n hst hown hopen
    exact hs.running_called call hst hown hopen
  · intro t st n hst hown hcomplete
    exact hs.ended_called call hst hown hcomplete

theorem Settled.calledAll (hs : Settled m.config s) (calls : List (ManagerCall (σ × Instant))) :
    Settled m.config (m.recorded.calledAll elapseRecorded calls s) := by
  induction calls generalizing s with
  | nil => exact hs
  | cons call calls ih => exact ih (hs.called call)

theorem Settled.start (config : ManagerConfig) (contexts : Nat) (state : σ) :
    Settled config (Session.ofContexts contexts { state } : Session (Recorded σ) (Nat × ρ) ς) := by
  refine ⟨⟨rfl, ?_⟩, .ofContexts contexts _, fun _ _ => rfl, fun _ _ _ _ _ _ => rfl, ?_⟩
  · intro h x hx
    cases hx
  · intro t st n hst
    cases hst

end Calls

theorem seen_ofContexts (contexts : Nat) (state : σ) :
    (Session.ofContexts contexts { state } : Session (Recorded σ) (Nat × ρ) ς).seen unrecorded =
      Session.ofContexts contexts state := ofContexts_seen unrecorded contexts { state }

theorem recorded_calledAll (m : Manager σ ρ ς) (contexts : Nat) (state : σ)
    (calls : List (ManagerCall (σ × Instant))) :
    (m.recorded.calledAll elapseRecorded calls (Session.ofContexts contexts { state })).seen unrecorded =
      m.calledAll elapse calls (Session.ofContexts contexts state) := by
  have hact : ∀ (a : σ × Instant) (s : Session (Recorded σ) (Nat × ρ) ς),
      elapse a (s.seen unrecorded) = (elapseRecorded a s).seen unrecorded := fun _ _ => rfl
  have hrun := (recorded_mirrored m).calledAll hact (Session.ofContexts contexts { state }) calls
  rw [seen_ofContexts] at hrun
  exact hrun.symm

/-- Exactly-once completion, for every manager and every order of calls, as a record of the calls to its
backend shows it. Without the record the run is that of the manager itself. The first commit or rollback of
a scope completes it for good, and every later one is refused and changes nothing. Every transaction that
began has one owner: until the owner is completed the transaction is neither committed nor rolled back nor
cleaned up, and then it is ended in one of the ways of `Ending`. A call appends the ending of the
transaction whose owner it completes, with a commit only if one was requested while neither the status
nor its holder was rollback-only, and any other call completes nothing. -/
theorem completes_once (m : Manager σ ρ ς) (contexts : Nat) (state : σ)
    (calls : List (ManagerCall (σ × Instant))) :
    let s := m.recorded.calledAll elapseRecorded calls (Session.ofContexts contexts { state })
    s.seen unrecorded = m.calledAll elapse calls (Session.ofContexts contexts state) ∧
    (∀ commit c t st, s.status? t = some st →
      if st.isCompleted then m.recorded.conclude commit c t s = (.error .alreadyCompleted, s)
      else ∃ st', (m.recorded.conclude commit c t s).2.status? t = some st' ∧ st'.isCompleted = true) ∧
    (∀ call t st, s.status? t = some st → st.isCompleted = true →
      ∃ st', (m.recorded.called elapseRecorded s call).status? t = some st' ∧ st'.isCompleted = true) ∧
    (∀ n, n < s.native.begun → ∃ t st, s.status? t = some st ∧ (∀ t', s.owned? t' = some n ↔ t' = t) ∧
      if st.isCompleted then ∃ kept, Ending m.config kept (s.native.completions n)
      else s.native.completions n = []) ∧
    (∀ t n, s.owned? t = some n → ∃ x, s.holder? n = some x ∧ x.resource.1 = n) ∧
    (∀ call n,
      (∃ commit c t st ending, call = .conclude commit c t ∧ s.status? t = some st ∧
        st.isCompleted = false ∧ s.owned? t = some n ∧
        Ending m.config (commit && !s.isRollbackOnly st) ending ∧
        (m.recorded.called elapseRecorded s call).native.completions n =
          s.native.completions n ++ ending) ∨
      ((∀ commit c t st, call = .conclude commit c t → s.status? t = some st → st.isCompleted = false →
        s.owned? t ≠ some n) ∧
        (m.recorded.called elapseRecorded s call).native.completions n = s.native.completions n)) := by
  intro s
  have hs : Settled m.config s := (Settled.start m.config contexts state).calledAll calls
  have hplain := recorded_calledAll m contexts state calls
  change s.seen unrecorded = _ at hplain
  clear_value s
  refine ⟨hplain, ?_, ?_, ?_, ?_, ?_⟩
  · intro commit c t st hst
    split
    · rename_i hcomplete
      exact conclude_completed hst hcomplete
    · rename_i hopen
      obtain ⟨state, hended⟩ := conclude_completes m.recorded commit c hst (Bool.eq_false_iff.2 hopen)
      exact ⟨_, hended, rfl⟩
  · intro call t st hst hcomplete
    obtain ⟨st', hst', _, _, hsame | ⟨_, _, _, hopen, _⟩⟩ :=
      called_status m.recorded call (fun a _ => elapseRecorded_steady a s) hst
    · exact ⟨st', hst', (Status.isCompleted_congr hsame).trans hcomplete⟩
    · rw [hcomplete] at hopen; cases hopen
  · intro n hn
    obtain ⟨t, hown⟩ := hs.owned.each n (hs.count ▸ hn)
    obtain ⟨st, hst, _⟩ := Option.bind_eq_some_iff.1 hown
    refine ⟨t, st, hst, fun t' => ⟨fun hown' => hs.owned.unique t' t n hown' hown, fun h => h ▸ hown⟩, ?_⟩
    split
    · rename_i hcomplete; exact hs.ended t st n hst hown hcomplete
    · rename_i hopen; exact hs.running t st n hst hown (Bool.eq_false_iff.2 hopen)
  · intro t n hown
    obtain ⟨st, hst, _⟩ := Option.bind_eq_some_iff.1 hown
    exact (hs.owner hst hown).2.2.2
  · intro call n
    have hkeeps : ∀ commit (st : Status ς), keepsWork commit st s = (commit && !s.isRollbackOnly st) := by
      intro commit st
      unfold keepsWork isRollbackOnly
      rw [Bool.not_or, Bool.and_assoc]
    rcases hs.completions_called call n with
      ⟨commit, c, t, st, ending, hcall, hst, hopen, hown, hending, hcalls⟩ | hother
    · exact .inl ⟨commit, c, t, st, ending, hcall, hst, hopen, hown, hkeeps commit st ▸ hending, hcalls⟩
    · exact .inr hother

end Demarcation
