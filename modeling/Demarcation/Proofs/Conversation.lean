/-
What a manager asks of each transaction while scopes are nested in any number of contexts. At every call, what is
still due to a transaction is what its open scopes are there to do: resume it, or finish a savepoint. So when all
scopes are completed, nothing is due any more, and the transaction has had its whole course.
-/
import Demarcation.Proofs.Tracing

namespace Demarcation

open Session Manager

variable {σ ρ ς α : Type}

/-! ## What is due -/

theorem Status.due_of_unmarked {st st' : Status ς} (heq : st'.unmarked = st.unmarked) (k : HolderId) :
    st'.due k = st.due k := by
  obtain ⟨on, rfl⟩ := Status.eq_of_unmarked heq
  rfl

/-- What is due to a transaction was bound before the scope that owes it. -/
theorem Link.before_of_due {st : Status ς} {before bound : Option HolderId} {k : HolderId} {d : Due ς}
    (hl : Link st before bound) (hown : st.newTransaction = true → st.savepoint = none)
    (hdue : st.due k = some d) : before = some k := by
  unfold Status.due at hdue
  split at hdue
  · rename_i hsus
    exact hl.before_of_suspended hsus
  · split at hdue
    · rename_i hh
      cases hl with
      | owner _ hnew =>
        rw [hown hnew] at hdue
        cases hdue
      | joined hh' => exact hh'.symm.trans hh
      | detached hh' | plain hh' => cases hh'.symm.trans hh
    · cases hdue

/-- What completing a scope asks of a transaction: what the work of the scope asks, the cleanup if the scope is the
owner, and the resumption. -/
def Status.asks (st : Status ς) (work : List (Request ς)) (cleaned resumed : Bool) (k : HolderId) :
    List (Request ς) :=
  Traced.told st.holder (work ++ if st.newTransaction then [.cleanup cleaned] else []) k ++
    Traced.told st.suspended [.resume resumed] k

section Works

variable {st : Status ς} {work : List (Request ς)} {k : HolderId} {d : Due ς}

/-- Completing a scope meets what the scope owes. -/
theorem Status.Works.meets (hw : st.Works work) (hown : st.newTransaction = true → st.savepoint = none)
    (hother : st.suspended = some k → st.holder ≠ some k) (hdue : st.due k = some d) (cleaned resumed : Bool) :
    d.MetBy (st.asks work cleaned resumed k) := by
  unfold Status.due at hdue
  unfold Status.asks Traced.told
  split at hdue
  · rename_i hsus
    obtain rfl := Option.some.inj hdue
    rw [if_neg (hother hsus), if_pos hsus]
    exact .resumed
  · rename_i hsus
    split at hdue
    · rename_i hh
      rw [if_pos hh, if_neg hsus, List.append_nil]
      cases hw with
      | nested hsp hfin =>
        rw [hsp] at hdue
        obtain rfl := Option.some.inj hdue
        have hnew : st.newTransaction = false := by
          cases hnew : st.newTransaction with
          | false => rfl
          | true => cases hsp.symm.trans (hown hnew)
        rw [hnew, if_neg (by simp), List.append_nil]
        exact .finished hfin
      | owner hsp | participant hsp =>
        rw [hsp] at hdue
        cases hdue
    · cases hdue

/-- Where a scope owes nothing, completing it asks nothing, unless it is the owner. -/
theorem Status.Works.ends (hw : st.Works work) (hdue : st.due k = none) (cleaned resumed : Bool) :
    if st.holder = some k ∧ st.newTransaction = true then
      ∃ completion, Completion completion ∧ st.asks work cleaned resumed k = completion ++ [.cleanup cleaned]
    else st.asks work cleaned resumed k = [] := by
  unfold Status.due at hdue
  unfold Status.asks Traced.told
  split at hdue
  · cases hdue
  · rename_i hsus
    rw [if_neg hsus]
    by_cases hh : st.holder = some k
    · rw [if_pos hh] at hdue
      rw [if_pos hh]
      cases hw with
      | nested hsp =>
        rw [hsp] at hdue
        cases hdue
      | owner hsp hnew hcompletion =>
        rw [if_pos ⟨hh, hnew⟩, if_pos hnew, List.append_nil]
        exact ⟨work, hcompletion, rfl⟩
      | participant hsp hnew => simp [hnew]
    · simp [hh]

end Works

/-- Only an owner suspends something and has a transaction of its own. -/
theorem Link.new_of_suspends {st : Status ς} {before bound : Option HolderId} {k k' : HolderId}
    (hl : Link st before bound) (hh : st.holder = some k) (hsus : st.suspended = some k') :
    st.newTransaction = true := by
  cases hl with
  | owner _ hnew => exact hnew
  | joined _ _ hs => cases hs.symm.trans hsus
  | detached hh' | plain hh' => cases hh'.symm.trans hh

namespace Nest

variable {m : Manager σ ρ ς} {c : ContextIndex} {n : Nest σ ρ ς} {s s' : Session σ ρ ς} {k : HolderId}
  {scopes : List (OpenScope σ ρ ς)}

/-- What the open scopes still owe to a transaction, the innermost one first. -/
def due (n : Nest σ ρ ς) (k : HolderId) : List (Due ς) :=
  n.scopes.filterMap fun x => (n.session.status? x.status).bind (Status.due · k)

theorem mem_due {d : Due ς} : d ∈ n.due k ↔ ∃ x ∈ n.scopes, ∃ st, n.session.status? x.status = some st ∧
    st.due k = some d := by
  simp only [due, List.mem_filterMap, Option.bind_eq_some_iff]

theorem due_cons {x : OpenScope σ ρ ς} {rest : List (OpenScope σ ρ ς)} {st : Status ς}
    (hst : s.status? x.status = some st) (k : HolderId) :
    (⟨s, x :: rest⟩ : Nest σ ρ ς).due k = (st.due k).toList ++ (⟨s, rest⟩ : Nest σ ρ ς).due k := by
  unfold due
  rw [List.filterMap_cons]
  dsimp only
  rw [hst, Option.bind_some]
  cases st.due k <;> rfl

/-- Marks make no difference to what is due. -/
theorem due_congr (hold : ∀ x ∈ scopes, ∃ st st', s.status? x.status = some st ∧ s'.status? x.status = some st' ∧
    st'.unmarked = st.unmarked) (k : HolderId) :
    (⟨s', scopes⟩ : Nest σ ρ ς).due k = (⟨s, scopes⟩ : Nest σ ρ ς).due k := by
  induction scopes with
  | nil => rfl
  | cons x rest ih =>
    obtain ⟨st, st', hst, hst', heq⟩ := hold x List.mem_cons_self
    rw [due_cons hst, due_cons hst', Status.due_of_unmarked heq,
      ih fun y hy => hold y (List.mem_cons_of_mem _ hy)]

/-- What is due once a scope was opened. -/
theorem Sound.due_pushed (hs : n.Sound m c) {st : Status ς} (hpushed : s'.statuses = n.session.statuses.push st)
    (k : HolderId) : due ⟨s', ⟨n.session.statuses.size, n.session⟩ :: n.scopes⟩ k = (st.due k).toList ++ n.due k := by
  have hst := status?_pushed hpushed
  rw [due_cons ((hst _).trans (if_pos rfl))]
  congr 1
  refine due_congr (fun x hx => ?_) k
  obtain ⟨sx, hsx, -⟩ := hs.stacked.opened hx
  refine ⟨sx, sx, hsx, ?_, rfl⟩
  rw [hst, if_neg (Nat.ne_of_lt (hs.stacked.status_lt x hx))]
  exact hsx

/-- Nothing is due to the transactions of other contexts. -/
theorem Sound.due_eq_nil (hs : n.Sound m c) (hno : ¬ Has m c n k) : n.due k = [] := by
  refine List.eq_nil_iff_forall_not_mem.2 fun d hd => hno ?_
  obtain ⟨x, hx, st, hst, hdue⟩ := mem_due.1 hd
  have hbefore : ∀ y ∈ n.scopes, n.session.Suspends y.status k → Has m c n k := by
    intro y hy hsus
    rw [Has, ← hs.stacked.before_of_suspends hy hsus]
    exact List.mem_cons_of_mem _ (List.mem_map_of_mem hy)
  unfold Status.due at hdue
  split at hdue
  · rename_i hsus
    exact hbefore x hx ⟨st, hst, hsus⟩
  · split at hdue
    · rename_i hh
      rcases hs.stacked.located hx hst hh with hb | ⟨y, hy, hsus⟩
      · exact .bound hb
      · exact hbefore y hy hsus
    · cases hdue

/-- What is bound is not to be resumed. -/
theorem Sound.due_free (hs : n.Sound m c) (hb : n.session.bound c m.backend.key = some k) :
    (n.due k).head? ≠ some .resumption := by
  intro hhead
  obtain ⟨x, hx, st, hst, hdue⟩ := mem_due.1 (List.mem_of_mem_head? hhead)
  refine hs.stacked.unsuspended hb hx ⟨st, hst, ?_⟩
  unfold Status.due at hdue
  split at hdue
  · assumption
  · split at hdue
    · cases hsp : st.savepoint <;> rw [hsp] at hdue <;> cases hdue
    · cases hdue

/-- What is there behind the completion of the innermost scope: the transactions that come back with it or with the
scopes around it, and what those scopes owe. -/
structure Left (m : Manager σ ρ ς) (c : ContextIndex) (n : Nest σ ρ ς) (x : OpenScope σ ρ ς)
    (rest : List (OpenScope σ ρ ς)) (st : Status ς) (s' : Session σ ρ ς) : Prop where
  own : st.newTransaction = true → st.savepoint = none
  link : Link st (x.before m c) (n.session.bound c m.backend.key)
  fresh : st.newTransaction = true → n.session.bound c m.backend.key ∉ n.scopes.map (OpenScope.before · m c)
  has : ∀ k, Has m c ⟨s', rest⟩ k ↔ some k ∈ n.scopes.map (OpenScope.before · m c)
  due : ∀ k, n.due k = (st.due k).toList ++ Nest.due ⟨s', rest⟩ k

section Left

variable {x : OpenScope σ ρ ς} {rest : List (OpenScope σ ρ ς)} {st : Status ς} {commit : Bool}
  {r : Except TransactionError Unit}

theorem Sound.left (hs : n.Sound m c) (ho : Owned n.session) (hscopes : n.scopes = x :: rest)
    (hst : n.session.status? x.status = some st) (hrun : m.conclude commit c x.status n.session = (r, s')) :
    Left m c n x rest st s' := by
  have hclosed := hs.closed hscopes commit
  rw [hrun] at hclosed
  have hstacked := hs.stacked
  rw [hscopes] at hstacked
  obtain ⟨st', hst', -, hout, hlink, hfresh, -⟩ := hstacked.top
  obtain rfl : st' = st := Option.some.inj (hst'.symm.trans hst)
  refine ⟨fun hnew => (ho.own _ st' hst hnew).1, hlink, hscopes ▸ hfresh, fun k => ?_, fun k => ?_⟩
  · rw [Has, hclosed.bound, if_pos ⟨rfl, rfl⟩, hscopes]
    rfl
  · have hrest : Nest.due ⟨s', rest⟩ k = Nest.due ⟨n.session, rest⟩ k := by
      refine due_congr (fun y hy => ?_) k
      obtain ⟨sy, hsy, -⟩ := hs.stacked.opened (hscopes ▸ List.mem_cons_of_mem _ hy)
      have hne : y.status ≠ x.status := fun heq => hout (heq ▸ List.mem_map_of_mem hy)
      obtain ⟨sy', hsy', heq⟩ := hclosed.statuses y.status sy hne hsy
      exact ⟨sy, sy', hsy, hsy', heq⟩
    rw [hrest, ← due_cons hst, ← hscopes]

variable (hl : Left m c n x rest st s') (hscopes : n.scopes = x :: rest)
include hl

theorem Left.back (hk : Has m c ⟨s', rest⟩ k) : Has m c n k := List.mem_cons_of_mem _ ((hl.has k).1 hk)

/-- An owner's transaction does not come back. -/
theorem Left.gone (hh : st.holder = some k) (hnew : st.newTransaction = true) : ¬ Has m c ⟨s', rest⟩ k := by
  rw [hl.has, ← hl.link.bound_of_holder hh]
  exact hl.fresh hnew

include hscopes

theorem Left.has_before (hb : x.before m c = some k) : Has m c ⟨s', rest⟩ k := by
  rw [hl.has, hscopes]
  exact List.mem_cons.2 (.inl hb.symm)

/-- What something is due to comes back. -/
theorem Left.has_of_due {d : Due ς} (hd : st.due k = some d) : Has m c ⟨s', rest⟩ k :=
  hl.has_before hscopes (hl.link.before_of_due hl.own hd)

theorem Left.due_eq_none (hno : ¬ Has m c ⟨s', rest⟩ k) : st.due k = none := by
  rw [Option.eq_none_iff_forall_ne_some]
  exact fun d hd => hno (hl.has_of_due hscopes hd)

/-- A scope does not suspend its own transaction. -/
theorem Left.other (hsus : st.suspended = some k) : st.holder ≠ some k := by
  intro hh
  refine hl.gone hh (hl.link.new_of_suspends hh hsus) ?_
  exact hl.has_before hscopes (hl.link.before_of_suspended hsus)

/-- Only the transaction of an owner leaves the context. -/
theorem Left.owner (hk : Has m c n k) (hno : ¬ Has m c ⟨s', rest⟩ k) :
    st.holder = some k ∧ st.newTransaction = true := by
  have hb : n.session.bound c m.backend.key = some k :=
    ((List.mem_cons.1 hk).resolve_right fun hmem => hno ((hl.has k).2 hmem)).symm
  obtain ⟨hnew, hh⟩ := (hl.link.comes hb).resolve_right fun hbefore => hno (hl.has_before hscopes hbefore)
  exact ⟨hh, hnew⟩

end Left

end Nest

/-! ## The calls of one context -/

namespace Nest

variable {m : Manager σ ρ ς} {c : ContextIndex} {n n' : Nest (Traced σ ς) (Nat × ρ) ς} {k : HolderId}
  {act : α → Session (Traced σ ς) (Nat × ρ) ς → Session (Traced σ ς) (Nat × ρ) ς}

/-- What holds in a context between two calls: of each of its transactions, all was asked but what is still due. -/
structure Conversing (m : Manager σ ρ ς) (c : ContextIndex) (n : Nest (Traced σ ς) (Nat × ρ) ς) : Prop where
  sound : n.Sound m.traced c
  owned : Owned n.session
  tracked : Tracked n.session
  going : ∀ k, Has m.traced c n k → Unfinished (n.session.native.asked k) (n.due k)
  unbegun : ∀ k, n.session.holders.size ≤ k → n.session.native.asked k = []

/-- What a call in a context makes of the transactions. -/
structure Continues (m : Manager σ ρ ς) (c : ContextIndex) (n n' : Nest (Traced σ ς) (Nat × ρ) ς) : Prop where
  going : ∀ k, Has m.traced c n' k → Unfinished (n'.session.native.asked k) (n'.due k)
  /-- A transaction leaves the context when it has had its whole course. -/
  ended : ∀ k, Has m.traced c n k → ¬ Has m.traced c n' k → Course (n'.session.native.asked k)
  others : ∀ k, ¬ Has m.traced c n k → n'.session.native.asked k = n.session.native.asked k
  begun : ∀ k, n.session.holders.size ≤ k → k < n'.session.holders.size → Has m.traced c n' k
  grown : n.session.holders.size ≤ n'.session.holders.size
  tracked : Tracked n'.session

/-- Nothing was asked and nothing became due. -/
theorem Conversing.unchanged (hn : Conversing m c n) {s' : Session (Traced σ ς) (Nat × ρ) ς} (hq : Quiet n.session s')
    (hres : ∀ h, (s'.holder? h).map Holder.resource = (n.session.holder? h).map Holder.resource)
    (hbegun : s'.native.begun = n.session.native.begun)
    (hasked : s'.native.asked = n.session.native.asked) : Continues m c n { n with session := s' } := by
  have hhas : ∀ k, Has m.traced c { n with session := s' } k ↔ Has m.traced c n k := by
    intro k
    unfold Has
    rw [hq.bound]
  have hsize : s'.holders.size = n.session.holders.size := holders_size_of_alike hres
  refine ⟨fun k hk => ?_, fun k hk hno => absurd ((hhas k).2 hk) hno, fun k _ => congrFun hasked k,
    fun k hold hnew => ?_, Nat.le_of_eq hsize.symm, hn.tracked.congr hres hbegun⟩
  · rw [due_congr fun x hx => ?_]
    · exact hasked ▸ hn.going k ((hhas k).1 hk)
    · obtain ⟨st, hst, -⟩ := hn.sound.stacked.opened hx
      obtain ⟨st', hst', heq⟩ := hq.status hst
      exact ⟨st, st', hst, hst', heq⟩
  · exact absurd (hsize ▸ hnew : k < n.session.holders.size) (Nat.not_lt.2 hold)

section Entering

variable {d : Definition} {s' : Session (Traced σ ς) (Nat × ρ) ς}

theorem Conversing.unopened (hn : Conversing m c n) {e : TransactionError}
    (hopen : Opening m.traced c d n.session (.error e) s') (hstatuses : s'.statuses = n.session.statuses) :
    Continues m c n { n with session := s' } := by
  obtain ⟨l, hl, hasks⟩ := hopen.asks_failed hn.tracked
  have hhas : ∀ k, Has m.traced c { n with session := s' } k ↔ Has m.traced c n k := by
    intro k
    unfold Has
    rw [hopen.bound_failed hn.sound.context]
  have hdue : ∀ k, due { n with session := s' } k = n.due k := by
    refine due_congr fun x hx => ?_
    obtain ⟨st, hst, -⟩ := hn.sound.stacked.opened hx
    exact ⟨st, st, hst, (congrArg (·[x.status]?) hstatuses).trans hst, rfl⟩
  refine ⟨fun k hk => ?_, fun k hk hno => absurd ((hhas k).2 hk) hno, fun k hno => ?_,
    fun k hold hnew => .bound (hopen.bound_begun hn.sound.context hold hnew), hopen.grown,
    hn.tracked.opened d hopen⟩
  · have hgoing := hn.going k ((hhas k).1 hk)
    show Unfinished (s'.native.asked k) (due { n with session := s' } k)
    rw [hdue, hasks.asked, Traced.told]
    split
    · rename_i hb
      exact hgoing.ask (hn.sound.due_free hb) hl
    · rwa [List.append_nil]
  · show s'.native.asked k = _
    rw [hasks.asked, Traced.told, if_neg fun hb => hno (.bound hb), List.append_nil]

/-- What a new scope owes is due to what was bound before it. -/
theorem Conversing.opened (hn : Conversing m c n) {st : Status ς}
    (hopen : Opening m.traced c d n.session (.ok n.session.statuses.size) s')
    (hpushed : s'.statuses = n.session.statuses.push st)
    (hbefore : ∀ k d, st.due k = some d → n.session.bound c m.traced.backend.key = some k)
    (hspared : n.Spared m.traced c ⟨s', ⟨n.session.statuses.size, n.session⟩ :: n.scopes⟩) :
    Continues m c n ⟨s', ⟨n.session.statuses.size, n.session⟩ :: n.scopes⟩ := by
  have hst : s'.status? n.session.statuses.size = some st := (status?_pushed hpushed _).trans (if_pos rfl)
  have hasks := hopen.asks hn.tracked hst
  have hdue := hn.sound.due_pushed hpushed
  refine ⟨fun k hk => ?_, fun k hk hno => absurd (List.mem_cons_of_mem _ hk) hno, fun k hno => ?_,
    fun k hold hnew => .bound (hopen.bound_begun hn.sound.context hold hnew), hopen.grown,
    hn.tracked.opened d hopen⟩
  · show Unfinished (s'.native.asked k) (due ⟨s', _ :: n.scopes⟩ k)
    rw [hdue, hasks]
    cases hd : st.due k with
    | some d => exact (hn.going k (.bound (hbefore k d hd))).incur (hn.sound.due_free (hbefore k d hd)) d
    | none =>
      simp only [Option.map_none, Option.toList_none, List.append_nil, List.nil_append]
      by_cases hold : Has m.traced c n k
      · exact hn.going k hold
      · -- the transaction has just begun
        rw [hn.sound.due_eq_nil hold, hn.unbegun k ((hspared.has k hk).resolve_left hold)]
        exact .nothing .nil
  · show s'.native.asked k = _
    rw [hasks]
    cases hd : st.due k with
    | some d => exact absurd (.bound (hbefore k d hd)) hno
    | none => exact List.append_nil _

theorem Conversing.enter (hn : Conversing m c n) (hact : ∀ a s, Elapsed s (act a s)) (d : Definition) :
    Continues m c n (n.step m.traced c act (.enter d)) := by
  have hspared := hn.sound.spared hact (.enter d)
  have hsound := hn.sound.step hact (.enter d)
  have howned : Owned (m.traced.called act n.session (.enter c d)) := hn.owned.called _ nofun
  have hstatuses := getTransaction_statuses m.traced c d n.session
  obtain ⟨r, s', hrun, hopen, hstep⟩ := hn.sound.enters act d
  rw [hstep] at hspared hsound ⊢
  change Owned (m.traced.getTransaction c d n.session).2 at howned
  rw [hrun] at hstatuses howned
  cases r with
  | error e => exact hn.unopened hopen hstatuses
  | ok t =>
    obtain ⟨rfl, st, hpushed, -⟩ := hstatuses
    obtain ⟨st', hst', -, -, hlink, -⟩ := StackedOn.top hsound.stacked
    obtain rfl : st' = st :=
      Option.some.inj (hst'.symm.trans ((status?_pushed hpushed _).trans (if_pos rfl)))
    exact hn.opened hopen hpushed
      (fun k d hd => hlink.before_of_due (fun hnew => (howned.own _ st' hst' hnew).1) hd) hspared

end Entering

section Leaving

variable {x : OpenScope (Traced σ ς) (Nat × ρ) ς} {rest : List (OpenScope (Traced σ ς) (Nat × ρ) ς)} {st : Status ς}
  {commit : Bool} {r : Except TransactionError Unit} {s' : Session (Traced σ ς) (Nat × ρ) ς}

theorem Conversing.concluded (hn : Conversing m c n) (hscopes : n.scopes = x :: rest)
    (hst : n.session.status? x.status = some st)
    (hlink : Link st (x.before m.traced c) (n.session.bound c m.traced.backend.key))
    (hc : Concluding m.traced commit c x.status st n.session r s') :
    ∃ work cleaned resumed, st.Works work ∧
      Traced.Asks n.session.native s'.native (st.asks work cleaned resumed) := by
  have hnumbers : ∀ {h}, Has m.traced c n h → n.session.Numbers h := by
    intro h hh
    obtain ⟨y, hy, -⟩ := hn.sound.live hh
    exact hn.tracked.numbers_of_holder hy
  have hheld : ∀ h, st.holder = some h → n.session.Numbers h :=
    fun h hh => hnumbers (.bound (hlink.bound_of_holder hh))
  have hsuspended : ∀ h, st.suspended = some h → n.session.Numbers h := by
    intro h hsus
    refine hnumbers (List.mem_cons_of_mem _ ?_)
    rw [hscopes]
    exact List.mem_cons.2 (.inl (hlink.before_of_suspended hsus).symm)
  cases hc with
  | @mk state _ _ _ s₁ _ _ hwork hrel hres =>
    have hsteady : Steady n.session s₁ := hwork.steady
    obtain ⟨work, hworks, hasks⟩ := hwork.asks hheld
    obtain ⟨cleaned, hcleanup⟩ := hrel.asks fun h hh => (hheld h hh).congr (hsteady.holders h)
    obtain ⟨resumed, hresume⟩ := hres.asks
      (fun h hsus => (hsuspended h hsus).congr ((hrel.steady.holders h).trans (hsteady.holders h)))
      (hn.sound.released hscopes hst hwork.quiet hrel)
    exact ⟨work, cleaned, resumed, hworks, (hasks.append hcleanup).trans hresume⟩

theorem Conversing.leave (hn : Conversing m c n) (hact : ∀ a s, Elapsed s (act a s)) (commit : Bool) :
    Continues m c n (n.step m.traced c act (.leave commit)) := by
  have hsound := hn.sound.step hact (.leave commit)
  cases hscopes : n.scopes with
  | nil =>
    rw [step_leave_nil hscopes]
    exact hn.unchanged (.refl _) (fun _ => rfl) rfl rfl
  | cons x rest =>
    obtain ⟨st, r, s', hst, hc, hrun, hlink, hstep⟩ := hn.sound.leaves act hscopes commit
    obtain ⟨work, cleaned, resumed, hworks, hasks⟩ := hn.concluded hscopes hst hlink hc
    have hleft := hn.sound.left hn.owned hscopes hst hrun
    rw [hstep] at hsound ⊢
    have hsize : s'.holders.size = n.session.holders.size := holders_size_of_alike (hc.resources hst)
    refine ⟨fun k hk => ?_, fun k hk hno => ?_, fun k hno => ?_, fun k hold hnew => ?_, Nat.le_of_eq hsize.symm,
      hn.tracked.congr (hc.resources hst) hasks.begun⟩
    · have hgoing := hn.going k (hleft.back hk)
      show Unfinished (s'.native.asked k) (due ⟨s', rest⟩ k)
      rw [hleft.due] at hgoing
      rw [hasks.asked]
      cases hd : st.due k with
      | some d =>
        rw [hd] at hgoing
        exact hgoing.meet (hworks.meets hleft.own (hleft.other hscopes) hd cleaned resumed)
      | none =>
        rw [hd] at hgoing
        have hends := hworks.ends hd cleaned resumed
        rw [if_neg fun h => hleft.gone h.1 h.2 hk] at hends
        rwa [hends, List.append_nil]
    · have hd := hleft.due_eq_none hscopes hno
      have hgoing := hn.going k hk
      rw [hleft.due, hd, hsound.due_eq_nil hno] at hgoing
      have hends := hworks.ends hd cleaned resumed
      rw [if_pos (hleft.owner hscopes hk hno)] at hends
      obtain ⟨completion, hcompletion, hasked⟩ := hends
      show Course (s'.native.asked k)
      rw [hasks.asked, hasked]
      exact hgoing.course hcompletion cleaned
    · have hd := hleft.due_eq_none hscopes fun h => hno (hleft.back h)
      have hends := hworks.ends hd cleaned resumed
      rw [if_neg fun h => hno (.bound (hlink.bound_of_holder h.1))] at hends
      show s'.native.asked k = _
      rw [hasks.asked, hends, List.append_nil]
    · exact absurd (hsize ▸ hnew : k < n.session.holders.size) (Nat.not_lt.2 hold)

end Leaving

theorem elapseTraced_elapsed (a : σ × Instant) (s : Session (Traced σ ς) (Nat × ρ) ς) :
    Elapsed s (elapseTraced a s) := ⟨rfl, rfl, rfl⟩

theorem Conversing.continues (hn : Conversing m c n) (call : ScopeCall (σ × Instant)) :
    Continues m c n (n.step m.traced c elapseTraced call) := by
  cases call with
  | enter d => exact hn.enter elapseTraced_elapsed d
  | leave commit => exact hn.leave elapseTraced_elapsed commit
  | mark t => exact hn.unchanged (.setRollbackOnly _ t) (fun _ => rfl) rfl rfl
  | act a => exact hn.unchanged (elapseTraced_elapsed a _).quiet (fun _ => rfl) rfl rfl

end Nest

/-! ## All contexts -/

namespace Nests

variable {m : Manager σ ρ ς} {n : Nests (Traced σ ς) (Nat × ρ) ς} {c : ContextIndex}

/-- What holds between two calls: of each transaction of a context, all was asked but what is still due, and all other
transactions have had their whole course. -/
structure Conversing (m : Manager σ ρ ς) (n : Nests (Traced σ ς) (Nat × ρ) ς) : Prop extends n.Sound m.traced where
  owned : Owned n.session
  tracked : Tracked n.session
  going : ∀ c k, c < n.session.registries.size → Nest.Has m.traced c (n.within c) k →
    Unfinished (n.session.native.asked k) ((n.within c).due k)
  ended : ∀ k, k < n.session.holders.size →
    (∀ c, c < n.session.registries.size → ¬ Nest.Has m.traced c (n.within c) k) → Course (n.session.native.asked k)
  unbegun : ∀ k, n.session.holders.size ≤ k → n.session.native.asked k = []

theorem Conversing.nest (hn : n.Conversing m) (hc : c < n.session.registries.size) :
    (n.within c).Conversing m c :=
  ⟨hn.each c hc, hn.owned, hn.tracked, fun k => hn.going c k hc, hn.unbegun⟩

theorem Conversing.start (m : Manager σ ρ ς) (contexts : Nat) (state : σ) :
    Conversing m ⟨Session.ofContexts contexts { state }, fun _ => []⟩ := by
  have hfree : ∀ c, (Session.ofContexts contexts { state } : Session (Traced σ ς) (Nat × ρ) ς).bound c
      m.traced.backend.key = none := fun c => bound_ofContexts contexts _ c _
  exact ⟨.start hfree, .ofContexts contexts _, ⟨rfl, nofun⟩,
    fun c k _ hk => absurd hk (Nest.not_has_of_free (hfree c)), nofun, fun _ _ => rfl⟩

theorem Conversing.updated (hn : n.Conversing m) (hc : c < n.session.registries.size)
    {n' : Nest (Traced σ ς) (Nat × ρ) ς} (hsound : n'.Sound m.traced c) (howned : Owned n'.session)
    (hspared : (n.within c).Spared m.traced c n') (hnext : Nest.Continues m c (n.within c) n') :
    (n.update c n').Conversing m := by
  have hsize : n'.session.registries.size = n.session.registries.size := hspared.size
  refine ⟨hn.toSound.updated hc hsound hspared, howned, hnext.tracked, fun c' k hc' hk => ?_, fun k hlt hno => ?_,
    fun k hle => ?_⟩
  · by_cases heq : c' = c
    · subst heq
      rw [within_update_self] at hk ⊢
      exact hnext.going k hk
    · have hc' : c' < n.session.registries.size := Nat.lt_of_lt_of_eq hc' hsize
      have hold := (has_update_iff hspared heq k).1 hk
      have hasked := hnext.others k (hn.disjoint c' c k hc' hc heq hold)
      have hgoing := hn.going c' k hc' hold
      have hdue : Nest.due ⟨n'.session, n.scopes c'⟩ k = (n.within c').due k := by
        refine Nest.due_congr (fun x hx => ?_) k
        obtain ⟨st, hst, -⟩ := (hn.each c' hc').stacked.opened hx
        have hout : x.status ∉ (n.within c).scopes.map OpenScope.status := by
          intro hmem
          obtain ⟨y, hy, hstatus⟩ := List.mem_map.1 hmem
          exact hn.separate c c' hc hc' (Ne.symm heq) y hy x hx hstatus
        obtain ⟨st', hst', hsame⟩ := hspared.statuses x.status st hout hst
        exact ⟨st, st', hst, hst', hsame⟩
      rw [within_update_of_ne n heq]
      show Unfinished (n'.session.native.asked k) (Nest.due ⟨n'.session, n.scopes c'⟩ k)
      rw [hasked, hdue]
      exact hgoing
  · have hleft : ¬ Nest.Has m.traced c n' k := by
      have hself := hno c (hsize ▸ hc)
      rwa [within_update_self] at hself
    by_cases hold : k < n.session.holders.size
    · by_cases hhas : Nest.Has m.traced c (n.within c) k
      · exact hnext.ended k hhas hleft
      · show Course (n'.session.native.asked k)
        rw [hnext.others k hhas]
        refine hn.ended k hold fun c' hc' hk => ?_
        by_cases heq : c' = c
        · exact hhas (heq ▸ hk)
        · exact hno c' (hsize ▸ hc') ((has_update_iff hspared heq k).2 hk)
    · exact absurd (hnext.begun k (Nat.le_of_not_lt hold) hlt) hleft
  · have hbefore : n.session.holders.size ≤ k := Nat.le_trans hnext.grown hle
    have hno : ¬ Nest.Has m.traced c (n.within c) k := fun hk =>
      absurd ((hn.each c hc).has_lt hk) (Nat.not_lt.2 hbefore)
    exact (hnext.others k hno).trans (hn.unbegun k hbefore)

theorem Conversing.called (hn : n.Conversing m) (call : ContextIndex × ScopeCall (σ × Instant))
    (hc : call.1 < n.session.registries.size) : (n.step m.traced elapseTraced call).Conversing m := by
  have hnest := hn.nest hc
  refine hn.updated hc (hnest.sound.step Nest.elapseTraced_elapsed call.2) ?_
    (hnest.sound.spared Nest.elapseTraced_elapsed call.2) (hnest.continues call.2)
  rw [← Nest.calledAll_step]
  exact hnest.owned.calledAll _ fun _ _ => ⟨rfl, fun _ => rfl⟩

theorem step_size (hn : n.Conversing m) (call : ContextIndex × ScopeCall (σ × Instant))
    (hc : call.1 < n.session.registries.size) :
    (n.step m.traced elapseTraced call).session.registries.size = n.session.registries.size :=
  ((hn.nest hc).sound.spared Nest.elapseTraced_elapsed call.2).size

theorem Conversing.run (hn : n.Conversing m) (calls : List (ContextIndex × ScopeCall (σ × Instant)))
    (hcalls : ∀ call ∈ calls, call.1 < n.session.registries.size) :
    (n.run m.traced elapseTraced calls).Conversing m := by
  induction calls generalizing n with
  | nil => exact hn
  | cons call calls ih =>
    have hc := hcalls call List.mem_cons_self
    refine ih (hn.called call hc) fun call' hmem => ?_
    rw [step_size hn call hc]
    exact hcalls call' (List.mem_cons_of_mem _ hmem)

theorem Conversing.course_of_completed (hn : n.Conversing m) {t : StatusId} {st : Status ς} {k : HolderId}
    (hst : n.session.status? t = some st) (hown : n.session.owned? t = some k) (hcomplete : st.isCompleted = true) :
    Course (n.session.native.asked k) := by
  refine hn.ended k (hn.owned.range hown) fun c hc hk => ?_
  -- otherwise the owner is one of the open scopes
  have hstacked := (hn.each c hc).stacked
  obtain ⟨x, hx, hown'⟩ := hstacked.began_of_mem rfl hk
  obtain rfl := hn.owned.unique _ _ k hown' hown
  obtain ⟨st', hst', hopen⟩ := hstacked.opened hx
  obtain rfl := Option.some.inj (hst'.symm.trans hst)
  rw [hcomplete] at hopen
  cases hopen

theorem Conversing.completable (hn : n.Conversing m) {k : HolderId} (hk : k < n.session.holders.size) :
    ∃ rest, Course (n.session.native.asked k ++ rest) := by
  by_cases hhas : ∃ c, c < n.session.registries.size ∧ Nest.Has m.traced c (n.within c) k
  · obtain ⟨c, hc, hhas⟩ := hhas
    exact (hn.going c k hc hhas).completable
  · refine ⟨[], ?_⟩
    rw [List.append_nil]
    exact hn.ended k hk fun c hc hk => hhas ⟨c, hc, hk⟩

end Nests

/-! ## Without the trace -/

section Mirrored

variable {σ' ρ' : Type} {v : NativeView σ σ' ρ ρ'} {m : Manager σ ρ ς} {m' : Manager σ' ρ' ς}
  {act : α → Session σ ρ ς → Session σ ρ ς} {act' : α → Session σ' ρ' ς → Session σ' ρ' ς}

def OpenScope.seen (v : NativeView σ σ' ρ ρ') (x : OpenScope σ ρ ς) : OpenScope σ' ρ' ς :=
  ⟨x.status, x.origin.seen v⟩

def Nest.seen (v : NativeView σ σ' ρ ρ') (n : Nest σ ρ ς) : Nest σ' ρ' ς :=
  ⟨n.session.seen v, n.scopes.map (OpenScope.seen v)⟩

def Nests.seen (v : NativeView σ σ' ρ ρ') (n : Nests σ ρ ς) : Nests σ' ρ' ς :=
  ⟨n.session.seen v, fun c => (n.scopes c).map (OpenScope.seen v)⟩

theorem Nests.seen_update (n : Nests σ ρ ς) (c : ContextIndex) (n' : Nest σ ρ ς) :
    (n.update c n').seen v = (n.seen v).update c (n'.seen v) := by
  unfold Nests.seen Nests.update
  congr 1
  funext c'
  exact Function.apply_update (fun _ => List.map (OpenScope.seen v)) n.scopes c n'.scopes c'

variable (hm : m.Mirrored v m') (hact : ∀ a s, act' a (s.seen v) = (act a s).seen v)
include hm hact

theorem Manager.Mirrored.nest (c : ContextIndex) (n : Nest σ ρ ς) (call : ScopeCall α) :
    (n.seen v).step m' c act' call = (n.step m c act call).seen v := by
  cases call with
  | enter d =>
    show (n.seen v).entered (m'.getTransaction c d (n.session.seen v)) =
      (n.entered (m.getTransaction c d n.session)).seen v
    rw [hm.getTransaction c d n.session]
    rcases m.getTransaction c d n.session with ⟨_ | _, _⟩ <;> rfl
  | leave commit =>
    obtain ⟨s, scopes⟩ := n
    cases scopes with
    | nil => rfl
    | cons x rest =>
      have hconclude := congrArg Prod.snd (hm.conclude commit c x.status s)
      exact congrArg (Nest.mk · (rest.map (OpenScope.seen v))) hconclude
  | mark t => rfl
  | act a => exact congrArg (Nest.mk · (n.scopes.map (OpenScope.seen v))) (hact a n.session)

/-- Nested scopes with one manager look like those with the other. -/
theorem Manager.Mirrored.nests (n : Nests σ ρ ς) (calls : List (ContextIndex × ScopeCall α)) :
    (n.seen v).run m' act' calls = (n.run m act calls).seen v := by
  induction calls generalizing n with
  | nil => rfl
  | cons call calls ih =>
    refine Eq.trans ?_ (ih (n.step m act call))
    show Nests.run m' act' calls ((n.seen v).update call.1 (((n.within call.1).seen v).step m' call.1 act' call.2)) =
      _
    rw [hm.nest hact, ← Nests.seen_update]
    rfl

end Mirrored

theorem traced_nests (m : Manager σ ρ ς) (contexts : Nat) (state : σ)
    (calls : List (ContextIndex × ScopeCall (σ × Instant))) :
    (Nests.run m.traced elapseTraced calls { session := Session.ofContexts contexts { state } }).seen untraced =
      Nests.run m elapse calls { session := Session.ofContexts contexts state } := by
  have hact : ∀ (a : σ × Instant) (s : Session (Traced σ ς) (Nat × ρ) ς),
      elapse a (s.seen untraced) = (elapseTraced a s).seen untraced := fun _ _ => rfl
  have hrun := (traced_mirrored m).nests hact { session := Session.ofContexts contexts { state } } calls
  rw [← hrun]
  congr 1
  unfold Nests.seen Session.seen Session.ofContexts
  rw [Array.map_empty]
  rfl

/-- The protocol of suspensions and savepoints, for every manager, every backend and every run of scopes that are
nested in each of any number of contexts, whatever fails. A trace shows what the resource of every transaction is
asked, and without the trace the run is that of the manager itself. Of a transaction whose owner is completed, so of
every one where all scopes are, what was asked obeys the rules of `Protocol`; before that it obeys them so far. -/
theorem follows_protocol (m : Manager σ ρ ς) (contexts : Nat) (state : σ)
    (calls : List (ContextIndex × ScopeCall (σ × Instant))) (hcalls : ∀ call ∈ calls, call.1 < contexts) :
    let n := Nests.run m.traced elapseTraced calls { session := Session.ofContexts contexts { state } }
    n.seen untraced = Nests.run m elapse calls { session := Session.ofContexts contexts state } ∧
    (∀ k x, n.session.holder? k = some x → x.resource.1 = k) ∧
    (∀ k, n.session.native.begun ≤ k → n.session.native.asked k = []) ∧
    ∀ k, k < n.session.native.begun → ∃ t st, n.session.status? t = some st ∧
      (∀ t', n.session.owned? t' = some k ↔ t' = t) ∧
      if st.isCompleted then Protocol (n.session.native.asked k)
      else ∃ rest, Protocol (n.session.native.asked k ++ rest) := by
  intro n
  have hplain := traced_nests m contexts state calls
  change n.seen untraced = _ at hplain
  have hn : n.Conversing m := (Nests.Conversing.start m contexts state).run calls fun call hmem => by
    simpa [Session.ofContexts] using hcalls call hmem
  clear_value n
  refine ⟨hplain, hn.tracked.numbers, fun k hk => hn.unbegun k (hn.tracked.count ▸ hk), fun k hk => ?_⟩
  have hlt : k < n.session.holders.size := hn.tracked.count ▸ hk
  obtain ⟨t, hown⟩ := hn.owned.each k hlt
  obtain ⟨st, hst, -⟩ := Option.bind_eq_some_iff.1 hown
  refine ⟨t, st, hst, fun t' => ⟨fun hown' => hn.owned.unique t' t k hown' hown, fun h => h ▸ hown⟩, ?_⟩
  split
  · rename_i hcomplete
    exact (hn.course_of_completed hst hown hcomplete).protocol
  · obtain ⟨rest, hcourse⟩ := hn.completable hlt
    exact ⟨rest, hcourse.protocol⟩

/-- Calls of two contexts take turns. In the first one a transaction is suspended inside a savepoint, and neither it
can be resumed nor the savepoint be returned to. -/
theorem follows_protocol_interleaved :
    let m : Manager Store ConnectionId Savepoint := { backend := Store.backend ⟨7⟩ .all }
    let store : Store := { key := ⟨7⟩, faults := [(.resume, 1), (.rollbackToSavepoint, 1)] }
    let calls : List (ContextIndex × ScopeCall (Store × Instant)) :=
      [(0, .enter { propagation := .required }), (0, .enter { propagation := .nested }),
        (1, .enter { propagation := .required }), (0, .enter { propagation := .requiresNew }),
        (1, .enter { propagation := .nested }), (0, .leave true), (1, .leave true), (0, .leave false),
        (1, .leave false), (0, .leave true)]
    let n := Nests.run m.traced elapseTraced calls { session := Session.ofContexts 2 { state := store } }
    let sp : Savepoint := { id := 1, connection := 1, mark := 0 }
    (∀ call ∈ calls, call.1 < 2) ∧
      n.session.native.asked 0 = [.create (some sp), .suspend true, .resume false, .rollbackTo sp false,
        .commit true, .cleanup true] ∧
      Protocol (n.session.native.asked 0) := by
  intro m store calls n sp
  have hcalls : ∀ call ∈ calls, call.1 < 2 := by
    simp [calls]
  have hbegun : 0 < n.session.native.begun := by decide +kernel
  have hown : n.session.owned? 0 = some 0 := by decide +kernel
  have hcompleted : (n.session.status? 0).map Status.isCompleted = some true := by decide +kernel
  have hasked : n.session.native.asked 0 = [.create (some sp), .suspend true, .resume false, .rollbackTo sp false,
        .commit true, .cleanup true] := by decide +kernel
  have hfollows := follows_protocol m 2 store calls hcalls
  extract_lets at hfollows
  obtain ⟨-, -, -, hfollows⟩ := hfollows
  clear_value n
  obtain ⟨t, st, hst, hown', hrule⟩ := hfollows 0 hbegun
  obtain rfl := (hown' 0).1 hown
  rw [hst] at hcompleted
  rw [if_pos (Option.some.inj hcompleted)] at hrule
  exact ⟨hcalls, hasked, hrule⟩

end Demarcation
