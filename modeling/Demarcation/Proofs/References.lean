/-
Reference counts. In any order of calls, failing or not, a holder counts exactly the open scopes that
use it, so that releasing one never meets a count of zero.

The count of open scopes is read off the statuses. What opening and completing a scope do to it is set
against what they do to the holder, change by change, and a run keeps the two equal.
-/
import Demarcation.Proofs.Client

namespace Demarcation

open Session Manager

variable {σ ρ ς : Type}

/-! ## The open scopes of a holder -/

/-- The scope is open and uses the transaction of a holder. -/
def Status.uses (st : Status ς) (h : HolderId) : Bool := st.holder == some h && !st.isCompleted

theorem Status.uses_eq_true {st : Status ς} {h : HolderId} :
    st.uses h = true ↔ st.holder = some h ∧ st.isCompleted = false := by
  simp [uses]

theorem Status.uses_of_ne {st : Status ς} {h : HolderId} (hne : st.holder ≠ some h) : st.uses h = false := by
  simp [uses, hne]

/-- How many open scopes use the transaction of a holder: its owner, those that joined it and those that
are nested in it. -/
def Session.users (s : Session σ ρ ς) (h : HolderId) : Nat := s.statuses.countP (·.uses h)

section Users

variable {s s' : Session σ ρ ς} {t : StatusId} {st st' : Status ς} {h : HolderId}

theorem users_pos_iff (s : Session σ ρ ς) (h : HolderId) :
    0 < s.users h ↔ ∃ t st, s.status? t = some st ∧ st.holder = some h ∧ st.isCompleted = false := by
  unfold Session.users
  rw [Array.countP_pos_iff]
  constructor
  · rintro ⟨st, hmem, huses⟩
    obtain ⟨t, ht⟩ := Array.mem_iff_getElem?.1 hmem
    exact ⟨t, st, ht, Status.uses_eq_true.1 huses⟩
  · rintro ⟨t, st, hst, huses⟩
    exact ⟨st, Array.mem_of_getElem? hst, Status.uses_eq_true.2 huses⟩

/-- The users stay while every status stays a user, or no user. -/
theorem users_congr (hsame : ∀ u, (s'.status? u).map (·.uses h) = (s.status? u).map (·.uses h)) :
    s'.users h = s.users h := by
  have hmap : s'.statuses.map (·.uses h) = s.statuses.map (·.uses h) := map_eq_of_getElem? hsame
  have hcount : ∀ a : Array (Status ς), a.countP (·.uses h) = (a.map (·.uses h)).countP id := by
    intro a
    rw [Array.countP_map]
    rfl
  unfold Session.users
  rw [hcount, hcount, hmap]

theorem users_addStatus (s : Session σ ρ ς) (st : Status ς) (h : HolderId) :
    (s.addStatus st).2.users h = s.users h + if st.uses h then 1 else 0 :=
  Array.countP_push

/-- One status is replaced by another one. -/
theorem users_replace (hst : s.status? t = some st)
    (hrest : ∀ u, s'.status? u = if u = t then some st' else s.status? u) :
    s'.users h + (if st.uses h then 1 else 0) = s.users h + (if st'.uses h then 1 else 0) := by
  have hlt : t < s.statuses.size := status?_lt hst
  have hset : s'.statuses = s.statuses.set t st' hlt := by
    refine Array.ext_getElem? fun u => ?_
    have hu := hrest u
    unfold Session.status? at hu
    rw [hu, Array.getElem?_set]
    by_cases heq : u = t
    · simp [heq]
    · simp [heq, Ne.symm heq]
  have hold : s.statuses[t] = st := (Array.getElem?_eq_some_iff.1 hst).2
  -- the status that is replaced is itself counted if it is a user
  have hcounted : (if st.uses h then 1 else 0) ≤ s.users h := by
    by_cases huses : st.uses h = true
    · have hpos : 0 < s.users h := (users_pos_iff s h).2 ⟨t, st, hst, Status.uses_eq_true.1 huses⟩
      simp only [huses, if_true]
      omega
    · simp [huses]
  have hcount : s'.users h = s.users h - (if st.uses h then 1 else 0) + (if st'.uses h then 1 else 0) := by
    unfold Session.users
    rw [hset, Array.countP_set, hold]
  omega

/-- A scope that ends is no user any more. -/
theorem users_ended {state : TransactionState} (hst : s.status? t = some st) (hopen : st.isCompleted = false)
    (hrest : ∀ u, s'.status? u = if u = t then some (st.ended state) else s.status? u) :
    s.users h = s'.users h + if st.holder = some h then 1 else 0 := by
  have hends := users_replace (h := h) hst hrest
  have hgone : (st.ended state).uses h = false := by
    simp [Status.uses, Status.ended, Status.isCompleted]
  have huses : st.uses h = true ↔ st.holder = some h := by
    simp [Status.uses_eq_true, hopen]
  simp only [hgone, huses, Bool.false_eq_true, if_false] at hends
  omega

end Users

/-! ## What completing a scope does to the counts -/

section Completing

variable {m : Manager σ ρ ς} {c : ContextIndex} {commit : Bool} {t : StatusId} {st : Status ς}
  {s s' : Session σ ρ ς} {state : TransactionState} {outcome r : Except TransactionError Unit}

/-- The work of a scope counts no reference. -/
theorem Manager.Working.references (hw : Working m commit st s state outcome s') :
    Alike Holder.references s s' := by
  refine ⟨hw.steady.statuses, fun k => ?_⟩
  have hquiet := congrArg (Option.map Holder.references) (hw.quiet.holders k)
  rwa [Option.map_map, Option.map_map] at hquiet

/-- Releasing a scope takes one reference from the holder that it used. -/
theorem Manager.Releasing.references (hr : Releasing m c st s r s') (k : HolderId) :
    (s'.holder? k).map Holder.references =
      (s.holder? k).map fun x => if st.holder = some k then x.references - 1 else x.references := by
  cases hr with
  | nothing hh => simp [hh]
  | @reference h hh =>
    rw [holder?_modifyHolder, hh]
    by_cases hk : k = h
    · simp [hk, Function.comp_def, Holder.released]
    · simp [hk, Ne.symm hk]
  | @transaction h r₁ s₁ r₂ n hh _ hun =>
    have halike : Alike Holder.references s s₁ := (Alike.purge s c _).trans hun.alike
    rw [holder?_withNative, holder?_modifyHolder, hh]
    by_cases hk : k = h
    · subst hk
      have hone := congrArg (Option.map fun n => n - 1) (halike.holders k)
      rw [Option.map_map, Option.map_map] at hone
      simp only [if_true, Option.map_map]
      exact hone
    · simp only [hk, if_false, Option.some.injEq, Ne.symm hk]
      exact halike.holders k

theorem Manager.Resuming.references (hr : Resuming m c t st s r s') (k : HolderId) :
    (s'.holder? k).map Holder.references = (s.holder? k).map Holder.references := by
  cases hr with
  | nothing | refused => rfl
  | @resumed h _ n =>
    exact ((Alike.attach _ c _ h fun _ => rfl).trans (.withNative _ n)).holders k

/-- Completing a scope takes one reference from the holder that it used, and none from any other. -/
theorem Manager.Concluding.references (hc : Concluding m commit c t st s r s') (k : HolderId) :
    (s'.holder? k).map Holder.references =
      (s.holder? k).map fun x => if st.holder = some k then x.references - 1 else x.references := by
  cases hc with
  | @mk state outcome r₁ r₂ s₁ s₂ s₃ hwork hrel hres =>
    have hworked : (s₁.holder? k).map Holder.references = (s.holder? k).map Holder.references :=
      hwork.references.holders k
    have hreleased := hrel.references k
    rw [hres.references k, hreleased]
    show (s₁.holder? k).map _ = _
    by_cases hh : st.holder = some k
    · have hone := congrArg (Option.map fun n => n - 1) hworked
      rw [Option.map_map, Option.map_map] at hone
      simp only [hh, if_true]
      exact hone
    · simp only [hh, if_false]
      exact hworked

end Completing

/-! ## What holds between calls -/

/-- Every holder counts its users, and no scope uses a holder that is not there. -/
structure Counted (s : Session σ ρ ς) : Prop where
  exact : ∀ h x, s.holder? h = some x → x.references = s.users h
  known : ∀ t st h, s.status? t = some st → st.holder = some h → h < s.holders.size

namespace Counted

variable {m : Manager σ ρ ς} {c : ContextIndex} {d : Definition} {s s' : Session σ ρ ς} {st : Status ς}
  {h : HolderId} {r : Except TransactionError StatusId}

/-- Neither the users nor the counts changed. -/
theorem congr (hs : Counted s)
    (hholders : ∀ k, (s'.holder? k).map Holder.references = (s.holder? k).map Holder.references)
    (hstatuses : ∀ u, ∃ f : Status ς → Status ς, s'.status? u = (s.status? u).map f ∧
      ∀ st, (f st).holder = st.holder ∧ (f st).completion = st.completion) : Counted s' := by
  have husers : ∀ k, s'.users k = s.users k := by
    intro k
    refine users_congr fun u => ?_
    obtain ⟨f, hf, hkeep⟩ := hstatuses u
    rw [hf, Option.map_map]
    refine congrArg (Option.map · (s.status? u)) (funext fun st => ?_)
    obtain ⟨hh, hcompletion⟩ := hkeep st
    simp [Status.uses, Status.isCompleted, hh, hcompletion]
  refine ⟨?_, ?_⟩
  · intro k x' hx'
    have heq := hholders k
    rw [hx'] at heq
    obtain ⟨x, hx, hsame⟩ := Option.map_eq_some_iff.1 heq.symm
    rw [husers, ← hsame]
    exact hs.exact k x hx
  · intro t st' k hst' hh'
    obtain ⟨f, hf, hkeep⟩ := hstatuses t
    obtain ⟨st, hst, rfl⟩ := Option.map_eq_some_iff.1 (hf.symm.trans hst')
    rw [holders_size_of_alike hholders]
    exact hs.known t st k hst ((hkeep st).1.symm.trans hh')

theorem alike (hs : Counted s) (ha : Alike Holder.references s s') : Counted s' := by
  refine hs.congr ha.holders fun u => ⟨id, ?_, fun st => ⟨rfl, rfl⟩⟩
  rw [ha.status?, Option.map_id]
  rfl

/-- A scope was opened, and the holder that it uses, if there is one, counts one more. -/
theorem opened (hs : Counted s) (hstatuses : s'.statuses = s.statuses)
    (hholders : ∀ k x', s'.holder? k = some x' →
      x'.references = s.users k + if st.uses k then 1 else 0)
    (hsize : s.holders.size ≤ s'.holders.size)
    (hst : ∀ k, st.holder = some k → k < s'.holders.size) : Counted (s'.addStatus st).2 := by
  refine ⟨?_, ?_⟩
  · intro k x' hx'
    rw [users_addStatus, hholders k x' hx']
    unfold Session.users
    rw [hstatuses]
  · intro t st' k hst' hh'
    rw [status?_addStatus] at hst'
    split at hst'
    · obtain rfl := Option.some.inj hst'
      exact hst k hh'
    · unfold Session.status? at hst'
      rw [hstatuses] at hst'
      exact Nat.lt_of_lt_of_le (hs.known t st' k hst' hh') hsize

/-- A scope without a transaction was opened. -/
theorem untransacted (hs : Counted s) (hh : st.holder = none) : Counted (s.addStatus st).2 := by
  refine hs.opened rfl ?_ (Nat.le_refl _) ?_
  · intro k x hx
    have hno : st.uses k = false := Status.uses_of_ne (by simp [hh])
    simp [hno, hs.exact k x hx]
  · rw [hh]
    nofun

/-- A scope joined the transaction of a holder. -/
theorem joined (hs : Counted s) {x : Holder ρ} (hx : s.holder? h = some x) (hh : st.holder = some h)
    (hopen : st.completion = none) : Counted ((s.modifyHolder h Holder.requested).addStatus st).2 := by
  have hsame : Alike Holder.resource s (s.modifyHolder h Holder.requested) := .modifyHolder s h fun _ => rfl
  refine hs.opened rfl ?_ (Nat.le_of_eq hsame.holders_size.symm) ?_
  · intro k y hy
    rw [holder?_modifyHolder] at hy
    by_cases hk : k = h
    · subst hk
      rw [if_pos rfl, hx] at hy
      obtain rfl := Option.some.inj hy
      have huses : st.uses k = true := Status.uses_eq_true.2 ⟨hh, Status.isCompleted_of_none hopen⟩
      simp [huses, Holder.requested, hs.exact k x hx]
    · rw [if_neg hk] at hy
      have hno : st.uses k = false := Status.uses_of_ne (by simp [hh, Ne.symm hk])
      simp [hno, hs.exact k y hy]
  · intro k hk
    obtain rfl := Option.some.inj (hh.symm.trans hk)
    rw [hsame.holders_size]
    exact holder?_lt hx

/-- A scope began a transaction, whose holder is new and counts it. -/
theorem begun (hs : Counted s) (hb : Beginning m c d s (.ok h) s') (hh : st.holder = some h)
    (hopen : st.completion = none) : Counted (s'.addStatus st).2 := by
  cases hb with
  | @begun timeout resource n =>
    have hone : (m.newHolder d resource timeout s.now).references = 1 := by
      cases timeout <;> rfl
    -- nothing used the number of the new holder yet
    have hnew : s.users s.holders.size = 0 := by
      refine Nat.eq_zero_of_not_pos fun hpos => ?_
      obtain ⟨t, st', hst', hh', -⟩ := (users_pos_iff s _).1 hpos
      exact Nat.lt_irrefl _ (hs.known t st' _ hst' hh')
    have hsize : ((s.withNative n).addHolder (m.newHolder d resource timeout s.now)).2.holders.size =
        s.holders.size + 1 := addHolder_size (s.withNative n) _
    refine hs.opened rfl ?_ ?_ ?_
    · intro k y hy
      rw [holder?_putBinding, holder?_addHolder] at hy
      change (if k = s.holders.size then _ else s.holder? k) = some y at hy
      by_cases hk : k = s.holders.size
      · rw [if_pos hk] at hy
        obtain rfl := Option.some.inj hy
        have huses : st.uses k = true :=
          Status.uses_eq_true.2 ⟨hk ▸ hh, Status.isCompleted_of_none hopen⟩
        rw [hone, huses, hk, hnew]
        rfl
      · rw [if_neg hk] at hy
        have hno : st.uses k = false := Status.uses_of_ne (by simp [hh, Ne.symm hk])
        simp [hno, hs.exact k y hy]
    · show s.holders.size ≤ ((s.withNative n).addHolder _).2.holders.size
      omega
    · intro k hk
      obtain rfl := Option.some.inj (hh.symm.trans hk)
      show _ < ((s.withNative n).addHolder _).2.holders.size
      omega

theorem opening (hs : Counted s) (ho : Opening m c d s r s') : Counted s' := by
  cases ho with
  | refused => exact hs
  | untransacted => exact hs.untransacted rfl
  | beginFailed _ hbegin => exact hs.alike hbegin.alike
  | begun _ _ hbegin => exact hs.begun hbegin rfl rfl
  | suspendFailed => exact hs.alike (.withNative s _)
  | @detached h x n =>
    exact (hs.alike ((Alike.withNative s n).trans (.detach _ c _ h fun _ => rfl))).untransacted rfl
  | @renewed h h' x n s₁ _ _ _ _ _ _ hbegin =>
    exact (hs.alike ((Alike.withNative s n).trans (.detach _ c _ h fun _ => rfl))).begun hbegin rfl rfl
  | @renewFailed h x n e s₁ s₂ r _ _ _ _ _ _ hbegin hres =>
    have hgone : Counted s₁ :=
      hs.alike (((Alike.withNative s n).trans (.detach _ c _ h fun _ => rfl)).trans hbegin.alike)
    rcases resume_spec m c h s₁ with ⟨_, _, hrun⟩ | ⟨_, hrun⟩
    · obtain ⟨-, rfl⟩ := Prod.mk.inj (hres.symm.trans hrun)
      exact hgone
    · obtain ⟨-, rfl⟩ := Prod.mk.inj (hres.symm.trans hrun)
      exact hgone.alike ((Alike.attach _ c _ h fun _ => rfl).trans (.withNative _ _))
  | savepointFailed => exact hs.alike (.withNative s _)
  | @nested h x sp n _ hx => exact (hs.alike (.withNative s n)).joined hx rfl rfl
  | joined _ hx => exact hs.joined hx rfl rfl

/-- An open scope is counted by its holder. -/
theorem referenced (hs : Counted s) {t : StatusId} (hst : s.status? t = some st)
    (hopen : st.isCompleted = false) (hh : st.holder = some h) :
    ∃ x, s.holder? h = some x ∧ 0 < x.references := by
  have hlt : h < s.holders.size := hs.known t st h hst hh
  refine ⟨s.holders[h], Array.getElem?_eq_getElem hlt, ?_⟩
  rw [hs.exact h _ (Array.getElem?_eq_getElem hlt)]
  exact (users_pos_iff s h).2 ⟨t, st, hst, hh, hopen⟩

theorem concluding (hs : Counted s) {commit : Bool} {t : StatusId} {r : Except TransactionError Unit}
    (hst : s.status? t = some st) (hopen : st.isCompleted = false)
    (hc : Concluding m commit c t st s r s') : Counted s' := by
  obtain ⟨state, -, -, -, -, -, -, -, hstatuses, -⟩ := hc.outline hst (.const m.backend)
  refine ⟨?_, ?_⟩
  · intro k x' hx'
    have hcount := hc.references k
    rw [hx'] at hcount
    obtain ⟨x, hx, hless⟩ := Option.map_eq_some_iff.1 hcount.symm
    have husers : s.users k = s'.users k + if st.holder = some k then 1 else 0 :=
      users_ended hst hopen hstatuses
    have hexact := hs.exact k x hx
    by_cases hh : st.holder = some k
    · rw [if_pos hh] at hless husers
      omega
    · rw [if_neg hh] at hless husers
      omega
  · intro u st' k hst' hh'
    have hsize : s'.holders.size = s.holders.size := holders_size_of_alike (hc.resources hst)
    rw [hsize]
    rw [hstatuses] at hst'
    split at hst'
    · obtain rfl := Option.some.inj hst'
      exact hs.known t st k hst hh'
    · exact hs.known u st' k hst' hh'

theorem start (contexts : Nat) (native : σ) :
    Counted (Session.ofContexts contexts native : Session σ ρ ς) := by
  refine ⟨?_, ?_⟩
  · intro h x hx
    cases hx
  · intro t st h hst
    cases hst

end Counted

/-! ## Runs -/

/-- What becomes of a session between two calls of a manager, whoever does it: anything but the scopes
and the counts of references. -/
structure Interlude (σ ρ : Type) where
  native : σ
  now : Instant
  registries : Array (Registry HolderId)
  holders : HolderId → Holder ρ → Holder ρ
  held : StatusId → Bool

def Interlude.perform (a : Interlude σ ρ) (s : Session σ ρ ς) : Session σ ρ ς where
  native := a.native
  now := a.now
  registries := a.registries
  holders := s.holders.mapIdx fun h x => { a.holders h x with references := x.references }
  statuses := s.statuses.mapIdx fun t st => { st with held := a.held t }

section Calls

variable {m : Manager σ ρ ς} {s : Session σ ρ ς}

theorem Counted.interlude (hs : Counted s) (a : Interlude σ ρ) : Counted (a.perform s) := by
  refine hs.congr (fun k => ?_) fun u => ⟨fun st => { st with held := a.held u }, ?_, fun st => ⟨rfl, rfl⟩⟩
  · show ((s.holders.mapIdx _)[k]?).map Holder.references = (s.holders[k]?).map Holder.references
    rw [Array.getElem?_mapIdx, Option.map_map]
    rfl
  · exact Array.getElem?_mapIdx

theorem Counted.called (hs : Counted s) (call : ManagerCall (Interlude σ ρ)) :
    Counted (m.called Interlude.perform s call) := by
  cases call with
  | enter c d =>
    obtain ⟨r, s', hrun, hopening⟩ := getTransaction_spec m c d s
    show Counted (m.getTransaction c d s).2
    rw [hrun]
    exact (hs.alike (.purge s c _)).opening hopening
  | conclude commit c t =>
    show Counted (m.conclude commit c t s).2
    rcases conclude_cases m commit c t s with ⟨hrefused, _⟩ | ⟨st, r, s', hst, hopen, hrun, hc⟩
    · rw [hrefused]
      exact hs
    · rw [hrun]
      exact hs.concluding hst hopen hc
  | mark t =>
    refine hs.congr (fun _ => rfl) fun u => ?_
    by_cases hu : u = t
    · refine ⟨fun st => { st with rollbackOnly := true }, ?_, fun st => ⟨rfl, rfl⟩⟩
      exact (status?_modifyStatus s t u _).trans (if_pos hu)
    · refine ⟨id, ?_, fun st => ⟨rfl, rfl⟩⟩
      rw [Option.map_id]
      exact (status?_modifyStatus s t u _).trans (if_neg hu)
  | act a => exact hs.interlude a

theorem Counted.calledAll (hs : Counted s) (calls : List (ManagerCall (Interlude σ ρ))) :
    Counted (m.calledAll Interlude.perform calls s) := by
  induction calls generalizing s with
  | nil => exact hs
  | cons call calls ih => exact ih (hs.called call)

/-- Every scope that is opened has the next status, and a scope that is not opened has none. -/
theorem getTransaction_statuses (m : Manager σ ρ ς) (c : ContextIndex) (d : Definition) (s : Session σ ρ ς) :
    match m.getTransaction c d s with
    | (.ok t, s') => t = s.statuses.size ∧ ∃ st, s'.statuses = s.statuses.push st ∧ st.isCompleted = false
    | (.error _, s') => s'.statuses = s.statuses := by
  obtain ⟨r, s', hrun, houtline⟩ := getTransaction_outline m c d s (.const m.backend)
  rw [hrun]
  cases houtline with
  | failed halike => exact halike.statuses
  | @entered s₁ st halike _ hopen =>
    refine ⟨congrArg Array.size halike.statuses, st, ?_, Status.isCompleted_of_none hopen⟩
    rw [← halike.statuses]
    rfl
  | @begun s₁ st x n halike _ _ _ hopen =>
    refine ⟨congrArg Array.size halike.statuses, st, ?_, Status.isCompleted_of_none hopen⟩
    rw [← halike.statuses]
    rfl

end Calls

/-- Reference counts are exact, for every manager, every order of calls in any contexts, and whatever else
becomes of the session between them, the counts themselves apart. A holder counts the scopes that were
opened on it, as its owner, as participants or nested in it, and are not completed yet, and it is open
exactly while there is one; a scope has a status only if it was opened. A scope that is completed finds its
holder with a count above zero when it releases it, and leaves the count one less and every other count as
it was. -/
theorem references_exact (m : Manager σ ρ ς) (contexts : Nat) (native : σ)
    (calls : List (ManagerCall (Interlude σ ρ))) :
    let s := m.calledAll Interlude.perform calls (Session.ofContexts contexts native)
    (∀ h x, s.holder? h = some x →
      x.references = s.statuses.countP (fun st => st.holder == some h && !st.isCompleted) ∧
      (x.isOpen = true ↔ ∃ t st, s.status? t = some st ∧ st.holder = some h ∧ st.isCompleted = false)) ∧
    (∀ c d, match m.getTransaction c d s with
      | (.ok t, s') => t = s.statuses.size ∧ ∃ st, s'.statuses = s.statuses.push st ∧ st.isCompleted = false
      | (.error _, s') => s'.statuses = s.statuses) ∧
    (∀ commit c t st, s.status? t = some st → st.isCompleted = false →
      (∀ h, st.holder = some h → ∃ x x', (m.work commit st s).2.holder? h = some x ∧
        (m.conclude commit c t s).2.holder? h = some x' ∧ x.references = x'.references + 1) ∧
      ∀ k, st.holder ≠ some k →
        ((m.conclude commit c t s).2.holder? k).map Holder.references = (s.holder? k).map Holder.references) := by
  intro s
  have hs : Counted s := (Counted.start contexts native).calledAll calls
  clear_value s
  refine ⟨?_, ?_, ?_⟩
  · intro h x hx
    have hexact := hs.exact h x hx
    refine ⟨hexact, ?_⟩
    rw [← users_pos_iff, ← hexact]
    exact decide_eq_true_iff
  · intro c d
    exact getTransaction_statuses m c d s
  · intro commit c t st hst hopen
    obtain ⟨r, s', hrun, hc⟩ := conclude_spec m commit c hst hopen
    rw [hrun]
    refine ⟨?_, ?_⟩
    · intro h hh
      obtain ⟨x, hx, hpos⟩ := hs.referenced hst hopen hh
      obtain ⟨y, hy, hworked⟩ := (work_spec m commit st s).references.holder hx
      have hcount := hc.references h
      rw [hx, hh] at hcount
      obtain ⟨x', hx', hless⟩ := Option.map_eq_some_iff.1 hcount
      refine ⟨y, x', hy, hx', ?_⟩
      simp only [if_true] at hless
      omega
    · intro k hk
      rw [hc.references k]
      simp only [hk, if_false]

end Demarcation
