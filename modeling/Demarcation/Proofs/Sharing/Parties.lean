/-
Sessions that two parties share. What is a party's own in a shared session (its keys, its part of the native state,
and the holders and statuses that it made) is compared with a session that the party has for itself, in which the
same holders and statuses have other names. An operation of one party that does the same in both sessions, up to
these names, leaves the other party's part of the shared session as it is.
-/
import Demarcation.Proofs.Manager.Opening

namespace Demarcation

open Session

variable {σ ρ ς α α' β β' ε δ : Type}

/-! ## Names -/

/-- The holders and statuses of a shared session that are one party's own, each at the place that is its name in the
party's session. -/
structure Names where
  holders : List HolderId := []
  statuses : List StatusId := []

namespace Names

variable {n n₁ n₂ : Names}

/-- The holder `h` of the shared session is the party's `h'`. -/
def SameHolder (n : Names) (h h' : HolderId) : Prop := n.holders[h']? = some h

/-- The status `t` of the shared session is the party's `t'`. -/
def SameStatus (n : Names) (t t' : StatusId) : Prop := n.statuses[t']? = some t

/-- Names that stay, with more of them. -/
structure Le (n n₁ : Names) : Prop where
  holder : ∀ {h h'}, n.SameHolder h h' → n₁.SameHolder h h'
  status : ∀ {t t'}, n.SameStatus t t' → n₁.SameStatus t t'

theorem Le.refl (n : Names) : n.Le n := ⟨id, id⟩

theorem Le.trans (h : n.Le n₁) (h' : n₁.Le n₂) : n.Le n₂ :=
  ⟨fun hh => h'.holder (h.holder hh), fun ht => h'.status (h.status ht)⟩

/-- Optional holders of the two sessions are the same one. -/
abbrev SameHolder? (n : Names) : Option HolderId → Option HolderId → Prop := Option.Rel n.SameHolder

theorem SameHolder?.mono {o o' : Option HolderId} (h : n.SameHolder? o o') (hle : n.Le n₁) : n₁.SameHolder? o o' := by
  cases h with
  | none => exact .none
  | some h => exact .some (hle.holder h)

/-- The names with a new holder. -/
def withHolder (n : Names) (h : HolderId) : Names := { n with holders := n.holders ++ [h] }

/-- The names with a new status. -/
def withStatus (n : Names) (t : StatusId) : Names := { n with statuses := n.statuses ++ [t] }

theorem le_withHolder (n : Names) (h : HolderId) : n.Le (n.withHolder h) := by
  refine ⟨fun {k k'} hk => ?_, id⟩
  have hlt : k' < n.holders.length := (List.getElem?_eq_some_iff.1 hk).1
  exact (List.getElem?_append_left hlt).trans hk

theorem le_withStatus (n : Names) (t : StatusId) : n.Le (n.withStatus t) := by
  refine ⟨id, fun {u u'} hu => ?_⟩
  have hlt : u' < n.statuses.length := (List.getElem?_eq_some_iff.1 hu).1
  exact (List.getElem?_append_left hlt).trans hu

theorem getElem?_concat {l : List Nat} {i x y : Nat} (h : (l ++ [x])[i]? = some y) :
    l[i]? = some y ∨ (i = l.length ∧ y = x) := by
  rcases Nat.lt_trichotomy i l.length with hlt | rfl | hlt
  · rw [List.getElem?_append_left hlt] at h
    exact .inl h
  · rw [List.getElem?_concat_length] at h
    exact .inr ⟨rfl, (Option.some.inj h).symm⟩
  · rw [List.getElem?_eq_none (by rw [List.length_append, List.length_singleton]; omega)] at h
    cases h

theorem holder_withHolder {h k k' : HolderId} (hk : (n.withHolder h).SameHolder k k') :
    n.SameHolder k k' ∨ (k' = n.holders.length ∧ k = h) := getElem?_concat hk

theorem status_withStatus {t u u' : StatusId} (hu : (n.withStatus t).SameStatus u u') :
    n.SameStatus u u' ∨ (u' = n.statuses.length ∧ u = t) := getElem?_concat hu

theorem holder_new (n : Names) (h : HolderId) : (n.withHolder h).SameHolder h n.holders.length := List.getElem?_concat_length

theorem status_new (n : Names) (t : StatusId) : (n.withStatus t).SameStatus t n.statuses.length := List.getElem?_concat_length

end Names

/-- Statuses of the two sessions are the same, but for the names of their holders. -/
structure Names.Same (n : Names) (st st' : Status ς) : Prop where
  rest : st' = { st with holder := st'.holder, suspended := st'.suspended }
  holder : n.SameHolder? st.holder st'.holder
  suspended : n.SameHolder? st.suspended st'.suspended

namespace Names.Same

variable {n n₁ : Names} {st st' : Status ς}

theorem mono (h : n.Same st st') (hle : n.Le n₁) : n₁.Same st st' := ⟨h.rest, h.holder.mono hle, h.suspended.mono hle⟩

theorem newTransaction (h : n.Same st st') : st'.newTransaction = st.newTransaction := by rw [h.rest]

theorem savepoint (h : n.Same st st') : st'.savepoint = st.savepoint := by rw [h.rest]

theorem rollbackOnly (h : n.Same st st') : st'.rollbackOnly = st.rollbackOnly := by rw [h.rest]

theorem isCompleted (h : n.Same st st') : st'.isCompleted = st.isCompleted := by rw [h.rest]; rfl

theorem ended (h : n.Same st st') (state : TransactionState) :
    n.Same ({ st with completion := some state, savepoint := none } : Status ς)
      { st' with completion := some state, savepoint := none } := by
  refine ⟨?_, h.holder, h.suspended⟩
  exact congrArg (fun x : Status ς =>
    ({ x with completion := some state, savepoint := none } : Status ς)) h.rest

theorem detached (h : n.Same st st') : n.Same { st with suspended := none } { st' with suspended := none } := by
  refine ⟨?_, h.holder, .none⟩
  exact congrArg (fun x : Status ς => { x with suspended := none }) h.rest

theorem marked (h : n.Same st st') : n.Same { st with rollbackOnly := true } { st' with rollbackOnly := true } := by
  refine ⟨?_, h.holder, h.suspended⟩
  exact congrArg (fun x : Status ς => { x with rollbackOnly := true }) h.rest

end Names.Same

/-! ## Parties -/

/-- What belongs to one of the parties that share a session: some keys, and a part of the native state, said by
which native states are the same there. -/
structure Party (σ : Type) where
  keys : ResourceKey → Prop
  same : σ → σ → Prop

/-- The party's own session `a` is what the shared session `s` is to the party. -/
structure Party.Sees (p : Party σ) (n : Names) (s a : Session σ ρ ς) : Prop where
  size : a.registries.size = s.registries.size
  context : ∀ c, (a.registry c).context = (s.registry c).context
  bound : ∀ c k, p.keys k → n.SameHolder? (s.bound c k) (a.bound c k)
  holders : n.holders.length = a.holders.size
  holder : ∀ h h', n.SameHolder h h' → h < s.holders.size ∧ a.holder? h' = s.holder? h
  statuses : n.statuses.length = a.statuses.size
  status : ∀ t t', n.SameStatus t t' → ∃ st st', s.status? t = some st ∧ a.status? t' = some st' ∧ n.Same st st'
  distinct : n.holders.Nodup ∧ n.statuses.Nodup
  native : p.same s.native a.native

/-- A change of a shared session does not concern a party. -/
structure Party.Spared (p : Party σ) (n : Names) (s s₁ : Session σ ρ ς) : Prop where
  size : s₁.registries.size = s.registries.size
  context : ∀ c, (s₁.registry c).context = (s.registry c).context
  bound : ∀ c k, p.keys k → s₁.bound c k = s.bound c k
  grown : s.holders.size ≤ s₁.holders.size
  holder : ∀ h, h ∈ n.holders → s₁.holder? h = s.holder? h
  status : ∀ t, t ∈ n.statuses → s₁.status? t = s.status? t
  native : ∀ u, p.same s.native u → p.same s₁.native u

section Sees

variable {p : Party σ} {n : Names} {s s₁ a : Session σ ρ ς} {h h' : HolderId} {t t' : StatusId}

theorem Names.SameHolder.mem (hh : n.SameHolder h h') : h ∈ n.holders := List.mem_of_getElem? hh

theorem Names.SameStatus.mem (ht : n.SameStatus t t') : t ∈ n.statuses := List.mem_of_getElem? ht

theorem Party.Sees.spared (hs : p.Sees n s a) (hspared : p.Spared n s s₁) : p.Sees n s₁ a where
  size := hs.size.trans hspared.size.symm
  context c := (hs.context c).trans (hspared.context c).symm
  bound c k hk := by rw [hspared.bound c k hk]; exact hs.bound c k hk
  holders := hs.holders
  holder h h' hh := by
    obtain ⟨hlt, hsame⟩ := hs.holder h h' hh
    exact ⟨Nat.lt_of_lt_of_le hlt hspared.grown, hsame.trans (hspared.holder h hh.mem).symm⟩
  statuses := hs.statuses
  status t t' ht := by rw [hspared.status t ht.mem]; exact hs.status t t' ht
  distinct := hs.distinct
  native := hspared.native _ hs.native

/-- Two holders of a party do not have one name. -/
theorem Party.Sees.holder_inj (hs : p.Sees n s a) {k' : HolderId} (hh : n.SameHolder h h') (hk : n.SameHolder h k') :
    h' = k' := (List.getElem?_inj (List.getElem?_eq_some_iff.1 hh).1 hs.distinct.1).1 (hh.trans hk.symm)

theorem Party.Sees.status_inj (hs : p.Sees n s a) {u' : StatusId} (ht : n.SameStatus t t') (hu : n.SameStatus t u') :
    t' = u' := (List.getElem?_inj (List.getElem?_eq_some_iff.1 ht).1 hs.distinct.2).1 (ht.trans hu.symm)

theorem Party.Sees.holder_lt (hs : p.Sees n s a) (hmem : h ∈ n.holders) : h < s.holders.size := by
  obtain ⟨h', hh'⟩ := List.mem_iff_getElem?.1 hmem
  exact (hs.holder h h' hh').1

theorem Party.Sees.status_lt (hs : p.Sees n s a) (hmem : t ∈ n.statuses) : t < s.statuses.size := by
  obtain ⟨t', ht'⟩ := List.mem_iff_getElem?.1 hmem
  obtain ⟨st, _, hst, -⟩ := hs.status t t' ht'
  exact status?_lt hst

/-- What the registries ask about a holder has the same answer. -/
theorem Party.Sees.view (hs : p.Sees n s a) (hh : n.SameHolder h h') :
    a.view.isVoid h' = s.view.isVoid h ∧ a.view.kind h' = s.view.kind h := by
  show (a.holder? h').elim _ _ = (s.holder? h).elim _ _ ∧ (a.holder? h').elim _ _ = (s.holder? h).elim _ _
  rw [(hs.holder h h' hh).2]
  exact ⟨rfl, rfl⟩

end Sees

/-! ## Changes of what a party sees -/

section Changes

variable {p : Party σ} {n : Names} {s a : Session σ ρ ς}

theorem context_setRegistry (s : Session σ ρ ς) (c : ContextIndex) {r : Registry HolderId}
    (hr : r.context = (s.registry c).context) (k : ContextIndex) :
    ((s.setRegistry c r).registry k).context = (s.registry k).context := by
  by_cases hk : k = c
  · subst hk
    by_cases hlt : k < s.registries.size
    · rw [registry_setRegistry_self s r hlt, hr]
    · rw [setRegistry_of_not_lt s r hlt]
  · rw [registry_setRegistry_ne s r hk]

theorem context_dropBinding (s : Session σ ρ ς) (c : ContextIndex) (key : ResourceKey) (k : ContextIndex) :
    ((s.dropBinding c key).registry k).context = (s.registry k).context :=
  context_setRegistry s c (r := (s.registry c).erase key) rfl k

theorem context_putBinding (s : Session σ ρ ς) (c : ContextIndex) (key : ResourceKey) (h : HolderId)
    (k : ContextIndex) : ((s.putBinding c key h).registry k).context = (s.registry k).context :=
  context_setRegistry s c (r := (s.registry c).insert key h) rfl k

namespace Party.Sees

theorem withNative (hs : p.Sees n s a) {t u : σ} (hn : p.same t u) : p.Sees n (s.withNative t) (a.withNative u) :=
  ⟨hs.size, hs.context, hs.bound, hs.holders, hs.holder, hs.statuses, hs.status, hs.distinct, hn⟩

theorem dropBinding (hs : p.Sees n s a) (c : ContextIndex) (key : ResourceKey) :
    p.Sees n (s.dropBinding c key) (a.dropBinding c key) where
  size := by rw [dropBinding_size, dropBinding_size]; exact hs.size
  context k := by rw [context_dropBinding, context_dropBinding]; exact hs.context k
  bound c' k hk := by
    rw [bound_dropBinding, bound_dropBinding]
    split
    · exact .none
    · exact hs.bound c' k hk
  holders := hs.holders
  holder := hs.holder
  statuses := hs.statuses
  status := hs.status
  distinct := hs.distinct
  native := hs.native

theorem putBinding (hs : p.Sees n s a) (c : ContextIndex) (key : ResourceKey) {h h' : HolderId} (hh : n.SameHolder h h') :
    p.Sees n (s.putBinding c key h) (a.putBinding c key h') where
  size := by rw [putBinding_size, putBinding_size]; exact hs.size
  context k := by rw [context_putBinding, context_putBinding]; exact hs.context k
  bound c' k hk := by
    by_cases hc : c < s.registries.size
    · rw [bound_putBinding _ _ _ _ _ hc, bound_putBinding _ _ _ _ _ (Nat.lt_of_lt_of_eq hc hs.size.symm)]
      split
      · exact .some hh
      · exact hs.bound c' k hk
    · have hc' : ¬c < a.registries.size := by rw [hs.size]; exact hc
      unfold Session.putBinding
      rw [setRegistry_of_not_lt s _ hc, setRegistry_of_not_lt a _ hc']
      exact hs.bound c' k hk
  holders := hs.holders
  holder := hs.holder
  statuses := hs.statuses
  status := hs.status
  distinct := hs.distinct
  native := hs.native

theorem modifyHolder (hs : p.Sees n s a) {h h' : HolderId} (hh : n.SameHolder h h') (f : Holder ρ → Holder ρ) :
    p.Sees n (s.modifyHolder h f) (a.modifyHolder h' f) where
  size := hs.size
  context := hs.context
  bound := hs.bound
  holders := hs.holders.trans (Array.size_modify).symm
  holder k k' hk := by
    obtain ⟨hlt, hsame⟩ := hs.holder k k' hk
    refine ⟨Nat.lt_of_lt_of_eq hlt (Array.size_modify).symm, ?_⟩
    have hiff : k' = h' ↔ k = h := by
      constructor
      · rintro rfl
        exact Option.some.inj (hk.symm.trans hh)
      · rintro rfl
        exact hs.holder_inj hk hh
    rw [holder?_modifyHolder, holder?_modifyHolder, hsame]
    by_cases heq : k = h
    · rw [if_pos heq, if_pos (hiff.2 heq)]
    · rw [if_neg heq, if_neg fun h => heq (hiff.1 h)]
  statuses := hs.statuses
  status := hs.status
  distinct := hs.distinct
  native := hs.native

theorem modifyStatus (hs : p.Sees n s a) {t t' : StatusId} (ht : n.SameStatus t t') {f f' : Status ς → Status ς}
    (hf : ∀ st st', n.Same st st' → n.Same (f st) (f' st')) :
    p.Sees n (s.modifyStatus t f) (a.modifyStatus t' f') where
  size := hs.size
  context := hs.context
  bound := hs.bound
  holders := hs.holders
  holder := hs.holder
  statuses := hs.statuses.trans (Array.size_modify).symm
  status u u' hu := by
    obtain ⟨st, st', hst, hst', hsame⟩ := hs.status u u' hu
    have hiff : u' = t' ↔ u = t := by
      constructor
      · rintro rfl
        exact Option.some.inj (hu.symm.trans ht)
      · rintro rfl
        exact hs.status_inj hu ht
    rw [status?_modifyStatus, status?_modifyStatus, hst, hst']
    by_cases heq : u = t
    · rw [if_pos heq, if_pos (hiff.2 heq)]
      exact ⟨_, _, rfl, rfl, hf st st' hsame⟩
    · rw [if_neg heq, if_neg fun h => heq (hiff.1 h)]
      exact ⟨st, st', rfl, rfl, hsame⟩
  distinct := hs.distinct
  native := hs.native

theorem addHolder (hs : p.Sees n s a) (x : Holder ρ) :
    p.Sees (n.withHolder s.holders.size) (s.addHolder x).2 (a.addHolder x).2 where
  size := hs.size
  context := hs.context
  bound c k hk := (hs.bound c k hk).mono (n.le_withHolder _)
  holders := by
    rw [addHolder_size, ← hs.holders]
    exact List.length_append
  holder k k' hk := by
    rw [addHolder_size, holder?_addHolder, holder?_addHolder]
    rcases Names.holder_withHolder hk with hold | ⟨rfl, rfl⟩
    · obtain ⟨hlt, hsame⟩ := hs.holder k k' hold
      have hlt' : k' < a.holders.size := by
        rw [← hs.holders]
        exact (List.getElem?_eq_some_iff.1 hold).1
      rw [if_neg (Nat.ne_of_lt hlt), if_neg (Nat.ne_of_lt hlt')]
      exact ⟨Nat.lt_succ_of_lt hlt, hsame⟩
    · rw [if_pos rfl, if_pos hs.holders]
      exact ⟨Nat.lt_succ_self _, rfl⟩
  statuses := hs.statuses
  status t t' ht := by
    obtain ⟨st, st', hst, hst', hsame⟩ := hs.status t t' ht
    exact ⟨st, st', hst, hst', hsame.mono (n.le_withHolder _)⟩
  distinct := by
    refine ⟨List.nodup_append.2 ⟨hs.distinct.1, by simp, fun k hk j hj => ?_⟩, hs.distinct.2⟩
    obtain rfl := List.mem_singleton.1 hj
    exact Nat.ne_of_lt (hs.holder_lt hk)
  native := hs.native

theorem addStatus (hs : p.Sees n s a) {st st' : Status ς} (hst : n.Same st st') :
    p.Sees (n.withStatus s.statuses.size) (s.addStatus st).2 (a.addStatus st').2 where
  size := hs.size
  context := hs.context
  bound c k hk := (hs.bound c k hk).mono (n.le_withStatus _)
  holders := hs.holders
  holder := hs.holder
  statuses := by
    rw [addStatus_size, ← hs.statuses]
    exact List.length_append
  status u u' hu := by
    rw [status?_addStatus, status?_addStatus]
    rcases Names.status_withStatus hu with hold | ⟨rfl, rfl⟩
    · obtain ⟨st₁, st₁', hst₁, hst₁', hsame⟩ := hs.status u u' hold
      rw [if_neg (Nat.ne_of_lt (status?_lt hst₁)), if_neg (Nat.ne_of_lt (status?_lt hst₁'))]
      exact ⟨st₁, st₁', hst₁, hst₁', hsame.mono (n.le_withStatus _)⟩
    · rw [if_pos rfl, if_pos hs.statuses]
      exact ⟨st, st', rfl, rfl, hst.mono (n.le_withStatus _)⟩
  distinct := by
    refine ⟨hs.distinct.1, List.nodup_append.2 ⟨hs.distinct.2, by simp, fun u hu v hv => ?_⟩⟩
    obtain rfl := List.mem_singleton.1 hv
    exact Nat.ne_of_lt (hs.status_lt hu)
  native := hs.native

end Party.Sees

end Changes

/-! ## Sessions that two parties share -/

/-- The session `s` is shared by two parties, whose own sessions are `a` and `b`. -/
structure Split (p p' : Party σ) (n n' : Names) (s a b : Session σ ρ ς) : Prop where
  mine : p.Sees n s a
  theirs : p'.Sees n' s b
  keys : ∀ k, p.keys k → ¬p'.keys k
  holders : ∀ h, h ∈ n.holders → h ∉ n'.holders
  statuses : ∀ t, t ∈ n.statuses → t ∉ n'.statuses

namespace Split

variable {p p' : Party σ} {n n' n₁ : Names} {s a b s₁ a₁ : Session σ ρ ς}

theorem swap (hs : Split p p' n n' s a b) : Split p' p n' n s b a :=
  ⟨hs.theirs, hs.mine, fun k hk hk' => hs.keys k hk' hk, fun h hh hh' => hs.holders h hh' hh,
    fun t ht ht' => hs.statuses t ht' ht⟩

/-- A change that one party sees, and that does not concern the other one. -/
theorem changed (hs : Split p p' n n' s a b) (hmine : p.Sees n s₁ a₁) (hspared : p'.Spared n' s s₁) :
    Split p p' n n' s₁ a₁ b :=
  ⟨hmine, hs.theirs.spared hspared, hs.keys, hs.holders, hs.statuses⟩

variable (hs : Split p p' n n' s a b)
include hs

theorem withNative {t u : σ} (hn : p.same t u) (hspared : ∀ v, p'.same s.native v → p'.same t v) :
    Split p p' n n' (s.withNative t) (a.withNative u) b :=
  hs.changed (hs.mine.withNative hn)
    ⟨rfl, fun _ => rfl, fun _ _ _ => rfl, Nat.le_refl _, fun _ _ => rfl, fun _ _ => rfl, hspared⟩

theorem dropBinding {key : ResourceKey} (hkey : p.keys key) (c : ContextIndex) :
    Split p p' n n' (s.dropBinding c key) (a.dropBinding c key) b := by
  refine hs.changed (hs.mine.dropBinding c key)
    ⟨dropBinding_size s c key, context_dropBinding s c key, fun c' k hk => ?_, Nat.le_refl _, fun _ _ => rfl,
      fun _ _ => rfl, fun _ => id⟩
  have hne : k ≠ key := by
    rintro rfl
    exact hs.keys k hkey hk
  rw [bound_dropBinding, if_neg fun hboth => hne hboth.2]

theorem putBinding {key : ResourceKey} (hkey : p.keys key) (c : ContextIndex) {h h' : HolderId}
    (hh : n.SameHolder h h') : Split p p' n n' (s.putBinding c key h) (a.putBinding c key h') b := by
  refine hs.changed (hs.mine.putBinding c key hh)
    ⟨putBinding_size s c key h, context_putBinding s c key h, fun c' k hk => ?_, Nat.le_refl _, fun _ _ => rfl,
      fun _ _ => rfl, fun _ => id⟩
  have hne : k ≠ key := by
    rintro rfl
    exact hs.keys k hkey hk
  by_cases hc : c < s.registries.size
  · rw [bound_putBinding _ _ _ _ _ hc, if_neg fun hboth => hne hboth.2]
  · unfold Session.putBinding
    rw [setRegistry_of_not_lt s _ hc]

theorem modifyHolder {h h' : HolderId} (hh : n.SameHolder h h') (f : Holder ρ → Holder ρ) :
    Split p p' n n' (s.modifyHolder h f) (a.modifyHolder h' f) b := by
  refine hs.changed (hs.mine.modifyHolder hh f)
    ⟨rfl, fun _ => rfl, fun _ _ _ => rfl, Nat.le_of_eq (Array.size_modify).symm, fun k hk => ?_, fun _ _ => rfl,
      fun _ => id⟩
  have hne : k ≠ h := by
    rintro rfl
    exact hs.holders k hh.mem hk
  rw [holder?_modifyHolder, if_neg hne]

theorem modifyStatus {t t' : StatusId} (ht : n.SameStatus t t') {f f' : Status ς → Status ς}
    (hf : ∀ st st', n.Same st st' → n.Same (f st) (f' st')) :
    Split p p' n n' (s.modifyStatus t f) (a.modifyStatus t' f') b := by
  refine hs.changed (hs.mine.modifyStatus ht hf)
    ⟨rfl, fun _ => rfl, fun _ _ _ => rfl, Nat.le_refl _, fun _ _ => rfl, fun u hu => ?_, fun _ => id⟩
  have hne : u ≠ t := by
    rintro rfl
    exact hs.statuses u ht.mem hu
  rw [status?_modifyStatus, if_neg hne]

theorem addHolder (x : Holder ρ) :
    Split p p' (n.withHolder s.holders.size) n' (s.addHolder x).2 (a.addHolder x).2 b := by
  have hspared : p'.Spared n' s (s.addHolder x).2 := by
    refine ⟨rfl, fun _ => rfl, fun _ _ _ => rfl, ?_, fun k hk => ?_, fun _ _ => rfl, fun _ => id⟩
    · rw [addHolder_size]
      exact Nat.le_succ _
    · rw [holder?_addHolder, if_neg (Nat.ne_of_lt (hs.theirs.holder_lt hk))]
  refine ⟨hs.mine.addHolder x, hs.theirs.spared hspared, hs.keys, fun h hh hh' => ?_, hs.statuses⟩
  rcases List.mem_append.1 hh with hold | hnew
  · exact hs.holders h hold hh'
  · obtain rfl := List.mem_singleton.1 hnew
    exact Nat.lt_irrefl _ (hs.theirs.holder_lt hh')

theorem addStatus {st st' : Status ς} (hst : n.Same st st') :
    Split p p' (n.withStatus s.statuses.size) n' (s.addStatus st).2 (a.addStatus st').2 b := by
  have hspared : p'.Spared n' s (s.addStatus st).2 := by
    refine ⟨rfl, fun _ => rfl, fun _ _ _ => rfl, Nat.le_refl _, fun _ _ => rfl, fun u hu => ?_, fun _ => id⟩
    rw [status?_addStatus, if_neg (Nat.ne_of_lt (hs.theirs.status_lt hu))]
  refine ⟨hs.mine.addStatus hst, hs.theirs.spared hspared, hs.keys, hs.holders, fun t ht ht' => ?_⟩
  rcases List.mem_append.1 ht with hold | hnew
  · exact hs.statuses t hold ht'
  · obtain rfl := List.mem_singleton.1 hnew
    exact Nat.lt_irrefl _ (hs.theirs.status_lt ht')

end Split

/-! ## Operations of one party -/

/-- A native operation is one party's: it depends on the party's part of the native state, and leaves that of the
other party as it is. -/
structure Party.Local (p p' : Party σ) (op : σ → α × σ) : Prop where
  answer : ∀ t u, p.same t u → (op u).1 = (op t).1
  same : ∀ t u, p.same t u → p.same (op t).2 (op u).2
  spares : ∀ t v, p'.same t v → p'.same (op t).2 v

/-- An operation of one party does the same in the shared session as in the party's own, and nothing that concerns
the other party. What is answered is related by `Q`, under the names that there are then. -/
def Tracks (p p' : Party σ) (n : Names) (x : Step σ ρ ς α) (y : Step σ ρ ς α') (Q : Names → α → α' → Prop) : Prop :=
  ∀ n₁ n' s a b, n.Le n₁ → Split p p' n₁ n' s a b → a.now = s.now →
    ∃ n₂, n₁.Le n₂ ∧ Split p p' n₂ n' (x s).2 (y a).2 b ∧ (y a).2.now = (x s).2.now ∧ Q n₂ (x s).1 (y a).1

/-- The same answer. -/
def Names.Equal : Names → α → α → Prop := fun _ r r' => r = r'

/-- Both operations fail, with the same error, or both succeed. -/
inductive Names.Answer (Q : Names → α → α' → Prop) (n : Names) : Except ε α → Except ε α' → Prop
  | ok {r : α} {r' : α'} : Q n r r' → Answer Q n (.ok r) (.ok r')
  | error (e : ε) : Answer Q n (.error e) (.error e)

namespace Tracks

variable {p p' : Party σ} {n n₁ : Names} {Q : Names → α → α' → Prop} {Q' : Names → β → β' → Prop}

theorem mono {x : Step σ ρ ς α} {y : Step σ ρ ς α'} (hx : Tracks p p' n x y Q) (hle : n.Le n₁) :
    Tracks p p' n₁ x y Q := fun n₂ n' s a b hle' => hx n₂ n' s a b (hle.trans hle')

theorem imp {x : Step σ ρ ς α} {y : Step σ ρ ς α'} {Q₁ : Names → α → α' → Prop} (hx : Tracks p p' n x y Q)
    (hq : ∀ n₁ r r', Q n₁ r r' → Q₁ n₁ r r') : Tracks p p' n x y Q₁ := by
  intro n₁ n' s a b hle hs hnow
  obtain ⟨n₂, hle₂, hs₂, hnow₂, hr⟩ := hx n₁ n' s a b hle hs hnow
  exact ⟨n₂, hle₂, hs₂, hnow₂, hq _ _ _ hr⟩

theorem pure {r : α} {r' : α'} (hq : ∀ n₁, n.Le n₁ → Q n₁ r r') :
    Tracks p p' n (Pure.pure r : Step σ ρ ς α) (Pure.pure r') Q :=
  fun n₁ _ _ _ _ hle hs hnow => ⟨n₁, .refl n₁, hs, hnow, hq n₁ hle⟩

theorem step_bind {x : Step σ ρ ς α} {y : Step σ ρ ς α'} {k : α → Step σ ρ ς β} {k' : α' → Step σ ρ ς β'}
    (hx : Tracks p p' n x y Q) (hk : ∀ n₁ r r', n.Le n₁ → Q n₁ r r' → Tracks p p' n₁ (k r) (k' r') Q') :
    Tracks p p' n (x >>= k) (y >>= k') Q' := by
  intro n₁ n' s a b hle hs hnow
  obtain ⟨n₂, hle₂, hs₂, hnow₂, hr⟩ := hx n₁ n' s a b hle hs hnow
  obtain ⟨n₃, hle₃, hs₃, hnow₃, hr'⟩ :=
    hk n₂ _ _ (hle.trans hle₂) hr n₂ n' _ _ b (.refl n₂) hs₂ hnow₂
  exact ⟨n₃, hle₂.trans hle₃, hs₃, hnow₃, hr'⟩

theorem ok {r : α} {r' : α'} (hq : ∀ n₁, n.Le n₁ → Q n₁ r r') :
    Tracks p p' n (Pure.pure r : Attempt σ ρ ς ε α) (Pure.pure r' : Attempt σ ρ ς ε α') (Names.Answer Q) :=
  fun n₁ _ _ _ _ hle hs hnow => ⟨n₁, .refl n₁, hs, hnow, .ok (hq n₁ hle)⟩

theorem throw (e : ε) : Tracks p p' n (MonadExcept.throw e : Attempt σ ρ ς ε α)
    (MonadExcept.throw e : Attempt σ ρ ς ε α') (Names.Answer Q) :=
  fun n₁ _ _ _ _ _ hs hnow => ⟨n₁, .refl n₁, hs, hnow, .error e⟩

theorem bind {x : Attempt σ ρ ς ε α} {y : Attempt σ ρ ς ε α'} {k : α → Attempt σ ρ ς ε β}
    {k' : α' → Attempt σ ρ ς ε β'} (hx : Tracks p p' n x y (Names.Answer Q))
    (hk : ∀ n₁ r r', n.Le n₁ → Q n₁ r r' → Tracks p p' n₁ (k r) (k' r') (Names.Answer Q')) :
    Tracks p p' n (x >>= k : Attempt σ ρ ς ε β) (y >>= k' : Attempt σ ρ ς ε β') (Names.Answer Q') := by
  intro n₁ n' s a b hle hs hnow
  obtain ⟨n₂, hle₂, hs₂, hnow₂, hr⟩ := hx n₁ n' s a b hle hs hnow
  rw [attempt_bind, attempt_bind]
  rcases hxs : x s with ⟨r, s₂⟩
  rcases hya : y a with ⟨r', a₂⟩
  rw [hxs, hya] at hs₂ hnow₂ hr
  dsimp only at hs₂ hnow₂ hr
  cases hr with
  | error e => exact ⟨n₂, hle₂, hs₂, hnow₂, .error e⟩
  | @ok r r' hr =>
    obtain ⟨n₃, hle₃, hs₃, hnow₃, hr'⟩ := hk n₂ r r' (hle.trans hle₂) hr n₂ n' s₂ a₂ b (.refl n₂) hs₂ hnow₂
    exact ⟨n₃, hle₂.trans hle₃, hs₃, hnow₃, hr'⟩

theorem adapt {x : Attempt σ ρ ς ε α} {y : Attempt σ ρ ς ε α'} (hx : Tracks p p' n x y (Names.Answer Q))
    (f : ε → δ) : Tracks p p' n (x.adapt f) (y.adapt f) (Names.Answer Q) := by
  intro n₁ n' s a b hle hs hnow
  obtain ⟨n₂, hle₂, hs₂, hnow₂, hr⟩ := hx n₁ n' s a b hle hs hnow
  refine ⟨n₂, hle₂, hs₂, hnow₂, ?_⟩
  show Names.Answer Q n₂ ((x s).1.mapError f) ((y a).1.mapError f)
  generalize (x s).1 = r, (y a).1 = r' at hr
  cases hr with
  | ok hr => exact .ok hr
  | error e => exact .error (f e)

theorem observe {x : Attempt σ ρ ς ε α} {y : Attempt σ ρ ς ε α'} (hx : Tracks p p' n x y (Names.Answer Q)) :
    Tracks p p' n (Session.observe x : Attempt σ ρ ς δ _) (Session.observe y : Attempt σ ρ ς δ _)
      (Names.Answer (Names.Answer Q)) := by
  intro n₁ n' s a b hle hs hnow
  obtain ⟨n₂, hle₂, hs₂, hnow₂, hr⟩ := hx n₁ n' s a b hle hs hnow
  exact ⟨n₂, hle₂, hs₂, hnow₂, .ok hr⟩

/-- What is done next may depend on the session as far as the party sees it. -/
theorem reading {k k' : Session σ ρ ς → Attempt σ ρ ς ε α} {Q : Names → α → α → Prop}
    (hk : ∀ n₁ n' s a b, n.Le n₁ → Split p p' n₁ n' s a b → Tracks p p' n₁ (k s) (k' a) (Names.Answer Q)) :
    Tracks p p' n (get >>= k : Attempt σ ρ ς ε α) (get >>= k' : Attempt σ ρ ς ε α) (Names.Answer Q) := by
  intro n₁ n' s a b hle hs hnow
  rw [attempt_bind, attempt_bind, attempt_get, attempt_get]
  exact hk n₁ n' s a b hle hs n₁ n' s a b (.refl n₁) hs hnow

section Changes

variable {f f' : Session σ ρ ς → Session σ ρ ς}
  (hf : ∀ n₁ n' s a b, n.Le n₁ → Split p p' n₁ n' s a b → Split p p' n₁ n' (f s) (f' a) b)
  (hnow : ∀ s a, a.now = s.now → (f' a).now = (f s).now)
include hf hnow

theorem step_modified : Tracks p p' n (modify f : Step σ ρ ς PUnit) (modify f') Names.Equal :=
  fun n₁ n' s a b hle hs hclock => ⟨n₁, .refl n₁, hf n₁ n' s a b hle hs, hnow s a hclock, rfl⟩

theorem modified : Tracks p p' n (modify f : Attempt σ ρ ς ε PUnit) (modify f' : Attempt σ ρ ς ε PUnit)
    (Names.Answer Names.Equal) :=
  fun n₁ n' s a b hle hs hclock => ⟨n₁, .refl n₁, hf n₁ n' s a b hle hs, hnow s a hclock, .ok rfl⟩

end Changes

section Parts

variable {h h' : HolderId} {t t' : StatusId}

theorem step_modifyHolder (hh : n.SameHolder h h') (f : Holder ρ → Holder ρ) :
    Tracks p p' n (modify fun s => s.modifyHolder h f : Step σ ρ ς PUnit) (modify fun s => s.modifyHolder h' f)
      Names.Equal :=
  step_modified (fun _ _ _ _ _ hle hs => hs.modifyHolder (hle.holder hh) f) fun _ _ hnow => hnow

theorem modifyHolder (hh : n.SameHolder h h') (f : Holder ρ → Holder ρ) :
    Tracks p p' n (modify fun s => s.modifyHolder h f : Attempt σ ρ ς ε PUnit)
      (modify fun s => s.modifyHolder h' f : Attempt σ ρ ς ε PUnit) (Names.Answer Names.Equal) :=
  modified (fun _ _ _ _ _ hle hs => hs.modifyHolder (hle.holder hh) f) fun _ _ hnow => hnow

theorem step_modifyStatus (ht : n.SameStatus t t') {f f' : Status ς → Status ς}
    (hf : ∀ (n₁ : Names) st st', n₁.Same st st' → n₁.Same (f st) (f' st')) :
    Tracks p p' n (modify fun s => s.modifyStatus t f : Step σ ρ ς PUnit) (modify fun s => s.modifyStatus t' f')
      Names.Equal :=
  step_modified (fun n₁ _ _ _ _ hle hs => hs.modifyStatus (hle.status ht) (hf n₁)) fun _ _ hnow => hnow

theorem modifyStatus (ht : n.SameStatus t t') {f f' : Status ς → Status ς}
    (hf : ∀ (n₁ : Names) st st', n₁.Same st st' → n₁.Same (f st) (f' st')) :
    Tracks p p' n (modify fun s => s.modifyStatus t f : Attempt σ ρ ς ε PUnit)
      (modify fun s => s.modifyStatus t' f' : Attempt σ ρ ς ε PUnit) (Names.Answer Names.Equal) :=
  modified (fun n₁ _ _ _ _ hle hs => hs.modifyStatus (hle.status ht) (hf n₁)) fun _ _ hnow => hnow

/-- A new holder is the party's own. -/
theorem addHolder (x : Session σ ρ ς → Holder ρ) (hx : ∀ s a : Session σ ρ ς, a.now = s.now → x a = x s) :
    Tracks p p' n (modifyGet fun s => s.addHolder (x s) : Attempt σ ρ ς ε HolderId)
      (modifyGet fun s => s.addHolder (x s) : Attempt σ ρ ς ε HolderId) (Names.Answer Names.SameHolder) := by
  intro n₁ n' s a b _ hs hnow
  rw [attempt_modifyGet, attempt_modifyGet, hx s a hnow]
  refine ⟨n₁.withHolder s.holders.size, n₁.le_withHolder _, hs.addHolder (x s), hnow, .ok ?_⟩
  show (n₁.withHolder s.holders.size).SameHolder s.holders.size a.holders.size
  rw [← hs.mine.holders]
  exact n₁.holder_new _

/-- A new status is the party's own. -/
theorem addStatus {st st' : Status ς} (hst : n.Same st st') :
    Tracks p p' n (fun s => (.ok (s.addStatus st).1, (s.addStatus st).2) : Attempt σ ρ ς ε StatusId)
      (fun s => (.ok (s.addStatus st').1, (s.addStatus st').2) : Attempt σ ρ ς ε StatusId)
      (Names.Answer Names.SameStatus) := by
  intro n₁ n' s a b hle hs hnow
  refine ⟨n₁.withStatus s.statuses.size, n₁.le_withStatus _, hs.addStatus (hst.mono hle), hnow, .ok ?_⟩
  show (n₁.withStatus s.statuses.size).SameStatus s.statuses.size a.statuses.size
  rw [← hs.mine.statuses]
  exact n₁.status_new _

end Parts

theorem call {op : Native σ α} (hop : p.Local p' op) :
    Tracks p p' n (Session.call op : Attempt σ ρ ς Failure α) (Session.call op) (Names.Answer Names.Equal) := by
  intro n₁ n' s a b _ hs hnow
  rw [call_apply, call_apply]
  refine ⟨n₁, .refl n₁, hs.withNative (hop.same _ _ hs.mine.native) (hop.spares _), hnow, ?_⟩
  rw [hop.answer _ _ hs.mine.native]
  cases (op s.native).1 with
  | ok r => exact .ok rfl
  | error e => exact .error e

section Bindings

variable {c : ContextIndex} {kind : HolderKind} {key : ResourceKey} (hkey : p.keys key)
include hkey

theorem find : Tracks p p' n (Session.find c kind key : Attempt σ ρ ς _ _) (Session.find c kind key)
    (Names.Answer Names.SameHolder?) := by
  intro n₁ n' s a b _ hs hnow
  have hbound := hs.mine.bound c key hkey
  have hmismatch : (a.registry c).mismatch key kind = (s.registry c).mismatch key kind :=
    congrArg (RegistryError.holderTypeMismatch key · _) (hs.mine.context c)
  unfold Session.find
  generalize hb : s.bound c key = o, hb' : a.bound c key = o' at hbound
  cases hbound with
  | none =>
    rw [Registry.get_unbound _ _ hb, Registry.get_unbound _ _ hb']
    simp only [setRegistry_registry]
    exact ⟨n₁, .refl n₁, hs, hnow, .ok .none⟩
  | @some h h' hh =>
    obtain ⟨hvoid, hkind⟩ := hs.mine.view hh
    cases hv : s.view.isVoid h with
    | true =>
      rw [Registry.get_void _ _ hb hv, Registry.get_void _ _ hb' (hvoid.trans hv)]
      exact ⟨n₁, .refl n₁, hs.dropBinding hkey c, hnow, .ok .none⟩
    | false =>
      rw [Registry.get_live _ _ hb hv, Registry.get_live _ _ hb' (hvoid.trans hv), hkind, hmismatch]
      simp only [setRegistry_registry]
      refine ⟨n₁, .refl n₁, hs, hnow, ?_⟩
      split
      · exact .ok (.some hh)
      · exact .error _

theorem unbind : Tracks p p' n (Session.unbind c kind key : Attempt σ ρ ς _ _) (Session.unbind c kind key)
    (Names.Answer Names.SameHolder) := by
  intro n₁ n' s a b _ hs hnow
  have hcontext := hs.mine.context c
  have hbound := hs.mine.bound c key hkey
  unfold Session.unbind Registry.unbind Registry.unbindIfPossible
  rw [show (s.registry c).binding? key = s.bound c key from rfl,
    show (a.registry c).binding? key = a.bound c key from rfl]
  generalize hb : s.bound c key = o, hb' : a.bound c key = o' at hbound
  cases hbound with
  | none =>
    simp only [setRegistry_registry, hcontext]
    exact ⟨n₁, .refl n₁, hs, hnow, .error _⟩
  | @some h h' hh =>
    obtain ⟨hvoid, hkind⟩ := hs.mine.view hh
    dsimp only
    rw [hvoid, hkind]
    by_cases hk : s.view.kind h = kind
    · rw [if_pos hk, if_pos hk]
      cases s.view.isVoid h with
      | true =>
        have herror : (RegistryError.notBound key ((a.registry c).erase key).context) =
            .notBound key ((s.registry c).erase key).context := congrArg (RegistryError.notBound key) hcontext
        refine ⟨n₁, .refl n₁, hs.dropBinding hkey c, hnow, ?_⟩
        simp only [if_true]
        rw [herror]
        exact .error _
      | false => exact ⟨n₁, .refl n₁, hs.dropBinding hkey c, hnow, .ok hh⟩
    · rw [if_neg hk, if_neg hk]
      have hmismatch : (a.registry c).mismatch key kind = (s.registry c).mismatch key kind :=
        congrArg (RegistryError.holderTypeMismatch key · _) hcontext
      simp only [setRegistry_registry, hmismatch]
      exact ⟨n₁, .refl n₁, hs, hnow, .error _⟩

theorem bound {h h' : HolderId} (hh : n.SameHolder h h') :
    Tracks p p' n (Session.bind c key h : Attempt σ ρ ς _ _) (Session.bind c key h') (Names.Answer Names.Equal) := by
  intro n₁ n' s a b hle hs hnow
  have hhas : (a.registry c).has a.view key = (s.registry c).has s.view key := by
    have hbound := hs.mine.bound c key hkey
    unfold Registry.has
    rw [show (s.registry c).binding? key = s.bound c key from rfl,
      show (a.registry c).binding? key = a.bound c key from rfl]
    generalize s.bound c key = o, a.bound c key = o' at hbound
    cases hbound with
    | none => rfl
    | some hk => exact congrArg (! ·) (hs.mine.view hk).1
  unfold Session.bind
  cases hf : (s.registry c).has s.view key with
  | true =>
    rw [Registry.bind_of_has _ _ hf, Registry.bind_of_has _ _ (hhas.trans hf), hs.mine.context c]
    exact ⟨n₁, .refl n₁, hs, hnow, .error _⟩
  | false =>
    rw [Registry.bind_of_not_has _ _ hf, Registry.bind_of_not_has _ _ (hhas.trans hf)]
    exact ⟨n₁, .refl n₁, hs.putBinding hkey c (hle.holder hh), hnow, .ok rfl⟩

end Bindings

end Tracks

end Demarcation
