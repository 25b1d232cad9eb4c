/-
Where the holders of transactions are, in any order of calls: a holder is bound in at most one context,
or suspended by at most one scope, and never both, and while it is bound it is attached.
-/
import Demarcation.Proofs.Client

namespace Demarcation

open Session Manager

variable {σ ρ ς α : Type}

/-- A scope has suspended a holder's transaction and not resumed it yet. -/
def Session.Suspends (s : Session σ ρ ς) (t : StatusId) (h : HolderId) : Prop :=
  ∃ st, s.status? t = some st ∧ st.suspended = some h

/-- A holder is bound nowhere, and no scope has it suspended. -/
structure Session.Loose (s : Session σ ρ ς) (key : ResourceKey) (h : HolderId) : Prop where
  unbound : ∀ c, s.bound c key ≠ some h
  unsuspended : ∀ t, ¬ s.Suspends t h

/-- Every holder is in one place, and what is bound is attached. -/
structure Placed (key : ResourceKey) (s : Session σ ρ ς) : Prop where
  once : ∀ c c' h, s.bound c key = some h → s.bound c' key = some h → c = c'
  single : ∀ t t' h, s.Suspends t h → s.Suspends t' h → t = t'
  apart : ∀ c t h, s.bound c key = some h → ¬ s.Suspends t h
  bound_lt : ∀ c h, s.bound c key = some h → h < s.holders.size
  suspended_lt : ∀ t h, s.Suspends t h → h < s.holders.size
  attached : ∀ c h x, s.bound c key = some h → s.holder? h = some x → x.suspended = false

/-! ## Changes that bind and suspend nothing -/

/-- Nothing was bound under a key, and nothing was suspended. -/
structure Session.Eased (key : ResourceKey) (s s' : Session σ ρ ς) : Prop where
  bound : ∀ c h, s'.bound c key = some h → s.bound c key = some h
  suspends : ∀ t h, s'.Suspends t h → s.Suspends t h
  holders : s'.holders.size = s.holders.size
  attached : ∀ h x', s'.holder? h = some x' → ∃ x, s.holder? h = some x ∧ (x.suspended = false → x'.suspended = false)

namespace Session.Eased

variable {key : ResourceKey} {s s' s'' : Session σ ρ ς}

theorem refl (s : Session σ ρ ς) : Eased key s s :=
  ⟨fun _ _ => id, fun _ _ => id, rfl, fun _ x hx => ⟨x, hx, id⟩⟩

theorem trans (h : Eased key s s') (h' : Eased key s' s'') : Eased key s s'' := by
  refine ⟨fun c k hb => h.bound c k (h'.bound c k hb), fun t k hs => h.suspends t k (h'.suspends t k hs),
    h'.holders.trans h.holders, fun k x'' hx'' => ?_⟩
  obtain ⟨x', hx', hoff'⟩ := h'.attached k x'' hx''
  obtain ⟨x, hx, hoff⟩ := h.attached k x' hx'
  exact ⟨x, hx, hoff' ∘ hoff⟩

theorem of_quiet (hq : Quiet s s') : Eased key s s' := by
  refine ⟨fun c h hb => (hq.bound c key).symm.trans hb, ?_, holders_size_of_alike hq.holders, ?_⟩
  · rintro t h ⟨st', hst', hs⟩
    have heq := hq.statuses t
    rw [hst'] at heq
    obtain ⟨st, hst, hsame⟩ := Option.map_eq_some_iff.1 heq.symm
    obtain ⟨on, rfl⟩ := Status.eq_of_unmarked hsame.symm
    exact ⟨st, hst, hs⟩
  · intro h x' hx'
    have heq := hq.holders h
    rw [hx'] at heq
    obtain ⟨x, hx, hsame⟩ := Option.map_eq_some_iff.1 heq.symm
    refine ⟨x, hx, fun hoff => ?_⟩
    show x'.resetRollbackOnly.suspended = false
    rw [← hsame]; exact hoff

theorem dropBinding (s : Session σ ρ ς) (c : ContextIndex) : Eased key s (s.dropBinding c key) := by
  refine ⟨fun c' h hb => ?_, fun _ _ => id, rfl, fun _ x hx => ⟨x, hx, id⟩⟩
  rw [bound_dropBinding] at hb
  split at hb
  · cases hb
  · exact hb

theorem purge (s : Session σ ρ ς) (c : ContextIndex) : Eased key s (s.purge c key) := by
  unfold Session.purge
  split
  · exact refl s
  · split
    · exact dropBinding s c
    · exact refl s

theorem modifyHolder (s : Session σ ρ ς) (h : HolderId) {f : Holder ρ → Holder ρ}
    (hf : ∀ x, x.suspended = false → (f x).suspended = false) : Eased key s (s.modifyHolder h f) := by
  refine ⟨fun _ _ => id, fun _ _ => id, Array.size_modify, fun k x' hx' => ?_⟩
  rw [holder?_modifyHolder] at hx'
  split at hx'
  · obtain ⟨x, hx, rfl⟩ := Option.map_eq_some_iff.1 hx'
    exact ⟨x, hx, hf x⟩
  · exact ⟨x', hx', id⟩

theorem modifyStatus (s : Session σ ρ ς) (t : StatusId) {f : Status ς → Status ς}
    (hf : ∀ st h, (f st).suspended = some h → st.suspended = some h) : Eased key s (s.modifyStatus t f) := by
  refine ⟨fun _ _ => id, ?_, rfl, fun _ x hx => ⟨x, hx, id⟩⟩
  rintro u h ⟨st', hst', hs⟩
  rw [status?_modifyStatus] at hst'
  split at hst'
  · obtain ⟨st, hst, rfl⟩ := Option.map_eq_some_iff.1 hst'
    exact ⟨st, hst, hf st h hs⟩
  · exact ⟨st', hst', hs⟩

end Session.Eased

theorem Session.Loose.eased {key : ResourceKey} {s s' : Session σ ρ ς} {h : HolderId} (hl : s.Loose key h)
    (he : Eased key s s') : s'.Loose key h :=
  ⟨fun c hb => hl.unbound c (he.bound c h hb), fun t hs => hl.unsuspended t (he.suspends t h hs)⟩

theorem Placed.eased {key : ResourceKey} {s s' : Session σ ρ ς} (hp : Placed key s) (he : Eased key s s') :
    Placed key s' := by
  constructor
  · intro c c' h hb hb'
    exact hp.once c c' h (he.bound c h hb) (he.bound c' h hb')
  · intro t t' h hs hs'
    exact hp.single t t' h (he.suspends t h hs) (he.suspends t' h hs')
  · intro c t h hb hs
    exact hp.apart c t h (he.bound c h hb) (he.suspends t h hs)
  · intro c h hb
    rw [he.holders]
    exact hp.bound_lt c h (he.bound c h hb)
  · intro t h hs
    rw [he.holders]
    exact hp.suspended_lt t h (he.suspends t h hs)
  · intro c h x' hb hx'
    obtain ⟨x, hx, hoff⟩ := he.attached h x' hx'
    exact hoff (hp.attached c h x (he.bound c h hb) hx)

/-! ## Moving a holder -/

section Moving

variable {key : ResourceKey} {s : Session σ ρ ς} {c : ContextIndex} {h : HolderId}

theorem bound_putBinding_cases {c' : ContextIndex} {k : HolderId} (hb : (s.putBinding c key h).bound c' key = some k) :
    (c' = c ∧ k = h) ∨ (c' ≠ c ∧ s.bound c' key = some k) := by
  by_cases hc : c < s.registries.size
  · rw [bound_putBinding s c c' key key hc] at hb
    split at hb
    · rename_i heq
      exact .inl ⟨heq.1, (Option.some.inj hb).symm⟩
    · rename_i hne
      exact .inr ⟨fun heq => hne ⟨heq, rfl⟩, hb⟩
  · -- there is no such context, so that nothing was bound
    rw [show s.putBinding c key h = s from setRegistry_of_not_lt s _ hc] at hb
    refine .inr ⟨?_, hb⟩
    rintro rfl
    unfold Session.bound at hb
    rw [registry_eq_default s hc] at hb
    cases hb

/-- A holder that is detached is loose. -/
theorem Placed.detach (hp : Placed key s) (hb : s.bound c key = some h) :
    Placed key (s.detach c key h) ∧ (s.detach c key h).Loose key h := by
  have hbound : ∀ c' k, (s.detach c key h).bound c' key = some k → s.bound c' key = some k ∧ c' ≠ c := by
    intro c' k hk
    rw [bound_detach] at hk
    split at hk
    · cases hk
    · rename_i hne
      exact ⟨hk, fun heq => hne ⟨heq, rfl⟩⟩
  have hsize : (s.detach c key h).holders.size = s.holders.size := Array.size_modify
  have hloose : (s.detach c key h).Loose key h := by
    refine ⟨fun c' hb' => ?_, fun t => hp.apart c t h hb⟩
    obtain ⟨hold, hne⟩ := hbound c' h hb'
    exact hne (hp.once c' c h hold hb)
  refine ⟨⟨?_, hp.single, ?_, ?_, ?_, ?_⟩, hloose⟩
  · intro c₁ c₂ k h₁ h₂
    exact hp.once c₁ c₂ k (hbound c₁ k h₁).1 (hbound c₂ k h₂).1
  · intro c' t k hk
    exact hp.apart c' t k (hbound c' k hk).1
  · intro c' k hk
    rw [hsize]
    exact hp.bound_lt c' k (hbound c' k hk).1
  · intro t k hs
    rw [hsize]
    exact hp.suspended_lt t k hs
  · intro c' k x hk hx
    have hne : k ≠ h := by
      rintro rfl
      exact hloose.unbound c' hk
    rw [Session.detach, holder?_modifyHolder, if_neg hne] at hx
    exact hp.attached c' k x (hbound c' k hk).1 hx

/-- A loose holder can be bound. -/
theorem Placed.put (hp : Placed key s) (hl : s.Loose key h) (hlt : h < s.holders.size)
    (hoff : ∀ x, s.holder? h = some x → x.suspended = false) (c : ContextIndex) :
    Placed key (s.putBinding c key h) := by
  constructor
  · intro c₁ c₂ k h₁ h₂
    rcases bound_putBinding_cases h₁ with ⟨rfl, rfl⟩ | ⟨-, hold₁⟩
    · rcases bound_putBinding_cases h₂ with ⟨rfl, -⟩ | ⟨-, hold₂⟩
      · rfl
      · exact absurd hold₂ (hl.unbound c₂)
    · rcases bound_putBinding_cases h₂ with ⟨rfl, rfl⟩ | ⟨-, hold₂⟩
      · exact absurd hold₁ (hl.unbound c₁)
      · exact hp.once c₁ c₂ k hold₁ hold₂
  · exact hp.single
  · intro c' t k hk
    rcases bound_putBinding_cases hk with ⟨rfl, rfl⟩ | ⟨-, hk⟩
    · exact hl.unsuspended t
    · exact hp.apart c' t k hk
  · intro c' k hk
    rcases bound_putBinding_cases hk with ⟨rfl, rfl⟩ | ⟨-, hk⟩
    · exact hlt
    · exact hp.bound_lt c' k hk
  · exact hp.suspended_lt
  · intro c' k x hk hx
    rcases bound_putBinding_cases hk with ⟨rfl, rfl⟩ | ⟨-, hk⟩
    · exact hoff x hx
    · exact hp.attached c' k x hk hx

theorem Placed.attach (hp : Placed key s) (hl : s.Loose key h) (hlt : h < s.holders.size) (c : ContextIndex) :
    Placed key (s.attach c key h) := by
  -- the flag may as well be taken off before the holder is bound
  have heased : Eased key s (s.modifyHolder h (·.setSuspended false)) := .modifyHolder s h fun _ _ => rfl
  refine (hp.eased heased).put (hl.eased heased) (heased.holders ▸ hlt) (fun x hx => ?_) c
  rw [holder?_modifyHolder, if_pos rfl] at hx
  obtain ⟨y, _, rfl⟩ := Option.map_eq_some_iff.1 hx
  rfl

/-- A scope may be opened over a loose holder. -/
theorem Placed.addStatus (hp : Placed key s) {st : Status ς}
    (hs : ∀ h, st.suspended = some h → s.Loose key h ∧ h < s.holders.size) : Placed key (s.addStatus st).2 := by
  have hsuspends : ∀ t k, (s.addStatus st).2.Suspends t k →
      (t = s.statuses.size ∧ st.suspended = some k) ∨ (t ≠ s.statuses.size ∧ s.Suspends t k) := by
    rintro t k ⟨st', hst', hk⟩
    rw [status?_addStatus] at hst'
    split at hst'
    · rename_i ht
      obtain rfl := Option.some.inj hst'
      exact .inl ⟨ht, hk⟩
    · rename_i ht
      exact .inr ⟨ht, st', hst', hk⟩
  constructor
  · exact hp.once
  · intro t t' k ht ht'
    rcases hsuspends t k ht with ⟨rfl, hk⟩ | ⟨-, hold⟩
    · rcases hsuspends t' k ht' with ⟨rfl, -⟩ | ⟨-, hold'⟩
      · rfl
      · exact absurd hold' ((hs k hk).1.unsuspended t')
    · rcases hsuspends t' k ht' with ⟨rfl, hk⟩ | ⟨-, hold'⟩
      · exact absurd hold ((hs k hk).1.unsuspended t)
      · exact hp.single t t' k hold hold'
  · intro c t k hb ht
    rcases hsuspends t k ht with ⟨-, hk⟩ | ⟨-, hold⟩
    · exact (hs k hk).1.unbound c hb
    · exact hp.apart c t k hb hold
  · exact hp.bound_lt
  · intro t k ht
    rcases hsuspends t k ht with ⟨-, hk⟩ | ⟨-, hold⟩
    · exact (hs k hk).2
    · exact hp.suspended_lt t k hold
  · exact hp.attached

/-- A holder that is taken out of the scope that suspended it is loose. -/
theorem Placed.takeSuspended (hp : Placed key s) {t : StatusId} (hs : s.Suspends t h) :
    Placed key (s.takeSuspended t) ∧ (s.takeSuspended t).Loose key h := by
  have heased : Eased key s (s.takeSuspended t) := .modifyStatus s t fun _ _ => nofun
  refine ⟨hp.eased heased, fun c hb => hp.apart c t h hb hs, ?_⟩
  rintro u ⟨st', hst', hk⟩
  have hu : u ≠ t := by
    rintro rfl
    rw [Session.takeSuspended, status?_modifyStatus, if_pos rfl] at hst'
    obtain ⟨st, -, rfl⟩ := Option.map_eq_some_iff.1 hst'
    cases hk
  exact hu (hp.single u t h (heased.suspends u h ⟨st', hst', hk⟩) hs)

theorem Session.Loose.started (hl : s.Loose key h) (hlt : h < s.holders.size) (c : ContextIndex) (x : Holder ρ)
    (n : σ) : (s.started c key x n).Loose key h := by
  refine ⟨fun c' hb => ?_, hl.unsuspended⟩
  rcases bound_putBinding_cases hb with ⟨-, heq⟩ | ⟨-, hb⟩
  · rw [heq] at hlt
    exact Nat.lt_irrefl _ hlt
  · exact hl.unbound c' hb

theorem Placed.started (hp : Placed key s) (c : ContextIndex) {x : Holder ρ} (hoff : x.suspended = false) (n : σ) :
    Placed key (s.started c key x n) := by
  -- the new holder is nowhere before it is bound
  have hadded : Placed key ((s.withNative n).addHolder x).2 := by
    have hsize := addHolder_size (s.withNative n) x
    refine ⟨hp.once, hp.single, hp.apart, fun c h hb => ?_, fun t h hs => ?_, fun c h y hb hy => ?_⟩
    · rw [hsize]
      exact Nat.lt_succ_of_lt (hp.bound_lt c h hb)
    · rw [hsize]
      exact Nat.lt_succ_of_lt (hp.suspended_lt t h hs)
    · have hne : h ≠ (s.withNative n).holders.size := Nat.ne_of_lt (hp.bound_lt c h hb)
      rw [holder?_addHolder, if_neg hne] at hy
      exact hp.attached c h y hb hy
  refine hadded.put ⟨fun c' hb => ?_, fun t hs => ?_⟩ ?_ (fun y hy => ?_) c
  · exact Nat.lt_irrefl _ (hp.bound_lt c' _ hb)
  · exact Nat.lt_irrefl _ (hp.suspended_lt t _ hs)
  · rw [addHolder_size]
    exact Nat.lt_succ_self _
  · have hnew : s.holders.size = (s.withNative n).holders.size := rfl
    rw [holder?_addHolder, if_pos hnew] at hy
    exact Option.some.inj hy ▸ hoff

end Moving

/-! ## What a call preserves -/

section Calls

variable {m : Manager σ ρ ς} {c : ContextIndex} {d : Definition} {s s' : Session σ ρ ς} {h : HolderId}

/-- A transaction begins, with its scope. -/
theorem Placed.begun (hp : Placed m.backend.key s) (hb : Beginning m c d s (.ok h) s') {st : Status ς}
    (hs : ∀ k, st.suspended = some k → s.Loose m.backend.key k ∧ k < s.holders.size) :
    Placed m.backend.key (s'.addStatus st).2 := by
  cases hb with
  | @begun timeout r n =>
    obtain ⟨-, -, -, hoff, -⟩ := newHolder_fresh m d r timeout s.now
    refine (hp.started c hoff n).addStatus fun k hk => ?_
    obtain ⟨hl, hlt⟩ := hs k hk
    refine ⟨hl.started hlt c _ n, ?_⟩
    rw [started_size]
    exact Nat.lt_succ_of_lt hlt

theorem Placed.opening (hp : Placed m.backend.key s) {r : Except TransactionError StatusId}
    (ho : Opening m c d s r s') : Placed m.backend.key s' := by
  have hnative : ∀ n, Placed m.backend.key (s.withNative n) := fun n => hp.eased (.of_quiet (.withNative s n))
  cases ho with
  | refused => exact hp
  | untransacted => exact hp.addStatus nofun
  | beginFailed _ hbegin => exact hp.eased (.of_quiet hbegin.quiet)
  | begun _ _ hbegin => exact hp.begun hbegin nofun
  | suspendFailed => exact hnative _
  | savepointFailed => exact hnative _
  | @detached h x n hb =>
    obtain ⟨hgone, hloose⟩ := (hnative n).detach (h := h) hb
    refine hgone.addStatus ?_
    rintro _ ⟨⟩
    exact ⟨hloose, by rw [Session.detach, modifyHolder, Array.size_modify]; exact hp.bound_lt c h hb⟩
  | @renewed h h' x n s₁ hb _ _ _ _ _ hbegin =>
    obtain ⟨hgone, hloose⟩ := (hnative n).detach (h := h) hb
    refine hgone.begun hbegin ?_
    rintro _ ⟨⟩
    exact ⟨hloose, by rw [Session.detach, modifyHolder, Array.size_modify]; exact hp.bound_lt c h hb⟩
  | @renewFailed h x n e s₁ s₂ r hb _ _ _ _ _ hbegin hres =>
    obtain ⟨hgone, hloose⟩ := (hnative n).detach (h := h) hb
    have heased : Eased m.backend.key ((s.withNative n).detach c m.backend.key h) s₁ := .of_quiet hbegin.quiet
    have hlt : h < s₁.holders.size := by
      rw [heased.holders, Session.detach, modifyHolder, Array.size_modify]
      exact hp.bound_lt c h hb
    rcases resume_spec m c h s₁ with ⟨_, _, hrun⟩ | ⟨_, hrun⟩
    · obtain ⟨-, rfl⟩ := Prod.mk.inj (hres.symm.trans hrun)
      exact hgone.eased heased
    · obtain ⟨-, rfl⟩ := Prod.mk.inj (hres.symm.trans hrun)
      exact ((hgone.eased heased).attach (hloose.eased heased) hlt c).eased (.of_quiet (.withNative _ _))
  | @nested h x sp n =>
    have hjoin : Eased m.backend.key (s.withNative n) ((s.withNative n).modifyHolder h Holder.requested) :=
      .modifyHolder _ h fun _ => id
    exact ((hnative n).eased hjoin).addStatus nofun
  | @joined h x =>
    have hjoin : Eased m.backend.key s (s.modifyHolder h Holder.requested) := .modifyHolder s h fun _ => id
    exact (hp.eased hjoin).addStatus nofun

theorem Manager.Unbinding.eased {r : Except TransactionError Unit} (hu : Unbinding m c h s r s') :
    Eased m.backend.key s s' := by
  cases hu with
  | unbound | other | foreign => exact .refl s
  | removed => exact .dropBinding s c

theorem Manager.Releasing.eased {st : Status ς} {r : Except TransactionError Unit} (hr : Releasing m c st s r s') :
    Eased m.backend.key s s' := by
  cases hr with
  | nothing => exact .refl s
  | reference => exact .modifyHolder s _ fun _ => id
  | @transaction h _ s₁ _ n _ _ hun =>
    have hgive : Eased m.backend.key s₁ (s₁.modifyHolder h giveUp) := .modifyHolder s₁ h fun _ _ => rfl
    exact (((Eased.purge s c).trans hun.eased).trans hgive).trans (.of_quiet (.withNative _ n))

theorem Placed.concluding (hp : Placed m.backend.key s) {commit : Bool} {t : StatusId} {st : Status ς}
    {r : Except TransactionError Unit} (hst : s.status? t = some st) (hc : Concluding m commit c t st s r s') :
    Placed m.backend.key s' := by
  cases hc with
  | @mk state outcome r₁ r₂ s₁ s₂ s₃ hwork hrel hres =>
    have hended : Eased m.backend.key s₁ (s₁.endStatus t state) := .modifyStatus s₁ t fun _ _ => id
    have heased : Eased m.backend.key s s₂ := ((Eased.of_quiet hwork.quiet).trans hended).trans hrel.eased
    have hplaced : Placed m.backend.key s₂ := hp.eased heased
    -- the scope still has what it suspended, which is bound again only behind everything else
    have hsuspends : ∀ h, st.suspended = some h → s₂.Suspends t h := by
      intro h hs
      have hst₁ : s₁.status? t = some st := (hwork.steady.status? t).trans hst
      refine ⟨{ st with completion := some state, savepoint := none }, ?_, hs⟩
      rw [hrel.steady.status?, status?_endStatus hst₁, if_pos rfl]
    cases hres with
    | nothing => exact hplaced
    | refused hs => exact (hplaced.takeSuspended (hsuspends _ hs)).1
    | @resumed h _ n hs =>
      obtain ⟨htaken, hloose⟩ := hplaced.takeSuspended (hsuspends h hs)
      have hlt : h < (s₂.takeSuspended t).holders.size := hplaced.suspended_lt t h (hsuspends h hs)
      exact (htaken.attach hloose hlt c).eased (.of_quiet (.withNative _ n))

variable {act : α → Session σ ρ ς → Session σ ρ ς}

theorem Placed.called (hp : Placed m.backend.key s) (call : ManagerCall α)
    (hact : ∀ a, call = .act a → Eased m.backend.key s (act a s)) : Placed m.backend.key (m.called act s call) := by
  cases call with
  | enter c d =>
    obtain ⟨r, s', hrun, hopen⟩ := getTransaction_spec m c d s
    show Placed m.backend.key (m.getTransaction c d s).2
    rw [hrun]
    exact (hp.eased (.purge s c)).opening hopen
  | conclude commit c t =>
    show Placed m.backend.key (m.conclude commit c t s).2
    rcases conclude_cases m commit c t s with ⟨hrefused, _⟩ | ⟨st, r, s', hst, _, hrun, hc⟩
    · rw [hrefused]; exact hp
    · rw [hrun]; exact hp.concluding hst hc
  | mark t => exact hp.eased (.of_quiet (.setRollbackOnly s t))
  | act a => exact hp.eased (hact a rfl)

theorem Placed.calledAll (hp : Placed m.backend.key s) (calls : List (ManagerCall α))
    (hact : ∀ a s, Eased m.backend.key s (act a s)) : Placed m.backend.key (m.calledAll act calls s) := by
  induction calls generalizing s with
  | nil => exact hp
  | cons call calls ih => exact ih (hp.called call fun a _ => hact a s)

theorem Placed.start {key : ResourceKey} (hfree : ∀ c, s.bound c key = none) (hstatuses : ∀ t, s.status? t = none) :
    Placed key s := by
  have hbound : ∀ c h, s.bound c key ≠ some h := fun c h hb => by
    rw [hfree c] at hb; cases hb
  have hsuspends : ∀ t h, ¬ s.Suspends t h := by
    rintro t h ⟨st, hst, _⟩
    rw [hstatuses t] at hst; cases hst
  exact ⟨fun c _ h hb => absurd hb (hbound c h), fun t _ h hs => absurd hs (hsuspends t h),
    fun c _ h hb => absurd hb (hbound c h), fun c h hb => absurd hb (hbound c h),
    fun t h hs => absurd hs (hsuspends t h), fun c h _ hb => absurd hb (hbound c h)⟩

end Calls

end Demarcation
