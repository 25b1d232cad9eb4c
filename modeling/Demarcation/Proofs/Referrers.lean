/-
What refers to a holder: the bindings of the contexts, and the statuses that are held. A call of a manager refers to
no holder that nothing referred to before, but for the one that it makes.
-/
import Demarcation.Proofs.Session.Steady

namespace Demarcation

variable {σ ρ ς : Type}

namespace Session

/-- Something refers to a holder. -/
inductive Referenced (s : Session σ ρ ς) (h : HolderId) : Prop
  | binding {r : Registry HolderId} {b : ResourceKey × HolderId} : r ∈ s.registries → b ∈ r.bindings → b.2 = h →
    Referenced s h
  | status {t : StatusId} {st : Status ς} : s.status? t = some st → st.held = true →
    st.holder = some h ∨ st.suspended = some h → Referenced s h

theorem isReferenced_iff (s : Session σ ρ ς) (h : HolderId) : s.isReferenced h = true ↔ s.Referenced h := by
  unfold isReferenced
  rw [Bool.or_eq_true, Array.any_eq_true', Array.any_eq_true']
  constructor
  · rintro (⟨r, hr, hb⟩ | ⟨st, hmem, hst⟩)
    · obtain ⟨b, hb, heq⟩ := List.any_eq_true.1 hb
      exact .binding hr hb (beq_iff_eq.1 heq)
    · obtain ⟨t, ht⟩ := Array.mem_iff_getElem?.1 hmem
      simp only [Bool.and_eq_true, Bool.or_eq_true, beq_iff_eq] at hst
      exact .status ht hst.1 hst.2
  · rintro (⟨hr, hb, heq⟩ | ⟨hst, hheld, hh⟩)
    · exact .inl ⟨_, hr, List.any_eq_true.2 ⟨_, hb, beq_iff_eq.2 heq⟩⟩
    · refine .inr ⟨_, Array.mem_of_getElem? hst, ?_⟩
      simp only [Bool.and_eq_true, Bool.or_eq_true, beq_iff_eq]
      exact ⟨hheld, hh⟩

variable {s s' : Session σ ρ ς} {c : ContextIndex} {key : ResourceKey} {h k : HolderId} {t : StatusId}
  {st : Status ς}

namespace Referenced

theorem congr (hr : s'.Referenced h) (hregistries : s'.registries = s.registries) (hstatuses : s'.statuses = s.statuses) :
    s.Referenced h := by
  cases hr with
  | binding hr hb heq => exact .binding (hregistries ▸ hr) hb heq
  | status hst hheld hh =>
    unfold status? at hst
    rw [hstatuses] at hst
    exact .status hst hheld hh

/-- What is bound is referred to. -/
theorem of_bound (hb : s.bound c key = some h) : s.Referenced h := by
  have hlt := registries_lt hb
  unfold bound Registry.binding? at hb
  obtain ⟨b, hfind, rfl⟩ := Option.map_eq_some_iff.1 hb
  have hat : s.registry c = s.registries[c] := by
    unfold registry
    rw [Array.getD_eq_getD_getElem?, Array.getElem?_eq_getElem hlt]
    rfl
  rw [hat] at hfind
  exact .binding (Array.getElem_mem hlt) (List.mem_of_find?_eq_some hfind) rfl

/-- A registry in place of another one may refer to what it binds. -/
theorem of_setRegistry {r : Registry HolderId} (hr : (s.setRegistry c r).Referenced h) :
    s.Referenced h ∨ ∃ b ∈ r.bindings, b.2 = h := by
  cases hr with
  | @binding r' b hr' hb heq =>
    rcases Array.mem_or_eq_of_mem_setIfInBounds hr' with hold | rfl
    · exact .inl (.binding hold hb heq)
    · exact .inr ⟨b, hb, heq⟩
  | status hst hheld hh => exact .inl (.status hst hheld hh)

theorem of_registry {b : ResourceKey × HolderId} (hb : b ∈ (s.registry c).bindings) : s.Referenced b.2 := by
  by_cases hlt : c < s.registries.size
  · have hat : s.registry c = s.registries[c] := by
      unfold registry
      rw [Array.getD_eq_getD_getElem?, Array.getElem?_eq_getElem hlt]
      rfl
    rw [hat] at hb
    exact .binding (Array.getElem_mem hlt) hb rfl
  · rw [registry_eq_default s hlt] at hb
    cases hb

theorem of_dropBinding (hr : (s.dropBinding c key).Referenced h) : s.Referenced h := by
  rcases hr.of_setRegistry with hr | ⟨b, hb, rfl⟩
  · exact hr
  · exact .of_registry ((List.mem_filter.1 hb).1)

theorem of_putBinding (hr : (s.putBinding c key k).Referenced h) : s.Referenced h ∨ h = k := by
  rcases hr.of_setRegistry with hr | ⟨b, hb, rfl⟩
  · exact .inl hr
  · rcases List.mem_append.1 hb with hb | hb
    · exact .inl (.of_registry ((List.mem_filter.1 hb).1))
    · obtain rfl := List.mem_singleton.1 hb
      exact .inr rfl

theorem of_purge (hr : (s.purge c key).Referenced h) : s.Referenced h := by
  unfold purge at hr
  split at hr
  · exact hr
  · split at hr
    · exact hr.of_dropBinding
    · exact hr

theorem of_addStatus (hr : (s.addStatus st).2.Referenced h) : s.Referenced h ∨ st.holder = some h ∨ st.suspended = some h := by
  cases hr with
  | binding hr hb heq => exact .inl (.binding hr hb heq)
  | status hst hheld hh =>
    rw [status?_addStatus] at hst
    split at hst
    · cases hst
      exact .inr hh
    · exact .inl (.status hst hheld hh)

/-- A status that is changed refers to nothing new. -/
theorem of_modifyStatus {f : Status ς → Status ς} (hr : (s.modifyStatus t f).Referenced h)
    (hf : ∀ st, (f st).held = true → (f st).holder = some h ∨ (f st).suspended = some h →
      st.held = true ∧ (st.holder = some h ∨ st.suspended = some h)) : s.Referenced h := by
  cases hr with
  | binding hr hb heq => exact .binding hr hb heq
  | status hst hheld hh =>
    rw [status?_modifyStatus] at hst
    split at hst
    · obtain ⟨st₀, hst₀, rfl⟩ := Option.map_eq_some_iff.1 hst
      obtain ⟨hheld₀, hh₀⟩ := hf st₀ hheld hh
      exact .status hst₀ hheld₀ hh₀
    · exact .status hst hheld hh

end Referenced

end Session

open Session Manager

namespace Manager

variable {m : Manager σ ρ ς} {c : ContextIndex} {d : Definition} {s s' : Session σ ρ ς} {h k : HolderId}
  {t : StatusId} {st : Status ς}

theorem Beginning.referenced {r : Except TransactionError HolderId} (hb : Beginning m c d s r s') (hr : s'.Referenced h) :
    s.Referenced h ∨ h = s.holders.size := by
  cases hb with
  | refused => exact .inl hr
  | failed => exact .inl (hr.congr rfl rfl)
  | begun => exact hr.of_putBinding.imp_left fun hr => hr.congr rfl rfl

theorem Beginning.fresh (hb : Beginning m c d s (.ok h) s') : h = s.holders.size := by
  cases hb
  rfl

section Detached

variable {n : σ}

theorem referenced_of_detach (hr : ((s.withNative n).detach c m.backend.key k).Referenced h) : s.Referenced h := by
  have hdropped : (s.dropBinding c m.backend.key).Referenced h := hr.congr rfl rfl
  exact hdropped.of_dropBinding

theorem referenced_of_attach (hr : (s.attach c m.backend.key k).Referenced h) : s.Referenced h ∨ h = k := by
  have hput : (s.putBinding c m.backend.key k).Referenced h := hr.congr rfl rfl
  exact hput.of_putBinding

theorem holders_size_detach (s : Session σ ρ ς) (n : σ) (c : ContextIndex) (key : ResourceKey) (k : HolderId) :
    ((s.withNative n).detach c key k).holders.size = s.holders.size :=
  ((Alike.withNative s n).trans (.detach (φ := fun _ => ()) _ c key k fun _ => rfl)).holders_size

end Detached

/-- Opening a scope refers to nothing new but the holder that it makes. -/
theorem Opening.referenced {r : Except TransactionError StatusId} (ho : Opening m c d s r s') (hr : s'.Referenced h) :
    s.Referenced h ∨ h = s.holders.size := by
  cases ho with
  | refused => exact .inl hr
  | untransacted =>
    rcases hr.of_addStatus with hr | hnone | hnone
    · exact .inl hr
    · cases hnone
    · cases hnone
  | beginFailed _ hbegin => exact hbegin.referenced hr
  | begun _ _ hbegin =>
    rcases hr.of_addStatus with hr | hh | hnone
    · exact hbegin.referenced hr
    · cases hh
      exact .inr hbegin.fresh
    · cases hnone
  | suspendFailed | savepointFailed => exact .inl (hr.congr rfl rfl)
  | detached hb =>
    rcases hr.of_addStatus with hr | hnone | hsus
    · exact .inl (referenced_of_detach hr)
    · cases hnone
    · cases hsus
      exact .inl (.of_bound hb)
  | renewed hb _ _ _ _ _ hbegin =>
    rw [← holders_size_detach s _ c m.backend.key]
    rcases hr.of_addStatus with hr | hh | hsus
    · exact (hbegin.referenced hr).imp_left referenced_of_detach
    · cases hh
      exact .inr hbegin.fresh
    · cases hsus
      exact .inl (.of_bound hb)
  | @renewFailed k x n e s₁ s₂ _ hb _ _ _ _ _ hbegin hres =>
    rw [← holders_size_detach s n c m.backend.key k]
    have hback : s₁.Referenced h → s.Referenced h ∨ h = ((s.withNative n).detach c m.backend.key k).holders.size :=
      fun hr => (hbegin.referenced hr).imp_left referenced_of_detach
    -- the older transaction is attached again, which was bound before
    rcases resume_spec m c k s₁ with ⟨_, _, hrun⟩ | ⟨_, hrun⟩
    · obtain ⟨-, rfl⟩ := Prod.mk.inj (hres.symm.trans hrun)
      exact hback hr
    · obtain ⟨-, rfl⟩ := Prod.mk.inj (hres.symm.trans hrun)
      rcases referenced_of_attach (hr.congr rfl rfl) with hr | rfl
      · exact hback hr
      · exact .inl (.of_bound hb)
  | nested hb | joined hb =>
    rcases hr.of_addStatus with hr | hh | hnone
    · exact .inl (hr.congr rfl rfl)
    · cases hh
      exact .inl (.of_bound hb)
    · cases hnone

theorem getTransaction_referenced (m : Manager σ ρ ς) (c : ContextIndex) (d : Definition) (s : Session σ ρ ς)
    (hr : (m.getTransaction c d s).2.Referenced h) : s.Referenced h ∨ h = s.holders.size := by
  obtain ⟨r, s', hrun, hopen⟩ := getTransaction_spec m c d s
  rw [hrun] at hr
  have href := hopen.referenced hr
  rw [holders_purge] at href
  exact href.imp_left Referenced.of_purge

theorem Working.registries {commit : Bool} {state : TransactionState} {r : Except TransactionError Unit}
    (hw : Working m commit st s state r s') : s'.registries = s.registries := by
  cases hw with
  | kept | unmarked | savepointReleased | committed | commitFailed | commitUndone | returnFailed | undone => rfl
  | returned | marked => exact registries_modifyHolderOf _ _ st

theorem Unbinding.referenced {r : Except TransactionError Unit} (hun : Unbinding m c k s r s') (hr : s'.Referenced h) :
    s.Referenced h := by
  cases hun with
  | unbound | other | foreign => exact hr
  | removed => exact hr.of_dropBinding

theorem Releasing.referenced {r : Except TransactionError Unit} (hrel : Releasing m c st s r s') (hr : s'.Referenced h) :
    s.Referenced h := by
  cases hrel with
  | nothing => exact hr
  | reference => exact hr.congr rfl rfl
  | transaction _ _ hun => exact (hun.referenced (hr.congr rfl rfl)).of_purge

theorem referenced_of_takeSuspended (hr : (s.takeSuspended t).Referenced h) : s.Referenced h :=
  hr.of_modifyStatus fun _ hheld hh => ⟨hheld, hh.imp_right nofun⟩

/-- Completing a scope refers to nothing new while its status is held. -/
theorem Concluding.referenced {commit : Bool} {r : Except TransactionError Unit} (hst : s.status? t = some st)
    (hheld : st.held = true) (hc : Concluding m commit c t st s r s') (hr : s'.Referenced h) : s.Referenced h := by
  cases hc with
  | @mk state _ _ _ s₁ s₂ _ hwork hrel hres =>
    have hback : s₂.Referenced h → s.Referenced h := by
      intro hr
      have hended : s₁.Referenced h := (hrel.referenced hr).of_modifyStatus fun _ hheld hh => ⟨hheld, hh⟩
      exact hended.congr hwork.registries hwork.steady.statuses
    cases hres with
    | nothing => exact hback hr
    | refused => exact hback (referenced_of_takeSuspended hr)
    | resumed hsus =>
      rcases referenced_of_attach (hr.congr rfl rfl) with hr | rfl
      · exact hback (referenced_of_takeSuspended hr)
      · -- what is bound again was suspended by the scope
        exact .status hst hheld (.inr hsus)

theorem conclude_referenced (m : Manager σ ρ ς) (commit : Bool) (c : ContextIndex)
    (hheld : ∀ st, s.status? t = some st → st.held = true) (hr : (m.conclude commit c t s).2.Referenced h) :
    s.Referenced h := by
  rcases conclude_cases m commit c t s with ⟨hrefused, -⟩ | ⟨st, r, s', hst, -, hrun, hc⟩
  · rw [hrefused] at hr
    exact hr
  · rw [hrun] at hr
    exact hc.referenced hst (hheld st hst) hr

end Manager

end Demarcation
