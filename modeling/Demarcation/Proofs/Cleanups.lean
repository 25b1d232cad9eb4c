/-
Cleanups. Completing the owner of a transaction cleans up its resource, and nothing else cleans up anything. What the
other primitives sustain therefore changes by beginnings and by the cleanups of owners only.
-/
import Demarcation.Proofs.Exchanges
import Demarcation.Proofs.Maintenance

namespace Demarcation

open Session Manager

variable {σ τ ρ ρ' ς ς' α β : Type}

/-! ## Backends made of others -/

namespace Backend

variable {b : Backend σ ρ ς} {P : σ → Prop} {φ : σ → β}

theorem Sustains.untouched (hφ : ∀ k, b.Sustains fun n => φ n = k)
    (hfailed : ∀ {d n f n'}, b.start d n = (.error f, n') → φ n' = φ n) : b.Untouched φ :=
  ⟨hfailed, fun r n => (hφ _).suspend r n rfl, fun r n => (hφ _).resume r n rfl,
    fun r n => (hφ _).createSavepoint r n rfl⟩

theorem Sustains.logged (hP : b.Sustains P) : b.logged.Sustains fun t => P t.state where
  suspend r t := hP.suspend r t.state
  resume r t := hP.resume r t.state
  commit r t := hP.commit r t.state
  rollback r t := hP.rollback r t.state
  createSavepoint r t := hP.createSavepoint r t.state
  rollbackToSavepoint r sp t := hP.rollbackToSavepoint r sp t.state
  releaseSavepoint r sp t := hP.releaseSavepoint r sp t.state

/-- A property of the larger state that is kept where the part has and keeps its own. -/
theorem Sustains.embed (hP : b.Sustains P) {slot : Slot τ σ} (resource : Case ρ' ρ) (savepoint : Case ς' ς)
    {Q : τ → Prop} (hget : ∀ t, Q t → P (slot.get t)) (hset : ∀ t s, Q t → P s → Q (slot.set s t)) :
    (b.embed slot resource savepoint).Sustains Q := by
  have hrun : ∀ {γ : Type} (op : Native σ γ), (∀ n, P n → P (op n).2) → ∀ t, Q t → Q (slot.run op t).2 :=
    fun op hop t ht => hset t _ ht (hop _ (hget t ht))
  refine ⟨fun r t ht => ?_, fun r t ht => ?_, fun r t ht => ?_, fun r t ht => ?_, fun r t ht => ?_,
    fun r sp t ht => ?_, fun r sp t ht => ?_⟩
  -- an operation on what is not of the backend's making changes nothing
  all_goals
    unfold Backend.embed
    dsimp only
    cases resource.unwrap r
    case none => exact ht
  · exact hrun _ (hP.suspend _) t ht
  · exact hrun _ (hP.resume _) t ht
  · exact hrun _ (hP.commit _) t ht
  · exact hrun _ (hP.rollback _) t ht
  · exact hrun _ (hP.createSavepoint _) t ht
  all_goals
    cases savepoint.unwrap sp
    case none => exact ht
  · exact hrun _ (hP.rollbackToSavepoint _ _) t ht
  · exact hrun _ (hP.releaseSavepoint _ _) t ht

end Backend

/-! ## Cleanups in a log -/

/-- The resource that was cleaned up, with the answer. -/
def Exchange.cleanup? : Exchange ρ ς → Option (ρ × Except Failure Unit)
  | cleanup r answer => some (r, answer)
  | begin _ _ | suspend _ _ | resume _ _ | commit _ _ | rollback _ _ | createSavepoint _ _
  | rollbackToSavepoint _ _ _ | releaseSavepoint _ _ _ => none

namespace Logged

/-- The resources that were cleaned up so far, with the answers. -/
def cleanups (t : Logged σ ρ ς) : List (ρ × Except Failure Unit) := t.log.filterMap Exchange.cleanup?

theorem cleanups_note {q : Except Failure α → Exchange ρ ς} (hq : ∀ a, (q a).cleanup? = none) (op : Native σ α)
    (t : Logged σ ρ ς) : (note q op t).2.cleanups = t.cleanups := by
  show List.filterMap _ (t.log ++ [q (op t.state).1]) = _
  rw [List.filterMap_append, List.filterMap_cons_none (hq _)]
  exact List.append_nil _

theorem cleanups_cleanup (r : ρ) (op : Native σ Unit) (t : Logged σ ρ ς) :
    (note (ς := ς) (.cleanup r) op t).2.cleanups = t.cleanups ++ [(r, (op t.state).1)] := by
  show List.filterMap _ (t.log ++ [.cleanup r (op t.state).1]) = _
  rw [List.filterMap_append]
  rfl

end Logged

/-- Nothing but a cleanup is written down as one. -/
theorem Backend.sustains_cleanups (b : Backend σ ρ ς) (l : List (ρ × Except Failure Unit)) :
    b.logged.Sustains fun t => t.cleanups = l := by
  have hnote : ∀ {γ : Type} {q : Except Failure γ → Exchange ρ ς} (_ : ∀ a, (q a).cleanup? = none) (op : Native σ γ)
      (t : Logged σ ρ ς), t.cleanups = l → (Logged.note q op t).2.cleanups = l :=
    fun hq op t ht => (Logged.cleanups_note hq op t).trans ht
  exact ⟨fun r => hnote (fun _ => rfl) _, fun r => hnote (fun _ => rfl) _, fun r => hnote (fun _ => rfl) _,
    fun r => hnote (fun _ => rfl) _, fun r => hnote (fun _ => rfl) _, fun r sp => hnote (fun _ => rfl) _,
    fun r sp => hnote (fun _ => rfl) _⟩

theorem Backend.cleanups_start {b : Backend σ ρ ς} {d : Definition} {t t' : Logged σ ρ ς} {r : Except Failure ρ}
    (hstart : b.logged.start d t = (r, t')) : t'.cleanups = t.cleanups := by
  have hnote := Logged.cleanups_note (q := Exchange.begin (ς := ς) d) (fun _ => rfl) (b.start d) t
  rwa [show Logged.note (Exchange.begin d) (b.start d) t = _ from hstart] at hnote

theorem Backend.untouched_cleanups (b : Backend σ ρ ς) : b.logged.Untouched Logged.cleanups :=
  Sustains.untouched b.sustains_cleanups b.cleanups_start

/-! ## Completing scopes -/

section Completing

variable {m : Manager σ ρ ς} {commit : Bool} {c : ContextIndex} {t : StatusId} {st : Status ς}
  {s s' : Session σ ρ ς} {r : Except TransactionError Unit}

/-- Completing a scope that is not the owner cleans nothing up. -/
theorem Manager.Concluding.sustained (hc : Concluding m commit c t st s r s') (hnew : st.newTransaction = false)
    {P : σ → Prop} (hP : m.backend.Sustains P) (hs : P s.native) : P s'.native := by
  cases hc with
  | @mk state _ _ _ s₁ s₂ _ hwork hrel hres =>
    have hworked : P s₁.native := hwork.maintained hP hs
    have hreleased : s₂.native = s₁.native := hrel.participant hnew
    exact hres.maintained hP (hreleased ▸ hworked)

/-- Completing the owner cleans up the resource of its transaction, once. -/
theorem Manager.Concluding.cleanup (hc : Concluding m commit c t st s r s') (hnew : st.newTransaction = true)
    {h : HolderId} {x : Holder ρ} (hh : st.holder = some h) (hx : s.holder? h = some x) :
    ∃ n, (∀ P : σ → Prop, m.backend.Sustains P → P s.native → P n) ∧
      ∀ P : σ → Prop, m.backend.Sustains P → P (m.backend.cleanup x.resource n).2 → P s'.native := by
  cases hc with
  | @mk state _ _ _ s₁ s₂ _ hwork hrel hres =>
    refine ⟨s₁.native, fun P hP hs => hwork.maintained hP hs, fun P hP hcleaned => hres.maintained hP ?_⟩
    cases hrel with
    | nothing hnone => cases hnone.symm.trans hh
    | reference _ hnot => cases hnot.symm.trans hnew
    | @transaction h' _ s₃ _ n hh' _ hun happ =>
      obtain rfl := Option.some.inj (hh'.symm.trans hh)
      have hgave : Steady (s₁.endStatus t state) (s₃.modifyHolder h' giveUp) :=
        ((Alike.purge _ c _).trans hun.alike).trans (.modifyHolder s₃ h' fun _ => rfl)
      obtain ⟨x₁, hx₁, hsame₁⟩ := hwork.steady.holder hx
      obtain ⟨y, hy, hsame⟩ := hgave.holder (show (s₁.endStatus t state).holder? h' = some x₁ from hx₁)
      have hnative : (s₃.modifyHolder h' giveUp).native = s₁.native := hun.native.trans (native_purge _ c _)
      rw [applied_of_holder hy, hsame, hsame₁, hnative] at happ
      show P n
      rw [happ] at hcleaned
      exact hcleaned

end Completing

/-! ## What a call cleans up -/

/-- What a call of a manager asks of the backend, with the answers. -/
def Manager.asked (m : Manager σ ρ ς) (s : Session σ ρ ς) (call : ManagerCall Empty) : List (Exchange ρ ς) :=
  (m.logged.called nofun s.logging call).native.log

/-- The resources that a call of a manager cleans up, with the answers. -/
def Manager.cleanups (m : Manager σ ρ ς) (s : Session σ ρ ς) (call : ManagerCall Empty) :
    List (ρ × Except Failure Unit) :=
  (m.asked s call).filterMap Exchange.cleanup?

section Calls

variable {m : Manager σ ρ ς} {commit : Bool} {c : ContextIndex} {t : StatusId} {st : Status ς} {s : Session σ ρ ς}

theorem conclude_logging (m : Manager σ ρ ς) (commit : Bool) (c : ContextIndex) (t : StatusId) (s : Session σ ρ ς) :
    (m.conclude commit c t s).2 = (m.logged.conclude commit c t s.logging).2.seen unlogged := by
  have hmirror := (logged_mirrored m).conclude commit c t s.logging
  rw [logging_seen] at hmirror
  exact congrArg Prod.snd hmirror

/-- Opening a scope cleans nothing up. -/
theorem cleanups_enter (m : Manager σ ρ ς) (s : Session σ ρ ς) (c : ContextIndex) (d : Definition) :
    m.cleanups s (.enter c d) = [] := by
  obtain ⟨r, s', hrun, houtline⟩ := getTransaction_outline m.logged c d s.logging m.backend.untouched_cleanups
  show (m.logged.getTransaction c d s.logging).2.native.cleanups = []
  rw [hrun]
  cases houtline with
  | failed _ hsame | entered _ hsame => exact hsame
  | begun _ hsame hstart => exact (m.backend.cleanups_start hstart).trans hsame

/-- Completing a scope that is completed, or is not the owner of its transaction, cleans nothing up. -/
theorem cleanups_conclude_other (m : Manager σ ρ ς) (commit : Bool) (c : ContextIndex)
    (hother : ∀ st, s.status? t = some st → st.isCompleted = false → st.newTransaction = false) :
    m.cleanups s (.conclude commit c t) = [] ∧
      ∀ P : σ → Prop, m.backend.Sustains P → P s.native → P (m.conclude commit c t s).2.native := by
  rw [conclude_logging]
  show (m.logged.conclude commit c t s.logging).2.native.cleanups = [] ∧ ∀ P : σ → Prop, m.backend.Sustains P →
    P s.native → P (m.logged.conclude commit c t s.logging).2.native.state
  rcases conclude_cases m.logged commit c t s.logging with ⟨hrefused, -⟩ | ⟨st, r, s', hst, hopen, hrun, hc⟩
  · rw [hrefused]
    exact ⟨rfl, fun _ _ => id⟩
  · have hnew := hother st hst hopen
    rw [hrun]
    exact ⟨hc.sustained hnew (m.backend.sustains_cleanups []) rfl, fun P hP hs => hc.sustained hnew hP.logged hs⟩

/-- Completing the owner of a transaction cleans its resource up. -/
theorem cleanups_conclude_owner (m : Manager σ ρ ς) (commit : Bool) (c : ContextIndex) (hst : s.status? t = some st)
    (hopen : st.isCompleted = false) (hnew : st.newTransaction = true) {h : HolderId} {x : Holder ρ}
    (hh : st.holder = some h) (hx : s.holder? h = some x) :
    ∃ n, (∀ P : σ → Prop, m.backend.Sustains P → P s.native → P n) ∧
      m.cleanups s (.conclude commit c t) = [(x.resource, (m.backend.cleanup x.resource n).1)] ∧
      ∀ P : σ → Prop, m.backend.Sustains P → P (m.backend.cleanup x.resource n).2 →
        P (m.conclude commit c t s).2.native := by
  obtain ⟨r, s', hrun, hc⟩ := conclude_spec m.logged commit c (s := s.logging) hst hopen
  obtain ⟨n, hbefore, hafter⟩ := hc.cleanup hnew hh (show s.logging.holder? h = some x from hx)
  have hcleaned : (m.logged.backend.cleanup x.resource n).2.cleanups =
      [(x.resource, (m.backend.cleanup x.resource n.state).1)] := by
    have hnone : n.cleanups = [] := hbefore _ (m.backend.sustains_cleanups []) rfl
    have hnote := Logged.cleanups_cleanup (ς := ς) x.resource (m.backend.cleanup x.resource) n
    rw [hnone] at hnote
    exact hnote
  refine ⟨n.state, fun P hP => hbefore _ hP.logged, ?_, fun P hP hs => ?_⟩
  · show (m.logged.conclude commit c t s.logging).2.native.cleanups = _
    rw [hrun]
    exact hafter _ (m.backend.sustains_cleanups _) hcleaned
  · rw [conclude_logging, hrun]
    exact hafter _ hP.logged hs

end Calls

end Demarcation
