/-
When the connections of a store are released: one lemma for each kind of step that clients take, and from these what
holds after a whole run.
-/
import Demarcation.Proofs.Sharing.Custody

namespace Demarcation

open Session Manager

namespace Custody

variable {m : SystemsManager} {systems : Systems} {r : Custody}

theorem cleanups_called (m : SystemsManager) (r : Custody) (call : ManagerCall Empty) :
    (r.called m call).cleanups = r.cleanups ++ m.cleanups r.session call :=
  List.filterMap_append ..

theorem called_eq {call : ManagerCall Empty} {s : SystemsSession} (h : m.called nofun r.session call = s) :
    r.called m call = { r with session := s, asked := r.asked ++ m.asked r.session call } := by
  rw [← h]
  rfl

/-- A connection ended by its cleanup, unless this failed. -/
theorem ended_cleanup {s : SystemsSession} {asked : List (Exchange Resource AnySavepoint)} {k : ConnectionId}
    {answer : Except Failure Unit}
    (hcleanups : { r with session := s, asked }.cleanups = r.cleanups ++ [(.connection 0 k, answer)]) (c : ConnectionId) :
    { r with session := s, asked }.Ended c ↔ r.Ended c ∨ c ∈ (if answer.isOk then [k] else []) := by
  unfold Ended
  rw [hcleanups, List.mem_append, List.mem_singleton, or_right_comm]
  cases answer with
  | error f => simp [Except.isOk, Except.toBool]
  | ok u => simp [Except.isOk, Except.toBool]

theorem keeps_inUse (r r' : Custody) (h : r'.kept = r.kept) (c : ConnectionId) (hkeeps : r'.keeps c = true) : r.InUse c := by
  unfold keeps at hkeeps
  rw [h] at hkeeps
  exact .inl hkeeps

theorem keeps_cons {s : SystemsSession} {a : Access} {c : ConnectionId}
    (hkeeps : ({ r with session := s, kept := a :: r.kept } : Custody).keeps c = true) :
    c = a.connection ∨ r.keeps c = true := by
  unfold keeps at hkeeps
  rw [List.any_cons, Bool.or_eq_true, beq_iff_eq] at hkeeps
  exact hkeeps.imp_left Eq.symm

/-! ## Steps on the session -/

namespace Settled

/-- Something else changed in the session than what its transactions and connections are. -/
theorem steady (hr : Settled r) {s : SystemsSession} (hsteady : Steady r.session s)
    (hroster : s.native.roster 0 = r.session.native.roster 0) (href : ∀ h, s.Referenced h → r.session.Referenced h) :
    Unsettled { r with session := s } :=
  hr.unchanged hroster (hr.cleaned.steady hsteady) hsteady.holders (fun h _ => href h)
    (keeps_inUse r _ rfl) rfl rfl

/-- A status changed, and refers to nothing new. -/
theorem modifyStatus (hr : Settled r) (t : StatusId) {f : Status AnySavepoint → Status AnySavepoint}
    (hf : ∀ st, (f st).newTransaction = st.newTransaction ∧ (f st).holder = st.holder ∧
      (f st).savepoint = st.savepoint ∧ (f st).isCompleted = st.isCompleted)
    (href : ∀ h st, (f st).held = true → (f st).holder = some h ∨ (f st).suspended = some h →
      st.held = true ∧ (st.holder = some h ∨ st.suspended = some h)) :
    Unsettled { r with session := r.session.modifyStatus t f } :=
  hr.unchanged rfl (hr.cleaned.of_modifyStatus t hf) (fun _ => rfl) (fun h _ hr' => hr'.of_modifyStatus (href h))
    (keeps_inUse r _ rfl) rfl rfl

theorem forget (hr : Settled r) (t : StatusId) : Unsettled (r.perform m (.forget t)) :=
  hr.modifyStatus t (fun _ => ⟨rfl, rfl, rfl, rfl⟩) fun _ _ hheld => nomatch hheld

theorem mark (hr : Settled r) (t : StatusId) : Unsettled (r.perform m (.mark t)) := by
  have hmarked : r.perform m (.mark t) = { r with session := r.session.setRollbackOnly t } := by
    show { r with session := r.session.setRollbackOnly t, asked := r.asked ++ [] } = _
    rw [List.append_nil]
  rw [hmarked]
  exact hr.modifyStatus t (fun _ => ⟨rfl, rfl, rfl, rfl⟩) fun _ _ hheld hh => ⟨hheld, hh⟩

theorem unbind (hr : Settled r) (c : ContextIndex) (keeps : ResourceKey → Bool) :
    Unsettled (r.perform m (.unbind c keeps)) := by
  refine hr.steady ⟨rfl, fun _ => rfl⟩ rfl fun h hr' => ?_
  rcases hr'.of_setRegistry with hr' | ⟨b, hb, rfl⟩
  · exact hr'
  · exact .of_registry (List.mem_filter.1 hb).1

theorem wait (hr : Settled r) (now : Instant) : Unsettled (r.perform m (.wait now)) :=
  hr.steady ⟨rfl, fun _ => rfl⟩ rfl fun _ hr' => hr'.congr rfl rfl

theorem call (hr : Settled r) (op : StoreCall) (hlasts : op.lasts = true) : Unsettled (r.perform m (.call op hlasts)) :=
  hr.steady (.withNative _ _) (Systems.roster_set (Store.roster_called op hlasts _)) fun _ hr' => hr'.congr rfl rfl

theorem drop (hr : Settled r) (n : Nat) : Unsettled (r.perform m (.drop n)) := by
  refine hr.unchanged rfl hr.cleaned (fun _ => rfl) (fun _ _ => id) (fun c hkeeps => .inl ?_) rfl rfl
  obtain ⟨a, ha, heq⟩ := List.any_eq_true.1 hkeeps
  exact List.any_eq_true.2 ⟨a, List.mem_of_mem_eraseIdx ha, heq⟩

theorem close (hr : Settled r) (c : ConnectionId) : Unsettled (r.perform m (.close c)) := by
  have hstore : (r.perform m (.close c)).session.native.store 0 = (r.session.native.store 0).closeAll [c] :=
    Systems.store_set (hr.connected.one ▸ Nat.one_pos) _
  refine hr.after [c] (Systems.size_set _ _) (congrArg _ hstore) (hr.cleaned.steady (.withNative _ _)) (fun k => ?_)
    (fun _ => rfl) (fun _ _ hr' => hr'.congr rfl rfl) (keeps_inUse r _ rfl)
  have hclosed : k ∈ (r.perform m (.close c)).closed ↔
      k ∈ r.closed ∨ (k ∈ [c] ∧ k < (r.session.native.store 0).connections.size) := by
    show k ∈ (if _ then _ else _) ↔ _
    split <;> grind
  unfold Ended
  rw [hclosed, or_assoc]
  rfl

theorem connect (hr : Settled r) (c : ContextIndex) : Unsettled (r.perform m (.connect c)) := by
  obtain ⟨a, s', hrun, hasked⟩ := Systems.access_asked c r.session fun h x hx =>
    (hr.connected.resource h x hx).imp fun _ hc => hc.1
  have hpurged : Steady r.session (r.session.purge c (Systems.storeKey 0)) := .purge _ _ _
  have hholder := holder?_purge r.session c (Systems.storeKey 0)
  have hnative := native_purge r.session c (Systems.storeKey 0)
  have href : ∀ h, (r.session.purge c (Systems.storeKey 0)).Referenced h → r.session.Referenced h :=
    fun _ hr' => hr'.of_purge
  generalize r.session.purge c (Systems.storeKey 0) = s at hasked hpurged hholder hnative href
  -- a request for a rollback changes no resource
  have htimed : ∀ {h : HolderId} {x y : Holder Resource}, s.holder? h = some x → y = x ∨ y = x.setRollbackOnly →
      Steady r.session (s.modifyHolder h fun _ => y) := by
    intro h x y hx hy
    refine hpurged.trans (.modifyHolder_at fun z hz => ?_)
    obtain rfl := Option.some.inj (hx.symm.trans hz)
    rcases hy with rfl | rfl <;> rfl
  unfold Custody.perform
  dsimp only
  rw [hrun]
  cases hasked with
  | refused => exact hr.steady hpurged (congrArg _ hnative) href
  | timedOut _ hx hy => exact hr.steady (htimed hx hy) (congrArg _ hnative) fun h hr' => href h (hr'.congr rfl rfl)
  | @bound c' h x y k hb hx hy hk =>
    refine hr.unchanged (congrArg (Systems.roster 0) hnative) (hr.cleaned.steady (htimed hx hy)) (htimed hx hy).holders
      (fun h _ hr' => href h (hr'.congr rfl rfl)) (fun j hkeeps => ?_) rfl rfl
    rcases keeps_cons hkeeps with rfl | hkeeps
    · -- the holder that is bound already referred to the connection
      exact .inr ((Systems.isHeld_iff ..).2 ⟨h, x, hholder h ▸ hx, hk, href h (.of_bound hb)⟩)
    · exact .inl hkeeps
  | alone =>
    rw [hnative]
    have hroster := congrArg Store.roster (Systems.store_set (hr.connected.one ▸ Nat.one_pos)
      ((r.session.native.store 0).connect false true .unspecified).2)
    refine hr.opened false true .unspecified
      (hr.connected.connected ((Systems.size_set _ _).trans hr.connected.one) hroster hholder)
      (hr.cleaned.steady (hpurged.trans (.withNative _ _))) hroster rfl rfl fun j hne huse => ?_
    exact huse.before (fun hkeeps => .inl ((keeps_cons hkeeps).resolve_left hne))
      (fun h _ hr' => href h (hr'.congr rfl rfl)) fun h _ _ _ => congrArg _ (hholder h)

section Manager

variable (hm : m.backend = Systems.Part.backend systems (.store 0))
include hm

omit r in
theorem sustains_roster (k : Nat × Nat × Array (Bool × Bool)) : m.backend.Sustains fun t => t.roster 0 = k := by
  rw [hm]
  exact Systems.sustains_roster systems 0 k

theorem enter (hr : Settled r) (c : ContextIndex) (d : Definition) : Unsettled (r.called m (.enter c d)) := by
  have howned : Owned (m.called nofun r.session (.enter c d : ManagerCall Empty)) :=
    hr.cleaned.owned.called (.enter c d) nofun
  have hcleanups : (r.called m (.enter c d)).cleanups = r.cleanups := by
    rw [cleanups_called, cleanups_enter, List.append_nil]
  have href : ∀ h, h < r.session.holders.size → (m.getTransaction c d r.session).2.Referenced h →
      r.session.Referenced h :=
    fun h hlt hr' => (getTransaction_referenced m c d r.session hr').resolve_right (Nat.ne_of_lt hlt)
  obtain ⟨a, s', hrun, houtline⟩ := getTransaction_outline m c d r.session
    (hm ▸ Systems.untouched_roster systems 0 : m.backend.Untouched (Systems.roster 0))
  have hcalled : m.called nofun r.session (.enter c d : ManagerCall Empty) = s' := congrArg Prod.snd hrun
  rw [hcalled] at howned
  rw [hrun] at href
  rw [called_eq hcalled] at hcleanups ⊢
  cases houtline with
  | failed halike hsame =>
    exact hr.unchanged hsame (hr.cleaned.steady halike.steady) halike.steady.holders href (keeps_inUse r _ rfl) rfl
      hcleanups
  | @entered s₁ st halike hsame _ hnew =>
    refine hr.unchanged hsame ?_ halike.steady.holders href (keeps_inUse r _ rfl) rfl hcleanups
    refine (hr.cleaned.steady halike.steady).congr howned (fun _ => rfl) fun t st' hst' hnew' => ?_
    rw [status?_addStatus] at hst'
    split at hst'
    · cases hst'
      cases hnew.symm.trans hnew'
    · exact ⟨st', hst', hnew', rfl, rfl⟩
  | @begun s₁ st x n halike hsame hstart _ hopen _ _ _ hh =>
    have hbefore : Connected s₁ := hr.connected.of_roster hsame halike.steady.holders
    have hold : (s₁.native.store 0).roster = (r.session.native.store 0).roster := congrArg Prod.snd hsame
    have hholders : ∀ h, ((s₁.started c m.backend.key x n).addStatus st).2.holder? h =
        if h = s₁.holders.size then some x else s₁.holder? h := holder?_started s₁ c m.backend.key x n
    rw [hm] at hstart
    rcases Systems.start_cases systems d hstart with ⟨_, hfailed, -⟩ | ⟨hok, hstores, hroster⟩
    · cases hfailed
    · have hresource := Except.ok.inj hok
      replace hroster := hroster (hbefore.one ▸ Nat.one_pos)
      refine hr.opened d.readOnly false d.isolation
        (hbefore.begun (hstores.trans hbefore.one) hroster hresource hholders) ?_ ?_ rfl hcleanups fun j hne huse => ?_
      · rw [hcleanups]
        exact (hr.cleaned.steady halike.steady).begun howned (Status.isCompleted_of_none hopen) hh
          (fun h y hy => hresource ▸ hbefore.fresh hy) hholders fun t => status?_addStatus _ t st
      · show (n.store 0).roster = _
        rw [hroster, Store.roster_connect, Store.roster_connect, hold]
      · refine huse.before (keeps_inUse r _ rfl j) href fun h y hy hj => ?_
        dsimp only at hy ⊢
        rw [hholders] at hy ⊢
        split at hy
        · cases hy
          cases hresource.symm.trans hj
          exact absurd (Store.size_of_roster hold) hne
        · rename_i hne
          rw [if_neg hne]
          exact halike.steady.holders h

/-- Completing a scope that is completed, or did not begin its transaction. -/
theorem conclude_other (hr : Settled r) (commit : Bool) (c : ContextIndex) {t : StatusId}
    (hheld : ∀ st, r.session.status? t = some st → st.held = true)
    (hother : ∀ st, r.session.status? t = some st → st.isCompleted = false → st.newTransaction = false) :
    Unsettled (r.called m (.conclude commit c t)) := by
  obtain ⟨hnone, hsustained⟩ := cleanups_conclude_other m commit c hother
  have hcleanups : (r.called m (.conclude commit c t)).cleanups = r.cleanups := by
    rw [cleanups_called, hnone, List.append_nil]
  have howned : Owned (m.called nofun r.session (.conclude commit c t : ManagerCall Empty)) :=
    hr.cleaned.owned.called (.conclude commit c t) nofun
  rcases conclude_statuses m r.session commit c t with hrefused | ⟨st, state, hst, hopen, hstatuses, hholders⟩
  · have hcalled : m.called nofun r.session (.conclude commit c t : ManagerCall Empty) = r.session :=
      congrArg Prod.snd hrefused
    rw [called_eq hcalled] at hcleanups ⊢
    exact hr.unchanged rfl hr.cleaned (fun _ => rfl) (fun _ _ => id) (keeps_inUse r _ rfl) rfl hcleanups
  · refine hr.unchanged (hsustained _ (sustains_roster hm _) rfl) ?_ hholders
      (fun _ _ => conclude_referenced m commit c hheld) (keeps_inUse r _ rfl) rfl hcleanups
    refine hr.cleaned.congr howned hholders fun u st' hst' hnew' => ?_
    change (m.conclude commit c t r.session).2.status? u = some st' at hst'
    rw [hstatuses] at hst'
    split at hst'
    · cases hst'
      cases (hother st hst hopen).symm.trans hnew'
    · exact ⟨st', hst', hnew', rfl, rfl⟩

/-- Completing the owner of a transaction closes the connection of the transaction, unless its cleanup fails. -/
theorem conclude_owner (hr : Settled r) (commit : Bool) (c : ContextIndex) {t : StatusId} {st : Status AnySavepoint}
    (hheld : ∀ st, r.session.status? t = some st → st.held = true) (hst : r.session.status? t = some st)
    (hopen : st.isCompleted = false) (hnew : st.newTransaction = true) :
    Unsettled (r.called m (.conclude commit c t)) := by
  obtain ⟨-, h, hh, hlt⟩ := hr.cleaned.owned.own t st hst hnew
  obtain ⟨x, hx⟩ := exists_holder hlt
  obtain ⟨k, hresource, halone⟩ := hr.connected.resource h x hx
  -- the cleanup, from the state that it finds to the one that it leaves
  obtain ⟨n, hbefore, hcleaned, hafter⟩ := cleanups_conclude_owner m commit c hst hopen hnew hh hx
  obtain ⟨⟨answer, n'⟩, hrun⟩ : ∃ q, m.backend.cleanup x.resource n = q := ⟨_, rfl⟩
  have hfound : n.roster 0 = r.session.native.roster 0 := hbefore _ (sustains_roster hm _) rfl
  have hleft : (m.conclude commit c t r.session).2.native.roster 0 = n'.roster 0 :=
    hafter _ (sustains_roster hm _) (by rw [hrun])
  have hcleanups : (r.called m (.conclude commit c t)).cleanups = r.cleanups ++ [(.connection 0 k, answer)] := by
    rw [cleanups_called, hcleaned, hrun, hresource]
  rw [hm, hresource] at hrun
  have hone : n.stores.size = 1 := (congrArg Prod.fst hfound).trans hr.connected.one
  obtain ⟨hstores, hclosed⟩ := Systems.cleanup_roster systems (hone ▸ Nat.one_pos) k hrun
  have howned : Owned (m.called nofun r.session (.conclude commit c t : ManagerCall Empty)) :=
    hr.cleaned.owned.called (.conclude commit c t) nofun
  obtain ⟨a, s', hrun', hc⟩ := conclude_spec m commit c hst hopen
  obtain ⟨state, _, _, _, _, _, _, _, hstatuses, -⟩ := hc.outline hst (.const _)
  have hcalled : m.called nofun r.session (.conclude commit c t : ManagerCall Empty) = s' := congrArg Prod.snd hrun'
  have href := fun h (_ : h < r.session.holders.size) => conclude_referenced (h := h) m commit c hheld
  rw [hcalled] at howned
  rw [hrun'] at hleft href
  rw [called_eq hcalled] at hcleanups ⊢
  refine hr.after (if answer.isOk then [k] else []) ?_ ?_ ?_ (fun j => ?_) (hc.resources hst) href (keeps_inUse r _ rfl)
  · exact (congrArg Prod.fst hleft).trans (hstores.trans (congrArg Prod.fst hfound))
  · exact (congrArg Prod.snd hleft).trans (hclosed.trans (Store.roster_closeAll (congrArg Prod.snd hfound) _))
  · rw [hcleanups, ← hresource]
    exact hr.cleaned.concluded howned hr.connected.distinct hst hopen hnew hh hx answer (hc.resources hst) hstatuses
  · rw [ended_cleanup hcleanups]
    refine or_congr_right ⟨fun hj => ⟨hj, ?_⟩, fun hj => hj.1⟩
    have hjk : j = k := by
      split at hj
      · exact List.mem_singleton.1 hj
      · cases hj
    rw [hjk]
    exact Store.alone?_lt halone

theorem conclude (hr : Settled r) (commit : Bool) (c : ContextIndex) (t : StatusId) :
    Unsettled (r.perform m (.conclude commit c t)) := by
  show Unsettled (if (r.session.status? t).any Status.held then r.called m (.conclude commit c t) else r)
  cases hst : r.session.status? t with
  | none => exact hr.toUnsettled
  | some st =>
    rw [Option.any_some]
    split
    · rename_i hheld
      have hheld' : ∀ st', r.session.status? t = some st' → st'.held = true := by
        rintro st' hst'
        obtain rfl := Option.some.inj (hst.symm.trans hst')
        exact hheld
      by_cases howner : st.isCompleted = false ∧ st.newTransaction = true
      · exact hr.conclude_owner hm commit c hheld' hst howner.1 howner.2
      · refine hr.conclude_other hm commit c hheld' fun st' hst' hopen => ?_
        obtain rfl := Option.some.inj (hst.symm.trans hst')
        exact Bool.eq_false_iff.2 fun hnew => howner ⟨hopen, hnew⟩
    · exact hr.toUnsettled

theorem perform (hr : Settled r) (step : CustodyStep) : Unsettled (r.perform m step) := by
  cases step with
  | enter c d => exact hr.enter hm c d
  | conclude commit c t => exact hr.conclude hm commit c t
  | mark t => exact hr.mark t
  | forget t => exact hr.forget t
  | connect c => exact hr.connect c
  | drop n => exact hr.drop n
  | close c => exact hr.close c
  | call op hlasts => exact hr.call op hlasts
  | unbind c keeps => exact hr.unbind c keeps
  | wait now => exact hr.wait now

theorem run (hr : Settled r) (steps : List CustodyStep) : Settled (r.run m steps) := by
  induction steps generalizing r with
  | nil => exact hr
  | cons step steps ih => exact ih (hr.perform hm step).settle

end Manager

/-- Before the first step there is no connection. -/
theorem start (contexts : Nat) (name : String) (capabilities : Capabilities) :
    Settled { session := Session.ofContexts contexts (Systems.ofStores [(name, capabilities)]) } := by
  obtain ⟨systems, hsystems⟩ : ∃ t, Systems.ofStores [(name, capabilities)] = t := ⟨_, rfl⟩
  have hstore : systems.store 0 = { name, key := Systems.storeKey 0, capabilities } := by
    rw [← hsystems]
    rfl
  have hone : systems.stores.size = 1 := by
    rw [← hsystems]
    rfl
  have hopen : ∀ c, (systems.store 0).isOpen c ≠ true := by
    rw [hstore]
    exact fun _ => Bool.false_ne_true
  have halone : ∀ c b, (systems.store 0).alone? c ≠ some b := by
    rw [hstore]
    exact fun _ _ => nofun
  have hholder : ∀ h x, (Session.ofContexts contexts systems : SystemsSession).holder? h ≠ some x := fun _ _ => nofun
  have hstatus : ∀ t st, (Session.ofContexts contexts systems : SystemsSession).status? t ≠ some st := fun _ _ => nofun
  rw [hsystems]
  exact {
    connected := {
      one := hone
      tallied := by
        show (systems.store 0).Tallied
        rw [hstore]
        rfl
      resource h x hx := absurd hx (hholder h x)
      distinct h _ x _ hx := absurd hx (hholder h x)
      holder c hc := absurd hc (halone c _) }
    cleaned := {
      owned := .ofContexts _ _
      known _ hq := absurd hq List.not_mem_nil
      exact t st _ _ hst := absurd hst (hstatus t st) }
    closed _ hc := absurd hc List.not_mem_nil
    lasting c hc := absurd hc (hopen c)
    used c hlt := by
      change c < (systems.store 0).connections.size at hlt
      rw [hstore] at hlt
      exact absurd hlt (Nat.not_lt_zero c)
    inUse c hc := absurd hc (hopen c) }

end Settled

/-! ## Runs -/

/-- The answers of the cleanups of a connection so far. -/
def answers (r : Custody) (c : ConnectionId) : List (Except Failure Unit) :=
  (r.cleanups.filter fun q => q.1 == .connection 0 c).map Prod.snd

theorem mem_answers {c : ConnectionId} {a : Except Failure Unit} :
    a ∈ r.answers c ↔ (.connection 0 c, a) ∈ r.cleanups := by
  unfold answers
  simp only [List.mem_map, List.mem_filter, beq_iff_eq]
  constructor
  · rintro ⟨q, ⟨hq, hc⟩, rfl⟩
    rw [← hc]
    exact hq
  · intro hq
    exact ⟨_, ⟨hq, rfl⟩, rfl⟩

namespace Settled

variable {c : ConnectionId}

theorem isOpen_iff (hr : Settled r) (hlt : c < (r.session.native.store 0).connections.size) :
    (r.session.native.store 0).isOpen c = true ↔ (.ok () ∉ r.answers c ∧ c ∉ r.closed) ∧ r.InUse c := by
  have hended : r.Ended c ↔ .ok () ∈ r.answers c ∨ c ∈ r.closed := by
    rw [mem_answers]
    rfl
  rw [← not_or, ← hended]
  exact ⟨fun hopen => ⟨hr.lasting c hopen, hr.inUse c hopen⟩, fun h => hr.used c hlt h.1 h.2⟩

/-- What holds the connection of a transaction is its holder. -/
theorem isHeld_iff (hr : Settled r) {h : HolderId} {x : Holder Resource} (hx : r.session.holder? h = some x)
    (hresource : x.resource = .connection 0 c) :
    Systems.isHeld r.session 0 c = true ↔ r.session.isReferenced h = true := by
  rw [Systems.isHeld_iff, isReferenced_iff]
  constructor
  · rintro ⟨h', x', hx', hresource', href⟩
    obtain rfl := hr.connected.distinct h' h x' x hx' hx (hresource'.trans hresource.symm)
    exact href
  · intro href
    exact ⟨h, x, hx, hresource, href⟩

theorem length_answers (r : Custody) (c : ConnectionId) :
    (r.answers c).length = r.cleanups.countP (·.1 == .connection 0 c) := by
  unfold answers
  rw [List.length_map, List.countP_eq_length_filter]

/-- A connection that publishes at once is open as long as it is kept, unless a client closes it. -/
theorem isOpen_alone (hr : Settled r) (halone : (r.session.native.store 0).alone? c = some true) :
    (r.session.native.store 0).isOpen c = true ↔ c ∉ r.closed ∧ r.keeps c = true := by
  -- it is of no holder
  have hnot : ∀ h x, r.session.holder? h = some x → x.resource ≠ .connection 0 c := by
    intro h x hx hresource
    obtain ⟨k, hk, hfalse⟩ := hr.connected.resource h x hx
    cases hresource.symm.trans hk
    cases halone.symm.trans hfalse
  have hheld : Systems.isHeld r.session 0 c ≠ true := by
    rw [Ne, Systems.isHeld_iff]
    rintro ⟨h, x, hx, hresource, -⟩
    exact hnot h x hx hresource
  have hcleaned : .ok () ∉ r.answers c := by
    rw [mem_answers]
    intro hmem
    obtain ⟨h, x, hx, hresource⟩ := hr.cleaned.known _ hmem
    exact hnot h x hx hresource
  rw [hr.isOpen_iff (Store.alone?_lt halone)]
  unfold InUse
  simp only [hcleaned, hheld, not_false_eq_true, true_and, Bool.false_eq_true, or_false]

/-- The connection of a transaction is cleaned up once its owner is completed, and is open as long as something refers
to it, unless the cleanup succeeds or a client closes it. -/
theorem isOpen_transactional (hr : Settled r) (halone : (r.session.native.store 0).alone? c = some false) :
    ∃ t st h x, r.session.status? t = some st ∧ st.newTransaction = true ∧ st.holder = some h ∧
      r.session.holder? h = some x ∧ x.resource = .connection 0 c ∧
      (r.answers c).length = (if st.isCompleted then 1 else 0) ∧
      ((r.session.native.store 0).isOpen c = true ↔
        (.ok () ∉ r.answers c ∧ c ∉ r.closed) ∧ (r.keeps c = true ∨ r.session.isReferenced h = true)) := by
  obtain ⟨h, x, hx, hresource⟩ := hr.connected.holder c halone
  obtain ⟨t, hown⟩ := hr.cleaned.owned.each h (holder?_lt hx)
  obtain ⟨st, hst, -⟩ := Option.bind_eq_some_iff.1 hown
  obtain ⟨hnew, hh⟩ := Owned.holder_of_owned hst hown
  refine ⟨t, st, h, x, hst, hnew, hh, hx, hresource, ?_, ?_⟩
  · rw [length_answers, ← hresource]
    exact hr.cleaned.exact t st h x hst hnew hh hx
  · rw [← hr.isHeld_iff hx hresource]
    exact hr.isOpen_iff (Store.alone?_lt halone)

end Settled

end Custody

/-- The counter of a store says how many of the connections that were opened were neither closed nor dropped since, and
closing never finds it too low. Under a manager, the connection of a transaction is cleaned up once when the owner is
completed. If this succeeds, it is closed from then on. If it fails, or is still to come, the connection is open exactly
as long as something refers to its holder or a client keeps it, unless a client closes it. -/
theorem open_connections_exact (name : String) (capabilities : Capabilities) (config : ManagerConfig) :
    (∀ (key : ResourceKey) (calls : List StoreCall),
      let s := Store.ran calls { name, key, capabilities }
      let events := Store.events calls { name, key, capabilities }
      s.openConnections = ((events.filterMap ConnectionEvent.opened?).filter fun c => .ended c ∉ events).length ∧
      ∀ c, (s.close c).openConnections + (if s.isOpen c then 1 else 0) = s.openConnections) ∧
    ∀ (contexts : Nat) (steps : List CustodyStep),
      let systems := Systems.ofStores [(name, capabilities)]
      let m : SystemsManager := { backend := Systems.Part.backend systems (.store 0), config }
      let r := Custody.run m steps { session := Session.ofContexts contexts systems }
      let s := r.session.native.store 0
      s.openConnections = ((List.range s.connections.size).filter s.isOpen).length ∧
      (∀ c, s.alone? c = some true → (s.isOpen c = true ↔ c ∉ r.closed ∧ r.keeps c = true)) ∧
      ∀ c, s.alone? c = some false → ∃ t st h x, r.session.status? t = some st ∧ st.newTransaction = true ∧
        st.holder = some h ∧ r.session.holder? h = some x ∧ x.resource = .connection 0 c ∧
        (st.isCompleted = false → r.answers c = [] ∧
          (s.isOpen c = true ↔ c ∉ r.closed ∧ (r.keeps c = true ∨ r.session.isReferenced h = true))) ∧
        (st.isCompleted = true → (r.answers c = [.ok ()] ∧ s.isOpen c = false) ∨
          ∃ f, r.answers c = [.error f] ∧
            (s.isOpen c = true ↔ c ∉ r.closed ∧ (r.keeps c = true ∨ r.session.isReferenced h = true))) := by
  refine ⟨fun key calls => ⟨?_, ?_⟩, fun contexts steps => ?_⟩
  · exact Store.openConnections_ran rfl rfl calls
  · have htallied : ({ name, key, capabilities } : Store).Tallied := rfl
    exact (htallied.ran calls).counter_close
  · intro systems m r s
    have hm : m.backend = Systems.Part.backend systems (.store 0) := rfl
    have hr : r.Settled := (Custody.Settled.start contexts name capabilities).run hm steps
    refine ⟨hr.connected.tallied.eq_length, fun c halone => hr.isOpen_alone halone, fun c halone => ?_⟩
    obtain ⟨t, st, h, x, hst, hnew, hh, hx, hresource, hcount, hopen⟩ := hr.isOpen_transactional halone
    refine ⟨t, st, h, x, hst, hnew, hh, hx, hresource, fun hnot => ?_, fun hcompleted => ?_⟩
    · rw [hnot] at hcount
      have hnone := List.eq_nil_of_length_eq_zero hcount
      rw [hnone] at hopen
      simp only [List.not_mem_nil, not_false_eq_true, true_and] at hopen
      exact ⟨hnone, hopen⟩
    · rw [hcompleted] at hcount
      obtain ⟨answer, honly⟩ := List.length_eq_one_iff.1 hcount
      rw [honly] at hopen ⊢
      cases answer with
      | ok u =>
        refine .inl ⟨rfl, Bool.eq_false_iff.2 fun h => ?_⟩
        exact (hopen.1 h).1.1 (List.mem_singleton_self _)
      | error f =>
        refine .inr ⟨f, rfl, ?_⟩
        simpa using hopen

/-- The cleanup of a transaction fails, and its connection is kept: it stays open until it is dropped. -/
theorem open_connections_exact_refused :
    let systems := Systems.ofStores [("store", .all)]
    let m : SystemsManager := { backend := Systems.Part.backend systems (.store 0) }
    let r := Custody.run m [.call (.store (.fail .cleanup 1)) rfl, .enter 0 {}, .connect 0, .conclude true 0 0]
      { session := Session.ofContexts 1 systems }
    (∃ f, r.answers 0 = [.error f]) ∧ r.keeps 0 = true ∧ (r.session.native.store 0).isOpen 0 = true ∧
      (r.session.native.store 0).openConnections = 1 ∧
      ((r.run m [.drop 0, .forget 0]).session.native.store 0).openConnections = 0 := by
  intro systems m r
  have hspec := (open_connections_exact "store" .all {}).2 1
    [.call (.store (.fail .cleanup 1)) rfl, .enter 0 {}, .connect 0, .conclude true 0 0]
  obtain ⟨t, st, h, x, -, -, -, -, -, hpending, hdone⟩ := hspec.2.2 0 (by decide +kernel)
  have hcount : (r.answers 0).length = 1 := by decide +kernel
  have hfailed : (r.answers 0).all (!·.isOk) = true := by decide +kernel
  have hkept : r.keeps 0 = true := by decide +kernel
  have hcompleted : st.isCompleted = true := by
    cases hopen : st.isCompleted with
    | true => rfl
    | false =>
      have hnone : r.answers 0 = [] := (hpending hopen).1
      rw [hnone] at hcount
      cases hcount
  rcases hdone hcompleted with ⟨hok, -⟩ | ⟨f, hanswers, hopen⟩
  · have hok : r.answers 0 = [.ok ()] := hok
    rw [hok] at hfailed
    cases hfailed
  · exact ⟨⟨f, hanswers⟩, hkept, hopen.2 ⟨by decide +kernel, .inl hkept⟩, by decide +kernel, by decide +kernel⟩

end Demarcation
