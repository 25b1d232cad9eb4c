/-
A connection that may write is a map with constraints, whether it stages its changes in a log or publishes them at
once. As long as nobody else publishes, whatever else is done on the store, it answers as a plain map does.
-/
import Demarcation.Proofs.Store.Views

namespace Demarcation

open Script

/-! ## Plain maps -/

/-- A value for some of the keys. -/
abbrev PlainMap := String → Option Value

namespace PlainMap

def write (V : PlainMap) (w : Write) : PlainMap := fun key => if key = w.key then w.value? else V key

/-- Why an operation is refused, if it is. -/
def refusal? (V : PlainMap) : DataStep → Option StorageError
  | .insert key _ => if (V key).isSome then some (.duplicateKey key) else none
  | .update key _ | .delete key => if (V key).isSome then none else some (.keyNotFound key)
  | .put _ _ | .get _ | .contains _ | .scan _ | .pending => none

/-- The map after an operation; one that is refused changes nothing. -/
def after (V : PlainMap) (d : DataStep) : PlainMap :=
  if (V.refusal? d).isSome then V else d.write?.elim V V.write

def afterAll (V : PlainMap) (ds : List DataStep) : PlainMap := ds.foldl after V

/-- What an operation that is not refused answers. How many changes are pending is no matter of the map. -/
def Finds (V : PlainMap) : DataStep → Answer → Prop
  | .put _ _, a | .insert _ _, a | .update _ _, a | .delete _, a => a = .nothing
  | .get key, a => a = .optional (V key)
  | .contains key, a => a = .truth (V key).isSome
  | .scan start, a => ∃ es : Entries, a = .entries es ∧ es.Ordered ∧
      ∀ key value, (key, value) ∈ es ↔ (∃ rest, key = start ++ rest) ∧ V key = some value
  | .pending, a => ∃ n, a = .number n

/-- What the map answers to an operation. -/
def Answers (V : PlainMap) (d : DataStep) (r : Except StorageError Answer) : Prop :=
  match V.refusal? d with
  | some e => r = .error e
  | none => ∃ a, r = .ok a ∧ V.Finds d a

/-- What the map answers to operations, one after the other. -/
def AnswersAll (V : PlainMap) : List (DataStep × Except StorageError Answer) → Prop
  | [] => True
  | (d, r) :: asked => V.Answers d r ∧ (V.after d).AnswersAll asked

theorem finds_of_write {V : PlainMap} {d : DataStep} {w : Write} (hw : d.write? = some w) : V.Finds d .nothing := by
  cases d with
  | put | insert | update | delete => rfl
  | get | contains | scan | pending => cases hw

theorem after_of_refused {V : PlainMap} {d : DataStep} {e : StorageError} (h : V.refusal? d = some e) :
    V.after d = V := by
  unfold after
  rw [h]
  rfl

theorem after_of_allowed {V : PlainMap} {d : DataStep} (h : V.refusal? d = none) :
    V.after d = d.write?.elim V V.write := by
  unfold after
  rw [h]
  rfl

end PlainMap

namespace Store

variable {s s' : Store} {c : ConnectionId} {conn : Connection} {V : PlainMap} {auto : Bool}

/-! ## Runs that nobody disturbs -/

/-- The calls are operations on a connection's data, or they are made elsewhere and publish nothing. -/
def Undisturbed (c : ConnectionId) : List StoreCall → Store → Prop
  | [], _ => True
  | call :: calls, s =>
    ((∃ d, call = .data c d) ∨ (call.connection? ≠ some c ∧ (call.run s).2.entries = s.entries)) ∧
      Undisturbed c calls (call.run s).2

/-- The operations on a connection's data that are made while it can work, with their answers. -/
def asked (c : ConnectionId) : List StoreCall → Store → List (DataStep × Except StorageError Answer)
  | [], _ => []
  | call :: calls, s =>
    match call with
    | .data k d =>
      if k = c ∧ (s.usable c).isOk then (d, (d.run c s).map Prod.fst) :: asked c calls (call.run s).2
      else asked c calls (call.run s).2
    | _ => asked c calls (call.run s).2

/-! ## Presenting a map -/

/-- A connection that may write sees a map. Nothing is staged on it if it publishes at once. -/
structure Presents (c : ConnectionId) (auto : Bool) (V : PlainMap) (s : Store) : Prop where
  ordered : s.entries.Ordered
  view : ∃ conn, s.connection? c = some conn ∧ conn.readOnly = false ∧ conn.autoCommit = auto ∧
    (auto = true → conn.log = []) ∧ ∀ key, conn.value? s.entries key = V key

namespace Presents

/-- While the connection can work, it is the one that sees the map. -/
theorem usable (h : s.Presents c auto V) (hu : (s.usable c).isOk = true) :
    ∃ conn, s.usable c = .ok conn ∧ conn.readOnly = false ∧ conn.autoCommit = auto ∧
      (auto = true → conn.log = []) ∧ ∀ key, conn.value? s.entries key = V key := by
  obtain ⟨conn, hconn, hview⟩ := h.view
  cases husable : s.usable c with
  | error e => rw [husable] at hu; cases hu
  | ok conn' =>
    cases hconn.symm.trans (usable_ok husable).1
    exact ⟨conn, rfl, hview⟩

theorem get (h : s.Presents c auto V) (hu : (s.usable c).isOk = true) (key : String) : s.get c key = .ok (V key) := by
  obtain ⟨conn, husable, -, -, -, hview⟩ := h.usable hu
  rw [get_of_usable husable, hview]

theorem contains (h : s.Presents c auto V) (hu : (s.usable c).isOk = true) (key : String) :
    s.contains c key = .ok (V key).isSome := by
  unfold Store.contains
  rw [h.get hu]
  rfl

/-- A connection that publishes at once sees the committed entries. -/
theorem published (h : s.Presents c true V) : (∀ key, s.entries.value? key = V key) ∧ s.log c = [] := by
  obtain ⟨conn, hconn, -, -, hnil, hview⟩ := h.view
  have hlog : conn.log = [] := hnil rfl
  constructor
  · intro key
    rw [← hview, conn.value?_eq, hlog]
    rfl
  · rw [log_of_connection hconn, hlog]

/-- A change is made, and seen. -/
theorem write (h : s.Presents c auto V) (hu : (s.usable c).isOk = true) (w : Write) :
    ∃ s', s.write c w = .ok s' ∧ s'.Presents c auto (V.write w) ∧ (s'.usable c).isOk = true ∧
      (auto = false → s'.entries = s.entries) := by
  obtain ⟨conn, husable, hwritable, rfl, hnil, hview⟩ := h.usable hu
  have hconn : s.connection? c = some conn := (usable_ok husable).1
  have hnot : s.isReadOnly c = false := by
    unfold isReadOnly
    rw [hconn]
    exact hwritable
  have hrun : s.write c w =
      if conn.autoCommit then .ok { s with entries := s.entries.apply w }
      else .ok (s.setConnection c { conn with log := conn.log ++ [w] }) := by
    unfold Store.write
    rw [hnot, husable]
    rfl
  have hsees : ∀ key, (s.entries.applyAll conn.log).value? key = V key :=
    fun key => (conn.value?_eq s.entries key).symm.trans (hview key)
  by_cases hauto : conn.autoCommit = true
  · rw [if_pos hauto] at hrun
    refine ⟨_, hrun, ⟨h.ordered.apply w, conn, hconn, hwritable, rfl, hnil, fun key => ?_⟩, hu, ?_⟩
    · rw [hnil hauto] at hsees
      rw [conn.value?_eq, hnil hauto]
      exact (Entries.value?_apply s.entries w key).trans (congrArg (ite (key = w.key) w.value?) (hsees key))
    · intro hstaged
      cases hauto.symm.trans hstaged
  · rw [if_neg hauto] at hrun
    have husable' := usable_setConnection husable { conn with log := conn.log ++ [w] } rfl
    refine ⟨_, hrun, ⟨h.ordered, { conn with log := conn.log ++ [w] }, ?_, hwritable, rfl, ?_, fun key => ?_⟩, ?_, ?_⟩
    · exact (usable_ok husable').1
    · exact fun hpublishes => absurd hpublishes hauto
    · rw [Connection.value?_eq]
      show (s.entries.applyAll (conn.log ++ [w])).value? key = V.write w key
      rw [Entries.applyAll_append]
      exact (Entries.value?_apply _ w key).trans (congrArg (ite (key = w.key) w.value?) (hsees key))
    · rw [husable']
      rfl
    · exact fun _ => rfl

/-! ## Operations on data -/

/-- What is listed are the entries of the map. -/
theorem scan (h : s.Presents c auto V) (hu : (s.usable c).isOk = true) (start : String) :
    ∃ es, s.scan c start = .ok es ∧ es.Ordered ∧
      ∀ key value, (key, value) ∈ es ↔ (∃ rest, key = start ++ rest) ∧ V key = some value := by
  obtain ⟨conn, husable, -⟩ := h.usable hu
  refine ⟨_, scan_of_usable husable start, conn.entries_ordered h.ordered start, fun key value => ?_⟩
  rw [mem_scan_iff h.ordered husable, h.get hu, Except.ok.injEq]

/-- A change is checked against the map, and then it is made. -/
theorem run_of_write (h : s.Presents c auto V) (hu : (s.usable c).isOk = true) {d : DataStep} {w : Write}
    (hw : d.write? = some w) :
    d.run c s = (V.refusal? d).elim ((s.write c w).map fun s' => (.nothing, s')) .error := by
  cases d with
  | put key value =>
    cases hw
    simp only [DataStep.run, Store.put, PlainMap.refusal?]
    cases s.write c (.put key value) <;> rfl
  | insert key value =>
    cases hw
    simp only [DataStep.run, Store.insert, PlainMap.refusal?]
    rw [h.contains hu]
    cases (V key).isSome <;> cases s.write c (.put key value) <;> rfl
  | update key value =>
    cases hw
    simp only [DataStep.run, Store.update, PlainMap.refusal?]
    rw [h.contains hu]
    cases (V key).isSome <;> cases s.write c (.put key value) <;> rfl
  | delete key =>
    cases hw
    simp only [DataStep.run, Store.delete, PlainMap.refusal?]
    rw [h.contains hu]
    cases (V key).isSome <;> cases s.write c (.delete key) <;> rfl
  | get | contains | scan | pending => cases hw

/-- A question is answered from the map, and changes nothing. -/
theorem run_of_read (h : s.Presents c auto V) (hu : (s.usable c).isOk = true) {d : DataStep} (hd : d.write? = none) :
    V.refusal? d = none ∧ ∃ a, d.run c s = .ok (a, s) ∧ V.Finds d a := by
  cases d with
  | put | insert | update | delete => cases hd
  | get key =>
    refine ⟨rfl, .optional (V key), ?_, rfl⟩
    simp only [DataStep.run, h.get hu]
    rfl
  | contains key =>
    refine ⟨rfl, .truth (V key).isSome, ?_, rfl⟩
    simp only [DataStep.run, h.contains hu]
    rfl
  | scan start =>
    obtain ⟨es, hes, hordered, hlisted⟩ := h.scan hu start
    refine ⟨rfl, .entries es, ?_, es, rfl, hordered, hlisted⟩
    simp only [DataStep.run, hes]
    rfl
  | pending => exact ⟨rfl, _, rfl, _, rfl⟩

/-- One operation is answered as the map answers it: it is refused, or it is done. -/
theorem data (h : s.Presents c auto V) (hu : (s.usable c).isOk = true) (d : DataStep) :
    (∃ e, V.refusal? d = some e ∧ d.run c s = .error e) ∨
    (∃ a s', V.refusal? d = none ∧ d.run c s = .ok (a, s') ∧ V.Finds d a ∧
      s'.Presents c auto (V.after d) ∧ (s'.usable c).isOk = true ∧ (auto = false → s'.entries = s.entries)) := by
  cases hw : d.write? with
  | none =>
    obtain ⟨hallowed, a, hrun, hfinds⟩ := h.run_of_read hu hw
    have hafter : V.after d = V := (PlainMap.after_of_allowed hallowed).trans (by rw [hw]; rfl)
    exact .inr ⟨a, s, hallowed, hrun, hfinds, hafter.symm ▸ h, hu, fun _ => rfl⟩
  | some w =>
    have hrun := h.run_of_write hu hw
    cases hrefusal : V.refusal? d with
    | some e =>
      rw [hrefusal] at hrun
      exact .inl ⟨e, rfl, hrun⟩
    | none =>
      obtain ⟨s', hwrite, hs', hu', hentries⟩ := h.write hu w
      have hafter : V.after d = V.write w := (PlainMap.after_of_allowed hrefusal).trans (by rw [hw]; rfl)
      rw [hrefusal, hwrite] at hrun
      exact .inr ⟨.nothing, s', rfl, hrun, PlainMap.finds_of_write hw, hafter.symm ▸ hs', hu', hentries⟩

end Presents

/-! ## One call -/

theorem data_failed {d : DataStep} {e : StorageError} (h : d.run c s = .error e) :
    (StoreCall.data c d).run s = (.error (.storage e), s) := by
  show changing (fun s => (d.run c s).map Prod.snd) s = _
  unfold changing
  dsimp only
  rw [h]
  rfl

theorem data_done {d : DataStep} {a : Answer} (h : d.run c s = .ok (a, s')) :
    (StoreCall.data c d).run s = (.ok (), s') := by
  show changing (fun s => (d.run c s).map Prod.snd) s = _
  unfold changing
  dsimp only
  rw [h]
  rfl

/-- While the connection cannot work, nothing is changed on it. -/
theorem data_unusable (hu : (s.usable c).isOk = false) (d : DataStep) : ((StoreCall.data c d).run s).2 = s := by
  cases hrun : d.run c s with
  | error e => rw [data_failed hrun]
  | ok q =>
    obtain ⟨a, s'⟩ := q
    rw [data_done hrun]
    rcases data_written hrun with rfl | ⟨w, hw⟩
    · rfl
    · unfold Store.write at hw
      split at hw
      · cases hw
      · obtain ⟨conn, husable, -⟩ := except_bind_ok hw
        rw [husable] at hu
        cases hu

namespace Presents

theorem called (h : s.Presents c auto V) (hu : (s.usable c).isOk = true) (d : DataStep) :
    V.Answers d ((d.run c s).map Prod.fst) ∧ ((StoreCall.data c d).run s).2.Presents c auto (V.after d) ∧
      (auto = false → ((StoreCall.data c d).run s).2.entries = s.entries) := by
  unfold PlainMap.Answers
  rcases h.data hu d with ⟨e, hrefusal, hrun⟩ | ⟨a, s', hallowed, hrun, hfinds, hs', -, hentries⟩
  · rw [data_failed hrun, hrefusal, hrun, PlainMap.after_of_refused hrefusal]
    exact ⟨rfl, h, fun _ => rfl⟩
  · rw [data_done hrun, hallowed, hrun]
    exact ⟨⟨a, rfl, hfinds⟩, hs', hentries⟩

/-- A call elsewhere that publishes nothing leaves the map as it is. -/
theorem elsewhere (h : s.Presents c auto V) {call : StoreCall} (hne : call.connection? ≠ some c)
    (hentries : (call.run s).2.entries = s.entries) : (call.run s).2.Presents c auto V := by
  obtain ⟨conn, hconn, hview⟩ := h.view
  refine ⟨hentries ▸ h.ordered, conn, (Keeps.called call s).others c conn hne hconn, ?_⟩
  rw [hentries]
  exact hview

end Presents

/-! ## Whole runs -/

theorem asked_usable (hu : (s.usable c).isOk = true) (d : DataStep) (calls : List StoreCall) :
    asked c (.data c d :: calls) s =
      (d, (d.run c s).map Prod.fst) :: asked c calls ((StoreCall.data c d).run s).2 := if_pos ⟨rfl, hu⟩

theorem asked_unusable (hu : (s.usable c).isOk = false) (d : DataStep) (calls : List StoreCall) :
    asked c (.data c d :: calls) s = asked c calls s := by
  refine (if_neg ?_).trans (by rw [data_unusable hu])
  rintro ⟨-, hu'⟩
  exact absurd (hu.symm.trans hu') (by decide)

theorem asked_elsewhere {call : StoreCall} (hne : call.connection? ≠ some c) (calls : List StoreCall) (s : Store) :
    asked c (call :: calls) s = asked c calls (call.run s).2 := by
  cases call with
  | data k d =>
    refine if_neg ?_
    rintro ⟨rfl, -⟩
    exact hne rfl
  | connect | commit | rollback | savepoint | rollbackTo | release | close | store | primitive => rfl

theorem Presents.ran (h : s.Presents c auto V) (calls : List StoreCall) (hcalls : Undisturbed c calls s) :
    V.AnswersAll (asked c calls s) ∧
      (ran calls s).Presents c auto (V.afterAll ((asked c calls s).map Prod.fst)) ∧
      (auto = false → (ran calls s).entries = s.entries) := by
  induction calls generalizing s V with
  | nil => exact ⟨trivial, h, fun _ => rfl⟩
  | cons call calls ih =>
    obtain ⟨⟨d, rfl⟩ | ⟨hne, hentries⟩, hrest⟩ := hcalls
    · cases hu : (s.usable c).isOk with
      | true =>
        obtain ⟨hanswer, hs', hkept⟩ := h.called hu d
        obtain ⟨hanswers, hfinal, hkeeps⟩ := ih hs' hrest
        rw [asked_usable hu]
        exact ⟨⟨hanswer, hanswers⟩, hfinal, fun hstages => (hkeeps hstages).trans (hkept hstages)⟩
      | false =>
        have hsame := data_unusable hu d
        rw [hsame] at hrest
        rw [asked_unusable hu]
        show _ ∧ (Store.ran calls ((StoreCall.data c d).run s).2).Presents c auto _ ∧
          (_ → (Store.ran calls ((StoreCall.data c d).run s).2).entries = _)
        rw [hsame]
        exact ih h hrest
    · obtain ⟨hanswers, hfinal, hkeeps⟩ := ih (h.elsewhere hne hentries) hrest
      rw [asked_elsewhere hne]
      exact ⟨hanswers, hfinal, fun hstages => (hkeeps hstages).trans hentries⟩

end Store

/-- A connection that can work and may write is a map with constraints, which begins as the committed entries if
nothing is staged on it. An operation is refused exactly if the map refuses it, for the same reason, and then it
changes nothing. Otherwise it answers what the map does, and the connection sees the map as it is then. The committed
entries stay as they were if the connection stages its changes; if not they are the map, and nothing is ever pending.
So it is for any calls in which only this connection's operations publish anything: those made while the connection
can work have the answers of the map. -/
theorem connection_is_map :
    (∀ (name : String) (key : ResourceKey) (capabilities : Capabilities) (calls : List StoreCall),
      (Store.ran calls { name, key, capabilities }).Coherent) ∧
    ∀ (s : Store) (c : ConnectionId) (conn : Connection) (V : PlainMap), s.Coherent → s.connection? c = some conn →
      conn.readOnly = false → (∀ key, s.get c key = .ok (V key)) →
      (conn.log = [] → ∀ key, V key = s.entries.value? key) ∧
      (∀ d, let called := (StoreCall.data c d).run s
        match V.refusal? d with
        | some e => d.run c s = .error e ∧ called = (.error (.storage e), s)
        | none => ∃ a, d.run c s = .ok (a, called.2) ∧ V.Finds d a ∧ ∀ key, called.2.get c key = .ok (V.after d key)) ∧
      ∀ calls, s.Undisturbed c calls →
        let asked := s.asked c calls
        let V' := V.afterAll (asked.map Prod.fst)
        let s' := Store.ran calls s
        V.AnswersAll asked ∧
        ((s'.usable c).isOk = true → ∀ key, s'.get c key = .ok (V' key)) ∧
        (conn.autoCommit = false → s'.entries = s.entries) ∧
        (conn.autoCommit = true → (∀ key, s'.entries.value? key = V' key) ∧ s'.log c = []) := by
  refine ⟨fun name key capabilities calls => (Store.Coherent.start name key capabilities).ran calls, ?_⟩
  intro s c conn V hs hconn hwritable hview
  obtain ⟨conn', hu, -⟩ := except_bind_ok (hview "")
  cases hconn.symm.trans (Store.usable_ok hu).1
  have hsees : ∀ key, conn.value? s.entries key = V key := by
    intro key
    have hget := hview key
    rw [Store.get_of_usable hu, Except.ok.injEq] at hget
    exact hget
  have hpresents : s.Presents c conn.autoCommit V :=
    ⟨hs.ordered, conn, hconn, hwritable, rfl, hs.unstaged c conn hconn, hsees⟩
  have husable : (s.usable c).isOk = true := by
    rw [hu]
    rfl
  refine ⟨fun hnil key => ?_, fun d => ?_, fun calls hcalls => ?_⟩
  · rw [← hsees, conn.value?_eq, hnil]
    rfl
  · rcases hpresents.data husable d with ⟨e, hrefusal, hrun⟩ | ⟨a, s', hallowed, hrun, hfinds, hs', hu', -⟩
    · rw [hrefusal]
      exact ⟨hrun, Store.data_failed hrun⟩
    · rw [hallowed, Store.data_done hrun]
      exact ⟨a, hrun, hfinds, hs'.get hu'⟩
  · obtain ⟨hanswers, hs', hentries⟩ := hpresents.ran calls hcalls
    refine ⟨hanswers, hs'.get, hentries, fun hauto => ?_⟩
    rw [hauto] at hs'
    exact hs'.published

/-- A key that another connection has published is deleted, missed and inserted anew, while the other reads it. -/
theorem connection_is_map_over_deletion :
    let s := Store.ran [.connect false true .unspecified, .connect false false .unspecified, .data 0 (.put "a" .null)]
      { key := ⟨7⟩ }
    let calls : List StoreCall := [.data 1 (.delete "a"), .data 0 (.get "a"), .data 1 (.update "a" .null),
      .data 1 (.insert "a" (.boolean true))]
    let asked := s.asked 1 calls
    let view := PlainMap.afterAll s.entries.value? (asked.map Prod.fst)
    let s' := Store.ran calls s
    s.Coherent ∧ (∀ key, s.get 1 key = .ok (s.entries.value? key)) ∧ s.Undisturbed 1 calls ∧
      asked.map (fun q => q.2.isOk) = [true, false, true] ∧ PlainMap.AnswersAll s.entries.value? asked ∧
      s'.get 1 "a" = .ok (view "a") ∧ (view "a").bind Value.boolean? = some true ∧ s'.entries = [("a", .null)] := by
  intro s calls asked view s'
  have hs : s.Coherent := connection_is_map.1 "memory" ⟨7⟩ .all _
  have hget : ∀ key, s.get 1 key = .ok (s.entries.value? key) := fun _ => rfl
  have hcalls : s.Undisturbed 1 calls :=
    ⟨.inl ⟨_, rfl⟩, .inr ⟨by decide, rfl⟩, .inl ⟨_, rfl⟩, .inl ⟨_, rfl⟩, trivial⟩
  have hconn : s.connection? 1 = some { id := 2 } := rfl
  have hrun := (connection_is_map.2 s 1 { id := 2 } s.entries.value? hs hconn rfl hget).2.2 calls hcalls
  have hsees : s'.get 1 "a" = .ok (view "a") := hrun.2.1 (by decide +kernel) "a"
  have hentries : s'.entries = [("a", .null)] := hrun.2.2.1 rfl
  exact ⟨hs, hget, hcalls, by decide +kernel, hrun.1, hsees, by decide +kernel, hentries⟩

end Demarcation
