/-
What a connection sees: the committed entries under its own staged changes. Reading a key, listing keys and
publishing agree on it, on every store that calls can lead to and on every other one in order.
-/
import Demarcation.Proofs.Store.Entries
import Demarcation.Proofs.Store.Rewinding

namespace Demarcation

open Text

/-! ## What a connection sees -/

namespace Connection

variable {committed : Entries}

/-- A key is seen as it will be once everything staged is published. -/
theorem value?_eq (conn : Connection) (committed : Entries) (key : String) :
    conn.value? committed key = (committed.applyAll conn.log).value? key := by
  rw [Entries.value?_applyAll]
  rfl

theorem entries_eq (conn : Connection) (committed : Entries) (start : String) :
    conn.entries committed start =
      (committed.startingWith start).applyAll (conn.log.filter fun w => Entries.covers start w.key) := rfl

theorem entries_ordered (conn : Connection) (h : committed.Ordered) (start : String) :
    (conn.entries committed start).Ordered := (h.startingWith start).applyAll _

/-- The last staged change of a key is among those of the keys that begin with a text, if the key does. -/
theorem staged_covered (log : List Write) (start key : String) :
    ((log.filter fun w => Entries.covers start w.key).reverse.find? fun w => w.key == key) =
      if Entries.covers start key then log.reverse.find? fun w => w.key == key else none := by
  rw [← List.filter_reverse, List.find?_filter]
  split
  · rename_i hcovers
    congr 1
    funext w
    by_cases hw : w.key = key <;> simp [hw, hcovers]
  · rename_i hcovers
    refine List.find?_eq_none.2 fun w _ hw => ?_
    simp only [decide_eq_true_eq, beq_iff_eq] at hw
    exact hcovers (hw.2 ▸ hw.1)

/-- What is listed is what is seen of the keys that begin with the text. -/
theorem value?_entries (conn : Connection) (h : committed.Ordered) (start key : String) :
    (conn.entries committed start).value? key =
      if Entries.covers start key then conn.value? committed key else none := by
  rw [entries_eq, Entries.value?_applyAll, h.value?_startingWith, staged_covered]
  by_cases hcovers : Entries.covers start key = true
  · simp only [hcovers, if_true]
    rfl
  · simp [hcovers]

end Connection

namespace Store

variable {s s' : Store} {c k : ConnectionId} {conn conn' : Connection}

/-! ## Stores that calls lead to -/

/-- The entries are in order, and nothing is staged on a connection that publishes at once. -/
structure Coherent (s : Store) : Prop where
  ordered : s.entries.Ordered
  unstaged : ∀ c conn, s.connection? c = some conn → conn.autoCommit = true → conn.log = []

theorem effect_ordered (h : s.entries.Ordered) (e : StoreEffect) : (e.entries s).Ordered := by
  cases e with
  | published w => exact h.apply w
  | committed c => exact h.applyAll (s.log c)
  | nothing | staged | dropped => exact h

/-- A call that stages a change is made on a connection that does not publish at once. -/
theorem effect_staged {call : StoreCall} {w : Write} (h : call.effect s = .staged c w) :
    (s.connection? c).any Connection.autoCommit = false := by
  induction call with
  | data k d =>
    unfold StoreCall.effect at h
    cases hw : d.write? with
    | none => rw [hw] at h; cases h
    | some w' =>
      rw [hw] at h
      dsimp only [Option.elim] at h
      split at h
      · cases h
      · rename_i hauto
        cases h
        exact Bool.eq_false_iff.2 hauto
  | close k =>
    unfold StoreCall.effect at h
    split at h <;> cases h
  | primitive p call ih => exact ih h
  | connect | commit | rollback | savepoint | rollbackTo | release | store => cases h

/-- An effect that stages nothing on a connection leaves nothing there if there was nothing. -/
theorem effect_log_nil {e : StoreEffect} (h : s.log c = []) (hstaged : ∀ w, e ≠ .staged c w) : e.log s c = [] := by
  cases e with
  | nothing | published => exact h
  | staged k w =>
    have hne : c ≠ k := by
      rintro rfl
      exact hstaged w rfl
    show (if c = k then s.log c ++ [w] else s.log c) = []
    rw [if_neg hne, h]
  | committed k =>
    show (if c = k then [] else s.log c) = []
    rw [h, ite_self]
  | dropped k keep =>
    show (if c = k then (s.log c).take keep else s.log c) = []
    rw [h, List.take_nil, ite_self]

theorem Coherent.called (hs : s.Coherent) (call : StoreCall) : (call.run s).2.Coherent := by
  have hkeeps := Keeps.called call s
  constructor
  · rcases hrun : call.run s with ⟨f | ⟨⟩, s'⟩
    · rw [(StoreCall.run_error hrun).entries]
      exact hs.ordered
    · rw [(StoreCall.run_ok hrun).entries]
      exact effect_ordered hs.ordered _
  · intro k conn' hconn' hauto
    cases hconn : s.connection? k with
    | none => exact (hkeeps.opened k conn' hconn' hconn).2
    | some conn =>
      obtain ⟨conn₁, hconn₁, hmode⟩ := hkeeps.mode k conn hconn
      cases hconn₁.symm.trans hconn'
      have hauto' : conn.autoCommit = true := (congrArg ConnectionMode.autoCommit hmode).symm.trans hauto
      have hnil : s.log k = [] := (log_of_connection hconn).trans (hs.unstaged k conn hconn hauto')
      rw [← log_of_connection hconn']
      rcases hrun : call.run s with ⟨f | ⟨⟩, s'⟩
      · rw [(StoreCall.run_error hrun).log]
        exact hnil
      · rw [(StoreCall.run_ok hrun).log]
        refine effect_log_nil hnil fun w hw => ?_
        have hnot := effect_staged hw
        rw [hconn] at hnot
        exact absurd (hauto'.symm.trans hnot) (by decide)

theorem Coherent.ran (hs : s.Coherent) (calls : List StoreCall) : (ran calls s).Coherent := by
  induction calls generalizing s with
  | nil => exact hs
  | cons call calls ih => exact ih (hs.called call)

theorem Coherent.start (name : String) (key : ResourceKey) (capabilities : Capabilities) :
    Coherent { name, key, capabilities } := by
  refine ⟨.nil, fun c conn hconn => ?_⟩
  cases hconn

/-! ## Asking for keys and listing them -/

theorem get_of_usable (hu : s.usable c = .ok conn) (key : String) :
    s.get c key = .ok (conn.value? s.entries key) := by
  unfold get
  rw [hu]
  rfl

theorem scan_of_usable (hu : s.usable c = .ok conn) (start : String) :
    s.scan c start = .ok (conn.entries s.entries start) := by
  unfold scan
  rw [hu]
  rfl

/-- Listing and asking are refused together, and for the same reason. -/
theorem scan_error_iff {start key : String} {e : StorageError} :
    s.scan c start = .error e ↔ s.get c key = .error e := by
  cases hu : s.usable c with
  | error e' =>
    unfold scan get
    rw [hu]
    constructor
    · rintro ⟨⟩
      rfl
    · rintro ⟨⟩
      rfl
  | ok conn =>
    rw [scan_of_usable hu, get_of_usable hu]
    constructor
    · rintro ⟨⟩
    · rintro ⟨⟩

/-- What is listed are the entries that asking for their keys finds. -/
theorem mem_scan_iff (h : s.entries.Ordered) (hu : s.usable c = .ok conn) (start key : String) (value : Value) :
    (key, value) ∈ conn.entries s.entries start ↔
      (∃ rest, key = start ++ rest) ∧ s.get c key = .ok (some value) := by
  rw [(conn.entries_ordered h start).mem_iff, conn.value?_entries h, get_of_usable hu, ← Entries.covers_iff]
  by_cases hcovers : Entries.covers start key = true <;> simp [hcovers]

/-! ## Publishing -/

theorem usable_setConnection (hu : s.usable c = .ok conn) (conn' : Connection) (hclosed : conn'.closed = conn.closed) :
    (s.setConnection c conn').usable c = .ok conn' := by
  obtain ⟨hconn, hopen, hbusy⟩ := usable_ok hu
  unfold usable
  rw [connection?_setConnection, if_pos rfl, hconn]
  show (if conn'.closed then _ else if s.busy then _ else _) = _
  rw [hclosed, hopen, hbusy]
  rfl

/-- A commit is refused because the connection cannot work, or it publishes what is staged. -/
theorem commit_cases (s : Store) (c : ConnectionId) :
    (∃ e, s.usable c = .error e ∧ (StoreCall.commit c).run s = (.error (.storage e), s)) ∨
    (∃ conn, s.usable c = .ok conn ∧ (StoreCall.commit c).run s =
      (.ok (), { s.setConnection c { conn with log := [] } with entries := s.entries.applyAll conn.log })) := by
  have hrun : (StoreCall.commit c).run s = changing (·.commit c) s := rfl
  unfold changing commit at hrun
  dsimp only [Bind.bind, Except.bind] at hrun
  cases hu : s.usable c with
  | error e =>
    rw [hu] at hrun
    exact .inl ⟨e, rfl, hrun⟩
  | ok conn =>
    rw [hu] at hrun
    exact .inr ⟨conn, rfl, hrun⟩

end Store

/-- Listing keys agrees with asking for them one by one, on every store in order, and so on every store that any
calls lead to. Both are refused together. What is listed is in strictly increasing order of the bytes of the
keys, and it is each entry that begins with the text and that the connection sees, and nothing else. -/
theorem scan_agrees_with_get :
    (∀ (name : String) (key : ResourceKey) (capabilities : Capabilities) (calls : List StoreCall),
      (Store.ran calls { name, key, capabilities }).entries.Ordered) ∧
    ∀ (s : Store) (c : ConnectionId) (start : String), s.entries.Ordered →
      (∀ key e, s.scan c start = .error e ↔ s.get c key = .error e) ∧
      ∀ es, s.scan c start = .ok es →
        es.Pairwise (fun a b => bytes a.1 < bytes b.1) ∧
        ∀ key value, (key, value) ∈ es ↔ (∃ rest, key = start ++ rest) ∧ s.get c key = .ok (some value) := by
  constructor
  · intro name key capabilities calls
    exact ((Store.Coherent.start name key capabilities).ran calls).ordered
  · intro s c start hs
    refine ⟨fun key e => Store.scan_error_iff, fun es hes => ?_⟩
    obtain ⟨conn, hu, heq⟩ := except_bind_ok hes
    cases heq
    constructor
    · refine (conn.entries_ordered hs start).imp ?_
      intro a b hab
      exact lt_iff_bytes_lt.1 hab
    · intro key value
      exact Store.mem_scan_iff hs hu start key value

/-- Among the committed keys that begin with "a" one is deleted, and another is staged. -/
theorem scan_merges_staged :
    let s := Store.ran [.connect false true .unspecified, .connect false false .unspecified,
      .data 0 (.put "b" .null), .data 0 (.put "aé" (.boolean true)), .data 0 (.put "aa" .null),
      .data 1 (.delete "aa"), .data 1 (.put "a" .null), .data 1 (.put "b" .null), .data 1 (.put "a" (.boolean true))]
      { key := ⟨7⟩ }
    s.entries.Ordered ∧ s.scan 1 "a" = .ok [("a", .boolean true), ("aé", .boolean true)] ∧
      s.get 1 "aé" = .ok (some (.boolean true)) := by
  intro s
  have hs : s.entries.Ordered := scan_agrees_with_get.1 "memory" ⟨7⟩ .all _
  have hscan : s.scan 1 "a" = .ok [("a", .boolean true), ("aé", .boolean true)] := rfl
  obtain ⟨-, hlisted⟩ := (scan_agrees_with_get.2 s 1 "a" hs).2 _ hscan
  exact ⟨hs, hscan, ((hlisted "aé" (.boolean true)).1 (by simp)).2⟩

/-- A commit succeeds exactly if the connection can work. It gives every key the value that the connection saw, and
still sees, and leaves nothing staged. A commit that fails changes nothing. -/
theorem commit_publishes_view (s : Store) (c : ConnectionId) :
    let committed := (StoreCall.commit c).run s
    (committed.1 = .ok () ↔ (s.usable c).isOk = true) ∧
    (committed.1 = .ok () →
      (∀ key, s.get c key = .ok (committed.2.entries.value? key) ∧ committed.2.get c key = s.get c key) ∧
      ∃ conn, committed.2.connection? c = some conn ∧ conn.pending = 0) ∧
    (∀ f, committed.1 = .error f → committed.2 = s) := by
  intro committed
  have hcommitted : committed = (StoreCall.commit c).run s := rfl
  clear_value committed
  rcases Store.commit_cases s c with ⟨e, hu, hrun⟩ | ⟨conn, hu, hrun⟩
  · obtain rfl := hcommitted.trans hrun
    rw [hu]
    exact ⟨⟨nofun, nofun⟩, nofun, fun _ _ => rfl⟩
  · obtain rfl := hcommitted.trans hrun
    have hu' := Store.usable_setConnection hu { conn with log := [] } rfl
    refine ⟨by simp [hu, Except.isOk, Except.toBool], fun _ => ⟨fun key => ?_, ?_⟩, nofun⟩
    · -- nothing is staged any more, so the committed value is seen
      have hafter : ({ s.setConnection c { conn with log := [] } with entries := s.entries.applyAll conn.log } :
          Store).usable c = .ok { conn with log := [] } := hu'
      rw [Store.get_of_usable hu, Store.get_of_usable hafter, conn.value?_eq]
      exact ⟨rfl, rfl⟩
    · refine ⟨{ conn with log := [] }, ?_, rfl⟩
      exact (Store.usable_ok hu').1

end Demarcation
