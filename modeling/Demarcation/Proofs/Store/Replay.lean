/-
The committed entries of a store as a replay. A chronicle numbers the changes in the order in which they
are made and follows each of them: it is staged on a connection, published, or discarded. Read in order,
what was published gives the entries of the store.
-/
import Demarcation.Proofs.Store.Logs

namespace Demarcation

/-! ## Calls on a store -/

/-- A call on a store, on one of its connections, or on the store itself. -/
inductive StoreCall
  | connect (readOnly autoCommit : Bool) (isolation : Isolation)
  | data (c : ConnectionId) (d : Script.DataStep)
  | commit (c : ConnectionId)
  | rollback (c : ConnectionId)
  | savepoint (c : ConnectionId)
  | rollbackTo (c : ConnectionId) (sp : Savepoint)
  | release (c : ConnectionId) (sp : Savepoint)
  /-- A connection is closed, or it is dropped. -/
  | close (c : ConnectionId)
  /-- The store becomes busy or free again, or failures are planned for its primitives. -/
  | store (step : Script.StoreStep)
  /-- A call within a primitive, which is counted and fails if that is planned. -/
  | primitive (p : Primitive) (call : StoreCall)

/-- What becomes of the changes on a store by a call that succeeds. -/
inductive StoreEffect
  | nothing
  /-- A change is made and published at once. -/
  | published (w : Write)
  | staged (c : ConnectionId) (w : Write)
  /-- Everything staged on a connection is published. -/
  | committed (c : ConnectionId)
  /-- Everything staged on a connection is discarded, but for the first changes. -/
  | dropped (c : ConnectionId) (keep : Nat)

namespace StoreCall

def run : StoreCall → Native Store Unit
  | connect readOnly autoCommit isolation => fun s => (.ok (), (s.connect readOnly autoCommit isolation).2)
  | data c d => Store.changing fun s => (d.run c s).map Prod.snd
  | commit c => Store.changing (·.commit c)
  | rollback c => Store.changing (·.rollback c)
  | savepoint c => Store.changing fun s => (s.savepoint c).map Prod.snd
  | rollbackTo c sp => Store.changing (·.rollbackTo c sp)
  | release c sp => Store.changing fun s => (s.release c sp).map fun _ => s
  | close c => fun s => (.ok (), s.close c)
  | store step => fun s => (.ok (), (step.run s).2)
  | primitive p call => Store.primitive p call.run

/-- The connection that a call is made on. -/
def connection? : StoreCall → Option ConnectionId
  | data c _ | commit c | rollback c | savepoint c | rollbackTo c _ | release c _ | close c => some c
  | connect _ _ _ | store _ => none
  | primitive _ call => call.connection?

/-- What a call does if it succeeds. Whether a change is published at once is a matter of the mode in which
the connection was opened, and closing a connection again does nothing. -/
def effect (s : Store) : StoreCall → StoreEffect
  | data c d => d.write?.elim .nothing fun w =>
      if (s.connection? c).any Connection.autoCommit then .published w else .staged c w
  | commit c => .committed c
  | rollback c => .dropped c 0
  | rollbackTo c sp => .dropped c sp.mark
  | close c => if (s.connection? c).all Connection.closed then .nothing else .dropped c 0
  | connect _ _ _ | savepoint _ | release _ _ | store _ => .nothing
  | primitive _ call => call.effect s

end StoreCall

namespace StoreEffect

/-- The committed entries after an effect. -/
def entries (s : Store) : StoreEffect → Entries
  | published w => s.entries.apply w
  | committed c => s.entries.applyAll (s.log c)
  | nothing | staged _ _ | dropped _ _ => s.entries

/-- What is staged on a connection after an effect. -/
def log (s : Store) (k : ConnectionId) : StoreEffect → List Write
  | nothing | published _ => s.log k
  | staged c w => if k = c then s.log k ++ [w] else s.log k
  | committed c => if k = c then [] else s.log k
  | dropped c keep => if k = c then (s.log k).take keep else s.log k

end StoreEffect

/-! ## What a call does to the entries and the logs -/

namespace Store

variable {s s' : Store} {c k : ConnectionId} {conn : Connection}

/-- The store is left as an effect says. -/
structure Shows (s : Store) (e : StoreEffect) (s' : Store) : Prop where
  entries : s'.entries = e.entries s
  log : ∀ k, s'.log k = e.log s k

theorem Shows.nothing (hentries : s'.entries = s.entries) (hlog : s'.log = s.log) : Shows s .nothing s' :=
  ⟨hentries, fun k => congrFun hlog k⟩

theorem Shows.of_staging (hentries : s'.entries = s.entries) (hsame : s'.staging = s.staging) :
    Shows s .nothing s' :=
  .nothing hentries (congrArg Prod.fst hsame)

/-- What is staged on a connection has been cut off behind its first changes. -/
theorem Shows.dropped (hconn : s.connection? c = some conn) {conn' : Connection} {keep : Nat}
    (hlog : conn'.log = conn.log.take keep) : Shows s (.dropped c keep) (s.setConnection c conn') := by
  refine ⟨rfl, fun k => ?_⟩
  show (s.setConnection c conn').log k = if k = c then (s.log k).take keep else s.log k
  rw [log_setConnection hconn]
  by_cases hk : k = c
  · simp only [hk, if_true]
    rw [hlog, log_of_connection hconn]
  · simp [hk]

theorem Shows.write {w : Write} (h : s.write c w = .ok s') :
    Shows s (if (s.connection? c).any Connection.autoCommit then .published w else .staged c w) s' := by
  unfold Store.write at h
  split at h
  · cases h
  · obtain ⟨conn, hu, h⟩ := except_bind_ok h
    obtain ⟨hconn, -, -⟩ := usable_ok hu
    rw [hconn]
    show Shows s (if conn.autoCommit then .published w else .staged c w) s'
    split at h
    · rename_i hauto
      cases h
      rw [if_pos hauto]
      exact ⟨rfl, fun _ => rfl⟩
    · rename_i hauto
      cases h
      rw [if_neg hauto]
      refine ⟨rfl, fun k => ?_⟩
      rw [log_setConnection hconn]
      show _ = if k = c then s.log k ++ [w] else s.log k
      by_cases hk : k = c
      · simp only [hk, if_true]
        rw [log_of_connection hconn]
      · simp [hk]

theorem Shows.data {d : Script.DataStep} {a : Script.Answer} (h : d.run c s = .ok (a, s')) :
    Shows s ((StoreCall.data c d).effect s) s' := by
  have hrun := data_run h
  unfold StoreCall.effect
  cases hw : d.write? with
  | none =>
    rw [hw] at hrun
    obtain rfl : s' = s := hrun
    exact .nothing rfl rfl
  | some w =>
    rw [hw] at hrun
    exact .write hrun

theorem Shows.commit (h : s.commit c = .ok s') : Shows s (.committed c) s' := by
  obtain ⟨conn, hu, hs⟩ := except_bind_ok h
  obtain ⟨hconn, -, -⟩ := usable_ok hu
  cases hs
  refine ⟨?_, fun k => ?_⟩
  · show s.entries.applyAll conn.log = s.entries.applyAll (s.log c)
    rw [log_of_connection hconn]
  · exact log_setConnection hconn _ k

theorem Shows.rollback (h : s.rollback c = .ok s') : Shows s (.dropped c 0) s' := by
  obtain ⟨conn, hu, hs⟩ := except_bind_ok h
  cases hs
  exact .dropped (usable_ok hu).1 rfl

theorem Shows.rollbackTo {sp : Savepoint} (h : s.rollbackTo c sp = .ok s') : Shows s (.dropped c sp.mark) s' := by
  obtain ⟨_, _, h⟩ := except_bind_ok h
  obtain ⟨conn, hu, h⟩ := except_bind_ok h
  split at h <;> cases h
  exact .dropped (usable_ok hu).1 rfl

theorem Shows.close (s : Store) (c : ConnectionId) : Shows s ((StoreCall.close c).effect s) (s.close c) := by
  unfold Store.close StoreCall.effect
  cases hconn : s.connection? c with
  | none => exact .nothing rfl rfl
  | some conn =>
    show Shows s (if conn.closed then .nothing else .dropped c 0) (if conn.closed then s else _)
    split
    · exact .nothing rfl rfl
    · have hset : Shows s (.dropped c 0) (s.setConnection c { conn with closed := true, log := [] }) :=
        .dropped hconn rfl
      exact ⟨hset.entries, hset.log⟩

end Store

namespace StoreCall

variable {s s' : Store} {p : Primitive}

theorem changing_ok {op : Store → Except StorageError Store} (h : Store.changing op s = (.ok (), s')) :
    op s = .ok s' := by
  unfold Store.changing at h
  cases hop : op s with
  | error e => rw [hop] at h; cases h
  | ok s₁ => rw [hop] at h; cases h; rfl

theorem changing_error {op : Store → Except StorageError Store} {f : Failure}
    (h : Store.changing op s = (.error f, s')) : s' = s := by
  unfold Store.changing at h
  cases hop : op s with
  | error e => rw [hop] at h; cases h; rfl
  | ok s₁ => rw [hop] at h; cases h

theorem effect_counted (call : StoreCall) (s : Store) (p : Primitive) :
    call.effect (s.counted p) = call.effect s := by
  induction call with
  | primitive _ call ih => exact ih
  | _ => rfl

/-- A call that succeeds has the effect that it should have. -/
theorem run_ok {call : StoreCall} (h : call.run s = (.ok (), s')) : s.Shows (call.effect s) s' := by
  induction call generalizing s with
  | connect readOnly autoCommit isolation =>
    cases h
    exact .nothing rfl (funext fun k => Store.log_connect s readOnly autoCommit isolation k)
  | data c d =>
    obtain ⟨⟨a, s₁⟩, hrun, rfl⟩ := except_map_ok (changing_ok h)
    exact .data hrun
  | commit c => exact .commit (changing_ok h)
  | rollback c => exact .rollback (changing_ok h)
  | savepoint c =>
    obtain ⟨⟨sp, s₁⟩, hrun, rfl⟩ := except_map_ok (changing_ok h)
    obtain ⟨conn, hu, hs⟩ := except_bind_ok hrun
    cases hs
    exact .of_staging rfl (Store.staging_setConnection (Store.usable_ok hu).1 rfl)
  | rollbackTo c sp => exact .rollbackTo (changing_ok h)
  | release c sp =>
    obtain ⟨_, _, rfl⟩ := except_map_ok (changing_ok h)
    exact .nothing rfl rfl
  | close c => cases h; exact .close s c
  | store step => cases h; cases step <;> exact .nothing rfl rfl
  | primitive p call ih =>
    have hshows := ih (Store.primitive_ok h)
    rw [effect_counted] at hshows
    exact ⟨hshows.entries, hshows.log⟩

/-- A call that fails leaves the entries and the logs alone. -/
theorem run_error {call : StoreCall} {f : Failure} (h : call.run s = (.error f, s')) :
    s.Shows .nothing s' := by
  induction call generalizing s with
  | connect | close | store => cases h
  | data | commit | rollback | savepoint | rollbackTo | release =>
    obtain rfl := changing_error h
    exact .nothing rfl rfl
  | primitive p call ih =>
    rcases Store.primitive_cases p call.run s with hp | hp
    · cases hp.symm.trans h
      exact .nothing rfl rfl
    · have hshows := ih (hp.symm.trans h)
      exact ⟨hshows.entries, hshows.log⟩

/-- A call changes the log of its connection at most. -/
theorem effect_other (call : StoreCall) (s : Store) {k : ConnectionId} (hk : call.connection? ≠ some k) :
    (call.effect s).log s k = s.log k := by
  induction call with
  | connect | savepoint | release | store => rfl
  | data c d =>
    have hne : k ≠ c := fun heq => hk (congrArg some heq.symm)
    unfold effect
    cases d.write? with
    | none => rfl
    | some w =>
      show (if (s.connection? c).any Connection.autoCommit then StoreEffect.published w else .staged c w).log s k = _
      split
      · rfl
      · exact if_neg hne
  | commit c | rollback c | rollbackTo c =>
    have hne : k ≠ c := fun heq => hk (congrArg some heq.symm)
    exact if_neg hne
  | close c =>
    have hne : k ≠ c := fun heq => hk (congrArg some heq.symm)
    unfold effect
    split
    · rfl
    · exact if_neg hne
  | primitive p call ih => exact ih hk

end StoreCall

/-! ## Chronicles -/

/-- Where a change is. -/
inductive Place
  | staged (c : ConnectionId)
  | published
  | discarded
deriving DecidableEq

/-- The changes made on a store, numbered as they were made. At each place they stand in the order in which
they came there. -/
structure Chronicle where
  made : Nat := 0
  writes : Place → List (Nat × Write) := fun _ => []

namespace Chronicle

/-- The chronicle with one more change. -/
def add (h : Chronicle) (p : Place) (w : Write) : Chronicle where
  made := h.made + 1
  writes q := if q = p then h.writes q ++ [(h.made, w)] else h.writes q

/-- The chronicle with what is staged on a connection moved elsewhere, but for the first changes. -/
def move (h : Chronicle) (c : ConnectionId) (keep : Nat) (p : Place) : Chronicle where
  made := h.made
  writes q :=
    if q = .staged c then (h.writes q).take keep
    else if q = p then h.writes q ++ (h.writes (.staged c)).drop keep
    else h.writes q

def note (h : Chronicle) : StoreEffect → Chronicle
  | .nothing => h
  | .published w => h.add .published w
  | .staged c w => h.add (.staged c) w
  | .committed c => h.move c 0 .published
  | .dropped c keep => h.move c keep .discarded

/-- The numbers of the changes at a place. -/
def numbers (h : Chronicle) (p : Place) : List Nat := (h.writes p).map Prod.fst

/-- The changes at a place, in order. -/
def changes (h : Chronicle) (p : Place) : List Write := (h.writes p).map Prod.snd

/-- Every change is at one place only, and there once. -/
structure Single (h : Chronicle) : Prop where
  made : ∀ p, ∀ n ∈ h.numbers p, n < h.made
  once : ∀ p, (h.numbers p).Nodup
  apart : ∀ p q n, n ∈ h.numbers p → n ∈ h.numbers q → p = q

variable {h : Chronicle} {p q : Place} {c : ConnectionId} {keep : Nat} {w : Write}

/-- A change that is added comes last at its place. -/
theorem map_add {β : Type} (f : Nat × Write → β) (h : Chronicle) (p : Place) (w : Write) (q : Place) :
    ((h.add p w).writes q).map f =
      if q = p then (h.writes q).map f ++ [f (h.made, w)] else (h.writes q).map f := by
  unfold add
  by_cases hq : q = p
  · simp [hq]
  · simp [hq]

/-- Changes that are moved come last, in their order. -/
theorem map_move {β : Type} (f : Nat × Write → β) (h : Chronicle) (c : ConnectionId) (keep : Nat) (p q : Place) :
    ((h.move c keep p).writes q).map f =
      if q = .staged c then ((h.writes q).map f).take keep
      else if q = p then (h.writes q).map f ++ ((h.writes (.staged c)).map f).drop keep
      else (h.writes q).map f := by
  unfold move
  dsimp only
  split
  · exact List.map_take
  · split
    · rw [List.map_append, List.map_drop]
    · rfl

theorem mem_numbers_add {n : Nat} (hn : n ∈ (h.add p w).numbers q) :
    n ∈ h.numbers q ∨ (q = p ∧ n = h.made) := by
  unfold numbers at hn
  rw [map_add] at hn
  split at hn
  · rename_i hq
    rcases List.mem_append.1 hn with hold | hnew
    · exact .inl hold
    · exact .inr ⟨hq, List.mem_singleton.1 hnew⟩
  · exact .inl hn

/-- A change at a place was there, or it has just been moved there. -/
theorem mem_numbers_move {n : Nat} (hn : n ∈ (h.move c keep p).numbers q) :
    (n ∈ h.numbers q ∧ (q = .staged c → n ∈ (h.numbers (.staged c)).take keep)) ∨
    (q = p ∧ q ≠ .staged c ∧ n ∈ (h.numbers (.staged c)).drop keep) := by
  unfold numbers at hn
  rw [map_move] at hn
  split at hn
  · rename_i hq
    subst hq
    exact .inl ⟨List.mem_of_mem_take hn, fun _ => hn⟩
  · rename_i hq
    split at hn
    · rename_i hp
      rcases List.mem_append.1 hn with hold | hmoved
      · exact .inl ⟨hold, fun heq => absurd heq hq⟩
      · exact .inr ⟨hp, hq, hmoved⟩
    · exact .inl ⟨hn, fun heq => absurd heq hq⟩

theorem Single.start : Single {} := by
  refine ⟨?_, fun _ => List.nodup_nil, ?_⟩
  · intro p n hn
    cases hn
  · intro p q n hn
    cases hn

theorem Single.add (hs : h.Single) (p : Place) (w : Write) : (h.add p w).Single := by
  refine ⟨?_, ?_, ?_⟩
  · intro q n hn
    show n < h.made + 1
    rcases mem_numbers_add hn with hold | ⟨-, rfl⟩
    · have hlt := hs.made q n hold
      omega
    · omega
  · intro q
    unfold numbers
    rw [map_add]
    split
    · refine List.nodup_append.2 ⟨hs.once q, by simp, ?_⟩
      rintro n hn _ hm rfl
      obtain rfl := List.mem_singleton.1 hm
      exact Nat.lt_irrefl _ (hs.made q _ hn)
    · exact hs.once q
  · intro q q' n hn hn'
    rcases mem_numbers_add hn with hold | ⟨rfl, rfl⟩
    · rcases mem_numbers_add hn' with hold' | ⟨rfl, rfl⟩
      · exact hs.apart q q' n hold hold'
      · exact absurd (hs.made q _ hold) (Nat.lt_irrefl _)
    · rcases mem_numbers_add hn' with hold' | ⟨rfl, -⟩
      · exact absurd (hs.made q' _ hold') (Nat.lt_irrefl _)
      · rfl

theorem Single.move (hs : h.Single) (c : ConnectionId) (keep : Nat) (p : Place) : (h.move c keep p).Single := by
  -- a change that is moved was staged, and is none of those that stay staged
  have hsplit : ∀ n ∈ (h.numbers (.staged c)).take keep, n ∉ (h.numbers (.staged c)).drop keep := by
    intro n htake hdrop
    have hnodup := hs.once (.staged c)
    rw [← List.take_append_drop keep (h.numbers (.staged c))] at hnodup
    exact (List.nodup_append.1 hnodup).2.2 n htake n hdrop rfl
  refine ⟨?_, ?_, ?_⟩
  · intro q n hn
    rcases mem_numbers_move hn with ⟨hold, -⟩ | ⟨-, -, hmoved⟩
    · exact hs.made q n hold
    · exact hs.made (.staged c) n (List.mem_of_mem_drop hmoved)
  · intro q
    unfold numbers
    rw [map_move]
    split
    · exact (hs.once q).sublist (List.take_sublist ..)
    · rename_i hq
      split
      · refine List.nodup_append.2 ⟨hs.once q, (hs.once (.staged c)).sublist (List.drop_sublist ..), ?_⟩
        rintro n hn _ hm rfl
        exact hq (hs.apart q (.staged c) n hn (List.mem_of_mem_drop hm))
      · exact hs.once q
  · intro q q' n hn hn'
    rcases mem_numbers_move hn with ⟨hold, hkept⟩ | ⟨rfl, hq, hmoved⟩
    · rcases mem_numbers_move hn' with ⟨hold', -⟩ | ⟨rfl, -, hmoved'⟩
      · exact hs.apart q q' n hold hold'
      · obtain rfl := hs.apart q (.staged c) n hold (List.mem_of_mem_drop hmoved')
        exact absurd hmoved' (hsplit n (hkept rfl))
    · rcases mem_numbers_move hn' with ⟨hold', hkept'⟩ | ⟨rfl, -, -⟩
      · obtain rfl := hs.apart q' (.staged c) n hold' (List.mem_of_mem_drop hmoved)
        exact absurd hmoved (hsplit n (hkept' rfl))
      · rfl

theorem Single.note (hs : h.Single) (e : StoreEffect) : (h.note e).Single := by
  cases e with
  | nothing => exact hs
  | published w => exact hs.add _ w
  | staged c w => exact hs.add _ w
  | committed c => exact hs.move c 0 _
  | dropped c keep => exact hs.move c keep _

/-- What was published or discarded stays so. -/
theorem prefix_note (h : Chronicle) (e : StoreEffect) {p : Place} (hp : ∀ c, p ≠ .staged c) :
    h.writes p <+: (h.note e).writes p := by
  have hadd : ∀ q w, h.writes p <+: (h.add q w).writes p := by
    intro q w
    show h.writes p <+: if p = q then h.writes p ++ [(h.made, w)] else h.writes p
    split
    · exact List.prefix_append ..
    · exact List.prefix_refl _
  have hmove : ∀ c keep q, h.writes p <+: (h.move c keep q).writes p := by
    intro c keep q
    show h.writes p <+: if p = .staged c then _ else if p = q then _ else _
    rw [if_neg (hp c)]
    split
    · exact List.prefix_append ..
    · exact List.prefix_refl _
  cases e with
  | nothing => exact List.prefix_refl _
  | published w => exact hadd _ w
  | staged c w => exact hadd _ w
  | committed c => exact hmove c 0 _
  | dropped c keep => exact hmove c keep _

end Chronicle

/-! ## Stores with their chronicles -/

/-- A store, and the chronicle of its changes. -/
structure StoreHistory where
  store : Store
  chronicle : Chronicle := {}

theorem Entries.applyAll_append (es : Entries) (log log' : List Write) :
    es.applyAll (log ++ log') = (es.applyAll log).applyAll log' := List.foldl_append ..

namespace StoreHistory

/-- After a call; one that fails is not noted. -/
def step (x : StoreHistory) (call : StoreCall) : StoreHistory where
  store := (call.run x.store).2
  chronicle := if (call.run x.store).1.isOk then x.chronicle.note (call.effect x.store) else x.chronicle

def run (calls : List StoreCall) (x : StoreHistory) : StoreHistory := calls.foldl step x

/-- The chronicle explains the entries and the logs. -/
structure Explained (x : StoreHistory) : Prop where
  entries : x.store.entries = Entries.applyAll [] (x.chronicle.changes .published)
  log : ∀ c, x.store.log c = x.chronicle.changes (.staged c)
  single : x.chronicle.Single

variable {x : StoreHistory} {s' : Store} {e : StoreEffect}

/-- The chronicle explains what an effect leaves. -/
theorem Explained.note (hx : x.Explained) (hs : x.store.Shows e s') :
    Explained ⟨s', x.chronicle.note e⟩ := by
  refine ⟨?_, ?_, hx.single.note e⟩
  · show s'.entries = Entries.applyAll [] (((x.chronicle.note e).writes .published).map Prod.snd)
    rw [hs.entries]
    cases e with
    | nothing => exact hx.entries
    | published w =>
      unfold Chronicle.note
      rw [Chronicle.map_add, if_pos rfl, Entries.applyAll_append]
      exact congrArg (Entries.apply · w) hx.entries
    | staged c w =>
      unfold Chronicle.note
      rw [Chronicle.map_add, if_neg nofun]
      exact hx.entries
    | committed c =>
      unfold Chronicle.note
      rw [Chronicle.map_move, if_neg nofun, if_pos rfl, Entries.applyAll_append, List.drop_zero]
      show x.store.entries.applyAll (x.store.log c) = _
      rw [hx.log, hx.entries]
      rfl
    | dropped c keep =>
      unfold Chronicle.note
      rw [Chronicle.map_move, if_neg nofun, if_neg nofun]
      exact hx.entries
  · intro k
    show s'.log k = ((x.chronicle.note e).writes (.staged k)).map Prod.snd
    rw [hs.log]
    cases e with
    | nothing => exact hx.log k
    | published w =>
      unfold Chronicle.note
      rw [Chronicle.map_add, if_neg nofun]
      exact hx.log k
    | staged c w =>
      unfold Chronicle.note
      rw [Chronicle.map_add]
      show (if k = c then x.store.log k ++ [w] else x.store.log k) = _
      by_cases hk : k = c
      · simp [hk, hx.log, Chronicle.changes]
      · simp [hk, hx.log, Chronicle.changes]
    | committed c =>
      unfold Chronicle.note
      rw [Chronicle.map_move]
      show (if k = c then [] else x.store.log k) = _
      by_cases hk : k = c
      · simp [hk]
      · simp [hk, hx.log, Chronicle.changes]
    | dropped c keep =>
      unfold Chronicle.note
      rw [Chronicle.map_move]
      show (if k = c then (x.store.log k).take keep else x.store.log k) = _
      by_cases hk : k = c
      · simp [hk, hx.log, Chronicle.changes]
      · simp [hk, hx.log, Chronicle.changes]

theorem Explained.step (hx : x.Explained) (call : StoreCall) : (x.step call).Explained := by
  unfold StoreHistory.step
  rcases hrun : call.run x.store with ⟨f | ⟨⟩, s'⟩
  · exact hx.note (StoreCall.run_error hrun)
  · exact hx.note (StoreCall.run_ok hrun)

theorem Explained.run (hx : x.Explained) (calls : List StoreCall) : (run calls x).Explained := by
  induction calls generalizing x with
  | nil => exact hx
  | cons call calls ih => exact ih (hx.step call)

theorem prefix_run (x : StoreHistory) (calls : List StoreCall) {p : Place} (hp : ∀ c, p ≠ .staged c) :
    x.chronicle.writes p <+: (run calls x).chronicle.writes p := by
  induction calls generalizing x with
  | nil => exact List.prefix_refl _
  | cons call calls ih =>
    refine List.IsPrefix.trans ?_ (ih (x.step call))
    show _ <+: (if _ then x.chronicle.note (call.effect x.store) else x.chronicle).writes p
    split
    · exact x.chronicle.prefix_note _ hp
    · exact List.prefix_refl _

end StoreHistory

/-- Committed data is the replay of the commits, for any calls on a new store, however they are interleaved
and whether they succeed. The entries are what the published changes give, replayed in order from nothing,
and the log of a connection is what is staged on it. A change that was published stays published once, where
it came in the order, and one that was discarded is never published. A call that fails changes neither the
entries nor any log, and no call changes the log of another connection. -/
theorem entries_replay_commits (name : String) (key : ResourceKey) (capabilities : Capabilities)
    (calls : List StoreCall) :
    let x := StoreHistory.run calls ⟨{ name, key, capabilities }, {}⟩
    x.store.entries = Entries.applyAll [] (x.chronicle.changes .published) ∧
    (∀ c, x.store.log c = x.chronicle.changes (.staged c)) ∧
    (x.chronicle.numbers .published).Nodup ∧
    (∀ later, let y := StoreHistory.run later x
      x.chronicle.writes .published <+: y.chronicle.writes .published ∧
      ∀ n ∈ x.chronicle.numbers .discarded, n ∉ y.chronicle.numbers .published) ∧
    ∀ call, let y := x.step call
      ((call.run x.store).1.isOk = false → y.store.entries = x.store.entries ∧ ∀ c, y.store.log c = x.store.log c) ∧
      ∀ c, call.connection? ≠ some c → y.store.log c = x.store.log c := by
  intro x
  have hx : x.Explained := by
    refine StoreHistory.Explained.run ⟨rfl, fun _ => rfl, .start⟩ calls
  clear_value x
  refine ⟨hx.entries, hx.log, hx.single.once .published, ?_, ?_⟩
  · intro later y
    have hy : y.Explained := hx.run later
    have hpublished : x.chronicle.writes .published <+: y.chronicle.writes .published := x.prefix_run later nofun
    have hdiscarded : x.chronicle.writes .discarded <+: y.chronicle.writes .discarded := x.prefix_run later nofun
    refine ⟨hpublished, fun n hn hlater => ?_⟩
    cases hy.single.apart .discarded .published n ((hdiscarded.map Prod.fst).subset hn) hlater
  · intro call y
    show (_ → (call.run x.store).2.entries = _ ∧ ∀ c, (call.run x.store).2.log c = _) ∧
      ∀ c, _ → (call.run x.store).2.log c = _
    rcases hrun : call.run x.store with ⟨f | ⟨⟩, s'⟩
    · have hshows := StoreCall.run_error hrun
      exact ⟨fun _ => ⟨hshows.entries, hshows.log⟩, fun c _ => hshows.log c⟩
    · have hshows := StoreCall.run_ok hrun
      exact ⟨fun hfailed => (by cases hfailed), fun c hc => (hshows.log c).trans (call.effect_other x.store hc)⟩

end Demarcation
