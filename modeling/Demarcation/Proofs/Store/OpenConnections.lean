/-
How many connections are open. The counter of a store is the number of the connections that were opened on it and
neither closed nor dropped since, so that closing one never finds the counter at zero.
-/
import Demarcation.Proofs.Store.Rewinding
import Demarcation.Proofs.Store.Work

namespace Demarcation

/-- What does not change while a connection is at work: whether it publishes at once, and whether it is closed. -/
def Connection.life (conn : Connection) : Bool × Bool := (conn.autoCommit, conn.closed)

namespace Store

variable {s s' : Store} {c k : ConnectionId} {conn conn' : Connection}

/-- The connection is there, and not closed. -/
def isOpen (s : Store) (c : ConnectionId) : Bool := (s.connection? c).any (!·.closed)

/-- The counter, and what the connections are and whether they are closed. -/
def roster (s : Store) : Nat × Array (Bool × Bool) := (s.openConnections, s.connections.map Connection.life)

/-- The counter says how many connections are open. -/
def Tallied (s : Store) : Prop := s.openConnections = s.connections.countP (!·.closed)

/-! ## Under the same roster -/

theorem connection?_lt (h : s.connection? c = some conn) : c < s.connections.size :=
  (Array.getElem?_eq_some_iff.1 h).1

section Roster

variable (h : s'.roster = s.roster)
include h

theorem lives_of_roster (c : ConnectionId) :
    (s'.connection? c).map Connection.life = (s.connection? c).map Connection.life := by
  have hlives := congrArg (fun l => l[c]?) (congrArg Prod.snd h)
  unfold roster at hlives
  dsimp only at hlives
  rw [Array.getElem?_map, Array.getElem?_map] at hlives
  exact hlives

theorem size_of_roster : s'.connections.size = s.connections.size := by
  have hsizes := congrArg Array.size (congrArg Prod.snd h)
  unfold roster at hsizes
  simpa using hsizes

theorem isOpen_of_roster (c : ConnectionId) : s'.isOpen c = s.isOpen c := by
  have hany : ∀ s : Store, s.isOpen c = ((s.connection? c).map Connection.life).any (!·.2) := by
    intro s
    unfold isOpen
    rw [Option.any_map]
    rfl
  rw [hany, hany, lives_of_roster h]

theorem tallied_of_roster (hs : s.Tallied) : s'.Tallied := by
  have hcount : ∀ s : Store, s.connections.countP (!·.closed) = s.roster.2.countP (!·.2) := by
    intro s
    unfold roster
    rw [Array.countP_map]
    rfl
  have hcounter : s'.openConnections = s.openConnections := congrArg Prod.fst h
  unfold Tallied at hs ⊢
  rw [hcounter, hs, hcount, hcount, h]

end Roster

theorem roster_setConnection (h : s.connection? c = some conn) (hlife : conn'.life = conn.life) :
    (s.setConnection c conn').roster = s.roster := by
  refine Prod.ext rfl (map_eq_of_getElem? fun k => ?_)
  have hset := connection?_setConnection s c k conn'
  unfold connection? at hset h
  rw [hset]
  split
  · rename_i hk
    rw [hk, h, Option.map_some, Option.map_some, Option.map_some, hlife]
  · rfl

theorem roster_write {w : Write} (h : s.write c w = .ok s') : s'.roster = s.roster := by
  unfold write at h
  split at h
  · cases h
  · obtain ⟨conn, hu, h⟩ := except_bind_ok h
    split at h <;> cases h
    · rfl
    · exact roster_setConnection (usable_ok hu).1 rfl

theorem roster_changing {op : Store → Except StorageError Store} (hop : ∀ s', op s = .ok s' → s'.roster = s.roster) :
    (changing op s).2.roster = s.roster := by
  unfold changing
  cases h : op s with
  | error e => rfl
  | ok s' => exact hop s' h

/-- Only opening a connection and closing one change the roster. -/
theorem roster_called (call : StoreCall) (hlasts : call.lasts = true) (s : Store) :
    (call.run s).2.roster = s.roster := by
  induction call generalizing s with
  | connect | close => cases hlasts
  | data c d =>
    refine roster_changing fun s' h => ?_
    obtain ⟨⟨a, s₁⟩, hrun, rfl⟩ := except_map_ok h
    rcases data_written hrun with rfl | ⟨w, hw⟩
    · rfl
    · exact roster_write hw
  | commit c | rollback c =>
    refine roster_changing fun s' h => ?_
    obtain ⟨conn, hu, hs⟩ := except_bind_ok h
    cases hs
    exact roster_setConnection (usable_ok hu).1 rfl
  | savepoint c =>
    refine roster_changing fun s' h => ?_
    obtain ⟨⟨sp, s₁⟩, hrun, rfl⟩ := except_map_ok h
    obtain ⟨conn, hu, hs⟩ := except_bind_ok hrun
    cases hs
    exact roster_setConnection (usable_ok hu).1 rfl
  | rollbackTo c sp =>
    refine roster_changing fun s' h => ?_
    obtain ⟨_, _, h⟩ := except_bind_ok h
    obtain ⟨conn, hu, h⟩ := except_bind_ok h
    split at h <;> cases h
    exact roster_setConnection (usable_ok hu).1 rfl
  | release c sp =>
    refine roster_changing fun s' h => ?_
    obtain ⟨_, _, rfl⟩ := except_map_ok h
    rfl
  | store step => cases step <;> rfl
  | primitive p call ih =>
    rcases primitive_cases p call.run s with h | h
    · show (primitive p call.run s).2.roster = _
      rw [h]
      rfl
    · show (primitive p call.run s).2.roster = _
      rw [h]
      exact ih hlasts (s.counted p)

/-! ## Opening and closing -/

theorem isOpen_of_connection (h : s.connection? c = some conn) : s.isOpen c = !conn.closed := by
  unfold isOpen
  rw [h]
  rfl

theorem isOpen_lt (h : s.isOpen c = true) : c < s.connections.size := by
  obtain ⟨conn, hconn, -⟩ := Option.any_eq_true _ _ |>.1 h
  exact connection?_lt hconn

section Connecting

variable (s : Store) (readOnly autoCommit : Bool) (isolation : Isolation)

theorem connection?_connect (k : ConnectionId) : (s.connect readOnly autoCommit isolation).2.connection? k =
    if k = s.connections.size then some { id := ConnectionId.number s.connections.size, readOnly, autoCommit, isolation }
    else s.connection? k :=
  Array.getElem?_push

theorem isOpen_connect (k : ConnectionId) :
    (s.connect readOnly autoCommit isolation).2.isOpen k = (k == s.connections.size || s.isOpen k) := by
  unfold isOpen
  rw [connection?_connect]
  by_cases hk : k = s.connections.size
  · simp [hk]
  · simp [hk]

theorem roster_connect : (s.connect readOnly autoCommit isolation).2.roster =
    (s.roster.1 + 1, s.roster.2.push (autoCommit, false)) :=
  Prod.ext rfl (Array.map_push ..)

theorem Tallied.connect {s : Store} (hs : s.Tallied) : (s.connect readOnly autoCommit isolation).2.Tallied := by
  show s.openConnections + 1 = (s.connections.push _).countP _
  rw [Array.countP_push, hs]
  rfl

end Connecting

/-- Closing an open connection sets it closed and takes one off the counter. -/
theorem close_of_open (h : s.connection? c = some conn) (hopen : conn.closed = false) :
    s.close c = { s.setConnection c { conn with closed := true, log := [] } with
      openConnections := s.openConnections - 1 } := by
  unfold close
  rw [h]
  dsimp only
  rw [hopen]
  rfl

theorem close_of_closed (h : s.isOpen c = false) : s.close c = s := by
  unfold isOpen at h
  unfold close
  cases hconn : s.connection? c with
  | none => rfl
  | some conn =>
    rw [hconn] at h
    have hclosed : conn.closed = true := by simpa using h
    dsimp only
    rw [if_pos hclosed]

theorem lives_close (s : Store) (c k : ConnectionId) : ((s.close c).connection? k).map Connection.life =
    (s.connection? k).map fun conn => (conn.autoCommit, conn.closed || k == c) := by
  cases hopen : s.isOpen c with
  | false =>
    rw [close_of_closed hopen]
    cases hk : s.connection? k with
    | none => rfl
    | some conn =>
      by_cases hkc : k = c
      · subst hkc
        rw [isOpen_of_connection hk] at hopen
        simp [Connection.life, show conn.closed = true by simpa using hopen]
      · simp [Connection.life, hkc]
  | true =>
    obtain ⟨conn, hconn, hnot⟩ := Option.any_eq_true _ _ |>.1 hopen
    rw [close_of_open hconn (by simpa using hnot)]
    show ((s.setConnection c _).connection? k).map _ = _
    rw [connection?_setConnection]
    by_cases hkc : k = c
    · subst hkc
      simp [hconn, Connection.life]
    · rw [if_neg hkc]
      cases s.connection? k <;> simp [Connection.life, hkc]

theorem isOpen_close (s : Store) (c k : ConnectionId) : (s.close c).isOpen k = (s.isOpen k && k != c) := by
  have hlives := congrArg (Option.any fun l => !l.2) (lives_close s c k)
  rw [Option.any_map, Option.any_map] at hlives
  have hstep : (s.close c).isOpen k = (s.connection? k).any fun conn => !(conn.closed || k == c) := hlives
  rw [hstep]
  unfold isOpen
  cases s.connection? k with
  | none => rfl
  | some conn => simp [bne]

theorem size_close (s : Store) (c : ConnectionId) : (s.close c).connections.size = s.connections.size := by
  unfold close
  split
  · rfl
  · split
    · rfl
    · exact Array.size_setIfInBounds

theorem roster_close (h : s'.roster = s.roster) (c : ConnectionId) : (s'.close c).roster = (s.close c).roster := by
  have hcounter : ∀ s : Store, (s.close c).openConnections =
      if s.isOpen c then s.openConnections - 1 else s.openConnections := by
    intro s
    cases hopen : s.isOpen c with
    | false => rw [close_of_closed hopen]; rfl
    | true =>
      obtain ⟨conn, hconn, hnot⟩ := Option.any_eq_true _ _ |>.1 hopen
      rw [close_of_open hconn (by simpa using hnot)]; rfl
  have hsame : s'.openConnections = s.openConnections := congrArg Prod.fst h
  refine Prod.ext ?_ (map_eq_of_getElem? fun k => ?_)
  · show (s'.close c).openConnections = (s.close c).openConnections
    rw [hcounter, hcounter, isOpen_of_roster h, hsame]
  · have hlives := congrArg (Option.map fun l : Bool × Bool => (l.1, l.2 || k == c)) (lives_of_roster h k)
    rw [Option.map_map, Option.map_map] at hlives
    exact (lives_close s' c k).trans (hlives.trans (lives_close s c k).symm)

/-- Closing an open connection takes one off the counter, which is not zero. -/
theorem Tallied.counter_close (hs : s.Tallied) (c : ConnectionId) :
    (s.close c).openConnections + (if s.isOpen c then 1 else 0) = s.openConnections := by
  cases hopen : s.isOpen c with
  | false =>
    rw [close_of_closed hopen]
    rfl
  | true =>
    obtain ⟨conn, hconn, hnot⟩ := Option.any_eq_true _ _ |>.1 hopen
    rw [close_of_open hconn (by simpa using hnot)]
    have hpos : 0 < s.connections.countP (!·.closed) :=
      Array.countP_pos_iff.2 ⟨conn, Array.mem_of_getElem? hconn, hnot⟩
    show s.openConnections - 1 + 1 = s.openConnections
    rw [hs]
    omega

theorem Tallied.close (hs : s.Tallied) (c : ConnectionId) : (s.close c).Tallied := by
  cases hopen : s.isOpen c with
  | false =>
    rw [close_of_closed hopen]
    exact hs
  | true =>
    obtain ⟨conn, hconn, hnot⟩ := Option.any_eq_true _ _ |>.1 hopen
    have hlt : c < s.connections.size := connection?_lt hconn
    have hat : s.connections[c] = conn := (Array.getElem?_eq_some_iff.1 hconn).2
    rw [close_of_open hconn (by simpa using hnot)]
    show s.openConnections - 1 = (s.connections.setIfInBounds c _).countP _
    rw [Array.setIfInBounds_def, dif_pos hlt, Array.countP_set, hat, hs]
    simp only [hnot, if_true, Bool.not_true, Bool.false_eq_true, if_false]
    rfl

theorem Tallied.called (hs : s.Tallied) (call : StoreCall) : (call.run s).2.Tallied := by
  induction call generalizing s with
  | connect readOnly autoCommit isolation => exact hs.connect readOnly autoCommit isolation
  | close c => exact hs.close c
  | primitive p call ih =>
    show (primitive p call.run s).2.Tallied
    rcases primitive_cases p call.run s with h | h
    · rw [h]
      exact hs
    · rw [h]
      exact ih (show (s.counted p).Tallied from hs)
  | data | commit | rollback | savepoint | rollbackTo | release | store =>
    exact tallied_of_roster (roster_called _ rfl s) hs

/-- The counter is the number of the open connections. -/
theorem Tallied.eq_length (hs : s.Tallied) :
    s.openConnections = ((List.range s.connections.size).filter s.isOpen).length := by
  have hlist : s.connections.toList.map some = (List.range s.connections.size).map s.connection? := by
    refine List.ext_getElem? fun k => ?_
    rw [List.getElem?_map, List.getElem?_map, Array.getElem?_toList]
    by_cases hk : k < s.connections.size
    · rw [List.getElem?_range hk]
      unfold connection?
      simp [hk]
    · simp [hk]
  have hcounts := congrArg (List.countP (Option.any (!·.closed))) hlist
  rw [List.countP_map, List.countP_map] at hcounts
  rw [hs, ← Array.countP_toList, ← List.countP_eq_length_filter]
  exact hcounts

end Store

/-! ## What becomes of connections -/

/-- A connection is opened, or it is closed or dropped. -/
inductive ConnectionEvent
  | opened (c : ConnectionId)
  | ended (c : ConnectionId)
deriving DecidableEq

def ConnectionEvent.opened? : ConnectionEvent → Option ConnectionId
  | opened c => some c
  | ended _ => none

/-- What becomes of a connection by a call that succeeds. Only a connection that is there can be closed. -/
def StoreCall.event (s : Store) : StoreCall → Option ConnectionEvent
  | connect _ _ _ => some (.opened s.connections.size)
  | close c => if c < s.connections.size then some (.ended c) else none
  | data _ _ | commit _ | rollback _ | savepoint _ | rollbackTo _ _ | release _ _ | store _ => none
  | primitive _ call => call.event s

/-- What becomes of connections by a call. One that fails opens and closes nothing. -/
def StoreCall.events (s : Store) (call : StoreCall) : List ConnectionEvent :=
  if (call.run s).1.isOk then (call.event s).toList else []

theorem StoreCall.events_of_none {s : Store} {call : StoreCall} (h : call.event s = none) : call.events s = [] := by
  unfold events
  rw [h]
  exact ite_self []

theorem StoreCall.event_counted (call : StoreCall) (s : Store) (p : Primitive) :
    call.event (s.counted p) = call.event s := by
  induction call with
  | primitive _ call ih => exact ih
  | _ => rfl

/-- What becomes of the connections of a store by calls one after another. -/
def Store.events : List StoreCall → Store → List ConnectionEvent
  | [], _ => []
  | call :: calls, s => call.events s ++ Store.events calls (call.run s).2

namespace Store

variable {s s' : Store} {c : ConnectionId} {past : List ConnectionEvent}

/-- The connections are those that were opened, in this order, and they are open unless they ended. -/
structure Recounted (past : List ConnectionEvent) (s : Store) : Prop where
  opened : past.filterMap ConnectionEvent.opened? = List.range s.connections.size
  ended : ∀ c, .ended c ∈ past → c < s.connections.size
  isOpen : ∀ c, s.isOpen c = true ↔ c < s.connections.size ∧ .ended c ∉ past

namespace Recounted

theorem congr (hs : Recounted past s) (hroster : s'.roster = s.roster) : Recounted past s' := by
  have hsize := size_of_roster hroster
  refine ⟨?_, fun c hc => ?_, fun c => ?_⟩
  · rw [hsize]
    exact hs.opened
  · rw [hsize]
    exact hs.ended c hc
  · rw [isOpen_of_roster hroster, hsize]
    exact hs.isOpen c

theorem connect (hs : Recounted past s) (readOnly autoCommit : Bool) (isolation : Isolation) :
    Recounted (past ++ [.opened s.connections.size]) (s.connect readOnly autoCommit isolation).2 := by
  have hsize : (s.connect readOnly autoCommit isolation).2.connections.size = s.connections.size + 1 :=
    Array.size_push _
  have hmem : ∀ c, .ended c ∈ past ++ [.opened s.connections.size] ↔ .ended c ∈ past := by
    intro c
    simp
  refine ⟨?_, fun c hc => ?_, fun c => ?_⟩
  · rw [hsize, List.range_succ, List.filterMap_append, hs.opened]
    rfl
  · rw [hsize]
    exact Nat.lt_succ_of_lt (hs.ended c ((hmem c).1 hc))
  · rw [isOpen_connect, hsize, hmem, Bool.or_eq_true, hs.isOpen, beq_iff_eq]
    constructor
    · rintro (rfl | ⟨hlt, hnot⟩)
      · exact ⟨Nat.lt_succ_self _, fun hc => Nat.lt_irrefl _ (hs.ended _ hc)⟩
      · exact ⟨Nat.lt_succ_of_lt hlt, hnot⟩
    · rintro ⟨hlt, hnot⟩
      rcases Nat.lt_succ_iff_lt_or_eq.1 hlt with hlt | rfl
      · exact .inr ⟨hlt, hnot⟩
      · exact .inl rfl

theorem close (hs : Recounted past s) (hlt : c < s.connections.size) :
    Recounted (past ++ [.ended c]) (s.close c) := by
  refine ⟨?_, fun k hk => ?_, fun k => ?_⟩
  · rw [size_close, List.filterMap_append, hs.opened]
    exact List.append_nil _
  · rw [size_close]
    rcases List.mem_append.1 hk with hk | hk
    · exact hs.ended k hk
    · obtain rfl : k = c := by simpa using hk
      exact hlt
  · rw [isOpen_close, Bool.and_eq_true, hs.isOpen, size_close, bne_iff_ne]
    simp [and_assoc]

theorem called (hs : Recounted past s) (call : StoreCall) : Recounted (past ++ call.events s) (call.run s).2 := by
  induction call generalizing s with
  | connect readOnly autoCommit isolation => exact hs.connect readOnly autoCommit isolation
  | close c =>
    by_cases hlt : c < s.connections.size
    · have hevent : (StoreCall.close c).events s = [.ended c] := congrArg Option.toList (if_pos hlt)
      rw [hevent]
      exact hs.close hlt
    · -- what is not there cannot be closed
      have hclosed : s.isOpen c = false := by
        cases hopen : s.isOpen c with
        | false => rfl
        | true => exact absurd (isOpen_lt hopen) hlt
      have hevent : (StoreCall.close c).event s = none := if_neg hlt
      rw [StoreCall.events_of_none hevent, List.append_nil]
      show Recounted past (s.close c)
      rwa [close_of_closed hclosed]
  | data | commit | rollback | savepoint | rollbackTo | release | store =>
    rw [StoreCall.events_of_none rfl, List.append_nil]
    exact hs.congr (roster_called _ rfl s)
  | primitive p call ih =>
    rcases primitive_cases p call.run s with h | h
    · have hevents : (StoreCall.primitive p call).events s = [] := by
        unfold StoreCall.events
        rw [show (StoreCall.primitive p call).run s = _ from h]
        rfl
      rw [hevents, List.append_nil, show (StoreCall.primitive p call).run s = _ from h]
      exact hs.congr rfl
    · have hevents : (StoreCall.primitive p call).events s = call.events (s.counted p) := by
        unfold StoreCall.events
        rw [show (StoreCall.primitive p call).run s = _ from h, StoreCall.event_counted]
        rfl
      rw [hevents, show (StoreCall.primitive p call).run s = _ from h]
      exact ih (hs.congr rfl)

theorem ran (hs : Recounted past s) (calls : List StoreCall) :
    Recounted (past ++ Store.events calls s) (Store.ran calls s) := by
  induction calls generalizing s past with
  | nil =>
    show Recounted (past ++ []) s
    rwa [List.append_nil]
  | cons call calls ih =>
    unfold Store.events
    rw [← List.append_assoc]
    exact ih (hs.called call)

end Recounted

theorem Tallied.ran (hs : s.Tallied) (calls : List StoreCall) : (Store.ran calls s).Tallied := by
  induction calls generalizing s with
  | nil => exact hs
  | cons call calls ih => exact ih (hs.called call)

/-- From a new store on, the counter is the number of the connections that were opened and did not end. -/
theorem openConnections_ran (hnew : s.connections = #[]) (hzero : s.openConnections = 0) (calls : List StoreCall) :
    (Store.ran calls s).openConnections =
      (((Store.events calls s).filterMap ConnectionEvent.opened?).filter
        fun c => .ended c ∉ Store.events calls s).length := by
  have htallied : s.Tallied := by
    unfold Tallied
    rw [hnew, hzero]
    rfl
  have hstart : Recounted [] s := by
    have hsize : s.connections.size = 0 := congrArg Array.size hnew
    refine ⟨?_, nofun, fun c => ⟨fun hopen => ?_, fun h => ?_⟩⟩
    · rw [hsize]
      rfl
    · exact absurd (hsize ▸ isOpen_lt hopen) (Nat.not_lt_zero c)
    · exact absurd (hsize ▸ h.1) (Nat.not_lt_zero c)
  have hran := hstart.ran calls
  rw [List.nil_append] at hran
  rw [(htallied.ran calls).eq_length, hran.opened]
  refine congrArg List.length (List.filter_congr fun c hc => ?_)
  have hopen := hran.isOpen c
  rw [List.mem_range] at hc
  simp only [hc, true_and] at hopen
  rw [Bool.eq_iff_iff, hopen, decide_eq_true_iff]

end Store

end Demarcation
