/-
Returning to a savepoint. A savepoint is a length of the log only, so what a return restores depends on how
far the log has been cut off since the savepoint was taken, and on what has been staged again from there.
-/
import Demarcation.Proofs.Store.Modes
import Demarcation.Proofs.Store.Savepoints

namespace Demarcation

namespace Store

variable {s : Store} {c k : ConnectionId}

/-- The store after some calls, whether they succeed or fail. -/
def ran (calls : List StoreCall) (s : Store) : Store := calls.foldl (fun s call => (call.run s).2) s

/-! ## Connections show their numbers -/

def Numbered (s : Store) : Prop := ∀ k i, s.id? k = some i → i = ConnectionId.number k

theorem Numbered.called (hs : s.Numbered) (call : StoreCall) : (call.run s).2.Numbered := by
  have hkeeps := Keeps.called call s
  intro k i hi
  obtain ⟨conn', hconn', rfl⟩ := Option.map_eq_some_iff.1 hi
  cases hconn : s.connection? k with
  | none => exact (hkeeps.opened k conn' hconn' hconn).1
  | some conn =>
    obtain ⟨conn₁, hconn₁, hmode⟩ := hkeeps.mode k conn hconn
    cases hconn₁.symm.trans hconn'
    have hid : conn'.id = conn.id := congrArg ConnectionMode.id hmode
    exact hid.trans (hs k conn.id (Option.map_eq_some_iff.2 ⟨conn, hconn, rfl⟩))

theorem Numbered.ran (hs : s.Numbered) (calls : List StoreCall) : (ran calls s).Numbered := by
  induction calls generalizing s with
  | nil => exact hs
  | cons call calls ih => exact ih (hs.called call)

/-! ## How far a log has been cut off -/

/-- The length of the shortest log that a connection has had, now and after each of some calls. -/
def lowest (c : ConnectionId) (s : Store) : List StoreCall → Nat
  | [] => (s.log c).length
  | call :: calls => min (s.log c).length (lowest c (call.run s).2 calls)

theorem lowest_le (c : ConnectionId) (s : Store) (calls : List StoreCall) : lowest c s calls ≤ (s.log c).length := by
  cases calls with
  | nil => exact Nat.le_refl _
  | cons call calls => exact Nat.min_le_left ..

theorem lowest_le_ran (c : ConnectionId) (s : Store) (calls : List StoreCall) :
    lowest c s calls ≤ ((ran calls s).log c).length := by
  induction calls generalizing s with
  | nil => exact Nat.le_refl _
  | cons call calls ih => exact Nat.le_trans (Nat.min_le_right ..) (ih (call.run s).2)

/-- As far as the log reaches before and after an effect, it is the same. -/
theorem take_effect (e : StoreEffect) {n : Nat} (hn : n ≤ (s.log c).length) (hn' : n ≤ (e.log s c).length) :
    (e.log s c).take n = (s.log c).take n := by
  cases e with
  | nothing | published => rfl
  | staged k w =>
    show (if c = k then s.log c ++ [w] else s.log c).take n = (s.log c).take n
    split
    · exact List.take_append_of_le_length hn
    · rfl
  | committed k =>
    change n ≤ (if c = k then [] else s.log c).length at hn'
    show (if c = k then [] else s.log c).take n = (s.log c).take n
    split
    · -- nothing is left of the log
      rename_i hk
      rw [if_pos hk] at hn'
      obtain rfl : n = 0 := Nat.le_zero.1 hn'
      rfl
    · rfl
  | dropped k keep =>
    change n ≤ (if c = k then (s.log c).take keep else s.log c).length at hn'
    show (if c = k then (s.log c).take keep else s.log c).take n = (s.log c).take n
    split
    · rename_i hk
      rw [if_pos hk, List.length_take] at hn'
      rw [List.take_take, Nat.min_eq_left (Nat.le_trans hn' (Nat.min_le_left ..))]
    · rfl

theorem take_called (call : StoreCall) {n : Nat} (hn : n ≤ (s.log c).length)
    (hn' : n ≤ ((call.run s).2.log c).length) : ((call.run s).2.log c).take n = (s.log c).take n := by
  rcases hrun : call.run s with ⟨f | ⟨⟩, s'⟩
  · rw [(StoreCall.run_error hrun).log]; rfl
  · rw [hrun, (StoreCall.run_ok hrun).log] at hn'
    rw [(StoreCall.run_ok hrun).log]
    exact take_effect _ hn hn'

/-- The log has never changed below its lowest length. -/
theorem take_ran (c : ConnectionId) (s : Store) (calls : List StoreCall) {n : Nat} (hn : n ≤ lowest c s calls) :
    ((ran calls s).log c).take n = (s.log c).take n := by
  induction calls generalizing s with
  | nil => rfl
  | cons call calls ih =>
    have hlater : n ≤ lowest c (call.run s).2 calls := Nat.le_trans hn (Nat.min_le_right ..)
    calc ((ran calls (call.run s).2).log c).take n
        = ((call.run s).2.log c).take n := ih (call.run s).2 hlater
      _ = (s.log c).take n :=
        take_called call (Nat.le_trans hn (Nat.min_le_left ..)) (Nat.le_trans hlater (lowest_le ..))

/-! ## Returning -/

theorem savepoint_ok {sp : Savepoint} {s' : Store} (hs : s.Numbered) (h : s.savepoint c = .ok (sp, s')) :
    sp.connection = ConnectionId.number c ∧ sp.mark = (s.log c).length ∧ s'.log c = s.log c := by
  obtain ⟨conn, hu, hs'⟩ := except_bind_ok h
  cases hs'
  have hconn : s.connection? c = some conn := (usable_ok hu).1
  have hid : s.id? c = some conn.id := by unfold id?; rw [hconn]; rfl
  refine ⟨hs c conn.id hid, congrArg List.length (log_of_connection hconn).symm, ?_⟩
  rw [log_setConnection hconn, if_pos rfl, log_of_connection hconn]

/-- A return to a savepoint of the connection's own is refused because the connection cannot work or because
its log is too short, or it cuts the log off. -/
theorem rollbackTo_cases {sp : Savepoint} (hown : sp.connection = ConnectionId.number c) :
    (∃ e, s.usable c = .error e ∧ (StoreCall.rollbackTo c sp).run s = (.error (.storage e), s)) ∨
    ((s.usable c).isOk = true ∧ (s.log c).length < sp.mark ∧
      (StoreCall.rollbackTo c sp).run s = (.error (.storage (.invalidSavepoint sp.id)), s)) ∨
    ((s.usable c).isOk = true ∧ sp.mark ≤ (s.log c).length ∧
      ∃ s', (StoreCall.rollbackTo c sp).run s = (.ok (), s') ∧ s.Shows (.dropped c sp.mark) s') := by
  have hrun : (StoreCall.rollbackTo c sp).run s = changing (·.rollbackTo c sp) s := rfl
  unfold changing rollbackTo at hrun
  rw [checkOwner_own hown] at hrun
  dsimp only [Bind.bind, Except.bind] at hrun
  cases hu : s.usable c with
  | error e => rw [hu] at hrun; exact .inl ⟨e, rfl, hrun⟩
  | ok conn =>
    have hlog : s.log c = conn.log := log_of_connection (usable_ok hu).1
    rw [hu] at hrun
    dsimp only at hrun
    rw [hlog]
    by_cases hshort : conn.log.length < sp.mark
    · rw [if_pos hshort] at hrun
      exact .inr (.inl ⟨rfl, hshort, hrun⟩)
    · rw [if_neg hshort] at hrun
      exact .inr (.inr ⟨rfl, Nat.le_of_not_lt hshort, _, hrun, StoreCall.run_ok hrun⟩)

end Store

/-- What is taken of a list is another list, if they agree up to some point and from there on. -/
theorem take_eq_iff_drop {α : Type} {xs ys : List α} {r : Nat} (hr : r ≤ ys.length)
    (hsame : xs.take r = ys.take r) :
    xs.take ys.length = ys ↔ (xs.drop r).take (ys.length - r) = ys.drop r := by
  have hsplit : xs.take ys.length = ys.take r ++ (xs.drop r).take (ys.length - r) := by
    rw [← hsame, ← List.take_add, Nat.add_sub_cancel' hr]
  constructor
  · intro h
    rw [hsplit] at h
    exact List.append_cancel_left (h.trans (List.take_append_drop r ys).symm)
  · intro h
    rw [hsplit, h, List.take_append_drop]

/-- What a return to a savepoint does, for any calls on a new store before the savepoint is taken and any calls
from then until the return, on whatever connections, and whether they succeed. A return that is refused has
changed nothing, and one is refused only if the connection cannot work or its log is shorter than at the
savepoint. Otherwise the log is what is left of it at the length that it had at the savepoint, and nothing else
changes. It is the log of the savepoint exactly if what was cut off that log in the meantime has been staged
again in the same order: always, if nothing was cut off. -/
theorem return_restores_iff (name : String) (key : ResourceKey) (capabilities : Capabilities)
    (before after : List StoreCall) (c : ConnectionId) (sp : Savepoint) (s₁ : Store) :
    let s₀ := Store.ran before { name, key, capabilities }
    let s := Store.ran after s₁
    let lowest := Store.lowest c s₁ after
    let returned := (StoreCall.rollbackTo c sp).run s
    s₀.savepoint c = .ok (sp, s₁) →
    (∀ f, returned.1 = .error f → returned.2 = s ∧
      ((∃ e, s.usable c = .error e ∧ f = .storage e) ∨
        ((s.log c).length < (s₀.log c).length ∧ f = .storage (.invalidSavepoint sp.id)))) ∧
    (returned.1 = .ok () ↔ (s.usable c).isOk = true ∧ (s₀.log c).length ≤ (s.log c).length) ∧
    (returned.1 = .ok () →
      returned.2.log c = (s.log c).take (s₀.log c).length ∧ returned.2.entries = s.entries ∧
      (∀ k, k ≠ c → returned.2.log k = s.log k) ∧
      (returned.2.log c = s₀.log c ↔
        ((s.log c).drop lowest).take ((s₀.log c).length - lowest) = (s₀.log c).drop lowest)) ∧
    ((s₀.log c).length ≤ lowest → (s.usable c).isOk = true →
      returned.1 = .ok () ∧ returned.2.log c = s₀.log c) := by
  intro s₀ s lowest returned htaken
  have hs₀ : s₀.Numbered := Store.Numbered.ran (fun k i hi => by cases hi) before
  obtain ⟨hown, hmark, hkept⟩ := Store.savepoint_ok hs₀ htaken
  have hlowest : lowest ≤ (s₀.log c).length := hkept ▸ Store.lowest_le c s₁ after
  have hsame : (s.log c).take lowest = (s₀.log c).take lowest := hkept ▸ Store.take_ran c s₁ after (Nat.le_refl _)
  have hreach : lowest ≤ (s.log c).length := Store.lowest_le_ran c s₁ after
  have hreturned : returned = (StoreCall.rollbackTo c sp).run s := rfl
  clear_value returned lowest s
  rcases Store.rollbackTo_cases (s := s) hown with ⟨e, hu, hrun⟩ | ⟨hu, hshort, hrun⟩ | ⟨hu, hlong, s', hrun, hshows⟩
  · obtain rfl := hreturned.trans hrun
    rw [hu]
    refine ⟨?_, ⟨nofun, fun h => nomatch h.1⟩, nofun, fun _ h => nomatch h⟩
    rintro f ⟨⟩
    exact ⟨rfl, .inl ⟨e, rfl, rfl⟩⟩
  · obtain rfl := hreturned.trans hrun
    rw [hmark] at hshort
    refine ⟨?_, ⟨nofun, fun h => absurd h.2 (Nat.not_le.2 hshort)⟩, nofun, fun hle _ => ?_⟩
    · rintro f ⟨⟩
      exact ⟨rfl, .inr ⟨hshort, rfl⟩⟩
    · exact absurd (Nat.le_trans hle hreach) (Nat.not_le.2 hshort)
  · obtain rfl := hreturned.trans hrun
    rw [hmark] at hlong hshows
    have hlog : s'.log c = (s.log c).take (s₀.log c).length := (hshows.log c).trans (if_pos rfl)
    have hrestored : s'.log c = s₀.log c ↔
        ((s.log c).drop lowest).take ((s₀.log c).length - lowest) = (s₀.log c).drop lowest := by
      rw [hlog]
      exact take_eq_iff_drop hlowest hsame
    refine ⟨nofun, ⟨fun _ => ⟨hu, hlong⟩, fun _ => rfl⟩, fun _ => ⟨hlog, hshows.entries, ?_, hrestored⟩, ?_⟩
    · exact fun k hk => (hshows.log k).trans (if_neg hk)
    · -- nothing was cut off, so there is nothing to stage again
      refine fun hle _ => ⟨rfl, hrestored.2 ?_⟩
      rw [Nat.sub_eq_zero_of_le hle, List.take_zero, List.drop_eq_nil_of_le hle]

/-- A savepoint is taken behind one change. Another change is staged, and given up by a return to a later
savepoint: the first savepoint still gives back its log. -/
theorem return_restores_behind_return :
    let s₀ := Store.ran [.connect false false .unspecified, .data 0 (.put "a" .null)] { key := ⟨7⟩ }
    let s₁ := Store.ran [.savepoint 0] s₀
    let s := Store.ran [.data 0 (.put "b" .null), .savepoint 0, .data 0 (.put "c" .null), .rollbackTo 0 ⟨2, 1, 2⟩] s₁
    let returned := (StoreCall.rollbackTo 0 ⟨1, 1, 1⟩).run s
    s₀.savepoint 0 = .ok (⟨1, 1, 1⟩, s₁) ∧ (s.log 0).map Write.key = ["a", "b"] ∧
      returned.1 = .ok () ∧ returned.2.log 0 = s₀.log 0 := by
  intro s₀ s₁ s returned
  have htaken : s₀.savepoint 0 = .ok (⟨1, 1, 1⟩, s₁) := rfl
  refine ⟨htaken, by decide +kernel, ?_⟩
  exact (return_restores_iff "memory" ⟨7⟩ .all _ [.data 0 (.put "b" .null), .savepoint 0, .data 0 (.put "c" .null),
    .rollbackTo 0 ⟨2, 1, 2⟩] 0 ⟨1, 1, 1⟩ s₁ htaken).2.2.2 (by decide +kernel) (by decide +kernel)

/-- A savepoint is not given up by a return to an earlier one. If as much is staged again as there was before, a
return to it is accepted, and leaves a change that had not been made when it was taken. -/
theorem stale_return_accepted :
    let s₀ := Store.ran [.connect false false .unspecified, .savepoint 0, .data 0 (.put "a" .null)] { key := ⟨7⟩ }
    let s₁ := Store.ran [.savepoint 0] s₀
    let s := Store.ran [.rollbackTo 0 ⟨1, 1, 0⟩, .data 0 (.put "b" .null)] s₁
    let returned := (StoreCall.rollbackTo 0 ⟨2, 1, 1⟩).run s
    s₀.savepoint 0 = .ok (⟨2, 1, 1⟩, s₁) ∧ returned.1 = .ok () ∧
      s₀.log 0 = [.put "a" .null] ∧ returned.2.log 0 = [.put "b" .null] := by
  refine ⟨rfl, rfl, rfl, rfl⟩

end Demarcation
