/-
Whom a savepoint belongs to. It carries the number of its connection, and every store counts its connections by
itself, so a savepoint is told from those of the other connections of its store but not from those of another one.
-/
import Demarcation.Proofs.Store.Rewinding

namespace Demarcation

/-- Connections have the same number if their places differ by a multiple of how many numbers there are. -/
theorem ConnectionId.number_eq_iff {c k : Nat} : number c = number k ↔ c % UInt64.size = k % UInt64.size := by
  have htoNat : ∀ k : Nat, (number k).toNat = (k + 1) % UInt64.size := fun _ => UInt64.toNat_ofNat'
  rw [← UInt64.toNat_inj, htoNat, htoNat]
  unfold UInt64.size
  omega

namespace Store

variable {s : Store} {c k : ConnectionId} {conn : Connection} {sp : Savepoint}

/-! ## Several stores -/

section Several

variable {ι : Type} [DecidableEq ι]

/-- Several stores after some calls on them, whether they succeed or fail. -/
def ranOn (calls : List (ι × StoreCall)) (stores : ι → Store) : ι → Store :=
  calls.foldl (fun stores q i => if i = q.1 then (q.2.run (stores i)).2 else stores i) stores

/-- A store is changed by the calls on it only. -/
theorem ranOn_eq (calls : List (ι × StoreCall)) (stores : ι → Store) (i : ι) :
    ranOn calls stores i = ran ((calls.filter fun q => i = q.1).map Prod.snd) (stores i) := by
  induction calls generalizing stores with
  | nil => rfl
  | cons q calls ih =>
    refine (ih _).trans ?_
    by_cases hi : i = q.1
    · simp [hi, ran]
    · simp [hi]

end Several

/-- Connections stay. -/
theorem connection?_ran (h : s.connection? c = some conn) (calls : List StoreCall) :
    ∃ conn', (ran calls s).connection? c = some conn' := by
  induction calls generalizing s conn with
  | nil => exact ⟨conn, h⟩
  | cons call calls ih =>
    obtain ⟨conn', h', -⟩ := (Keeps.called call s).mode c conn h
    exact ih h'

/-- As long as a store has opened no more connections than there are numbers, its connections have different ones. -/
theorem number_ne_iff (hc : ∃ conn, s.connection? c = some conn) (hk : ∃ conn, s.connection? k = some conn)
    (hsize : s.connections.size ≤ UInt64.size) : c.number ≠ k.number ↔ c ≠ k := by
  have hlt : ∀ {c : Nat}, (∃ conn, s.connection? c = some conn) → c < UInt64.size := by
    rintro c ⟨conn, hconn⟩
    exact Nat.lt_of_lt_of_le (Array.getElem?_eq_some_iff.1 hconn).1 hsize
  rw [ne_eq, ConnectionId.number_eq_iff, Nat.mod_eq_of_lt (hlt hc), Nat.mod_eq_of_lt (hlt hk)]

/-! ## Savepoints of others -/

/-- A savepoint with another connection's number is refused, and nothing changes. -/
theorem foreign_refused (hforeign : sp.connection ≠ ConnectionId.number k) (s : Store) :
    let refused : Failure := .storage (.foreignSavepoint sp.id k.number)
    (StoreCall.rollbackTo k sp).run s = (.error refused, s) ∧ (StoreCall.release k sp).run s = (.error refused, s) := by
  have hcheck : checkOwner k sp = .error (.foreignSavepoint sp.id k.number) := if_neg hforeign
  constructor
  · show changing (·.rollbackTo k sp) s = _
    unfold changing rollbackTo
    rw [hcheck]
    rfl
  · show changing (fun s => (s.release k sp).map fun _ => s) s = _
    unfold changing release
    rw [hcheck]
    rfl

/-- A savepoint is released by a connection with its number that can work. It is refused as another one's if the number
differs, and nothing changes in any case. -/
theorem release_spec (k : ConnectionId) (sp : Savepoint) (s : Store) :
    let released := (StoreCall.release k sp).run s
    (released.1 = .error (.storage (.foreignSavepoint sp.id k.number)) ↔ sp.connection ≠ k.number) ∧
    released.2 = s ∧ (released.1 = .ok () ↔ sp.connection = k.number ∧ (s.usable k).isOk = true) := by
  intro released
  have hreleased : released = (StoreCall.release k sp).run s := rfl
  clear_value released
  by_cases hown : sp.connection = k.number
  · have hrun : released = changing (fun s => (s.release k sp).map fun _ => s) s := hreleased
    unfold changing release at hrun
    rw [checkOwner_own hown] at hrun
    dsimp only [Bind.bind, Except.bind] at hrun
    cases hu : s.usable k with
    | error e =>
      rw [hu] at hrun
      subst hrun
      refine ⟨⟨fun h => ?_, fun hne => absurd hown hne⟩, rfl, nofun, fun h => nomatch h.2⟩
      cases h
      cases usable_error hu
    | ok conn =>
      rw [hu] at hrun
      subst hrun
      exact ⟨⟨nofun, fun hne => absurd hown hne⟩, rfl, fun _ => ⟨hown, rfl⟩, fun _ => rfl⟩
  · obtain rfl := hreleased.trans (foreign_refused hown s).2
    exact ⟨⟨fun _ => hown, fun _ => rfl⟩, rfl, nofun, fun h => absurd h.1 hown⟩

/-- A return to a savepoint is refused as another one's if the number differs. A connection with the number makes it if
it can work and its log is long enough. -/
theorem rollbackTo_spec (k : ConnectionId) (sp : Savepoint) (s : Store) :
    let returned := (StoreCall.rollbackTo k sp).run s
    (returned.1 = .error (.storage (.foreignSavepoint sp.id k.number)) ↔ sp.connection ≠ k.number) ∧
    (∀ f, returned.1 = .error f → returned.2 = s) ∧
    (returned.1 = .ok () ↔ sp.connection = k.number ∧ (s.usable k).isOk = true ∧ sp.mark ≤ (s.log k).length) ∧
    (returned.1 = .ok () → s.Shows (.dropped k sp.mark) returned.2) := by
  intro returned
  have hreturned : returned = (StoreCall.rollbackTo k sp).run s := rfl
  clear_value returned
  by_cases hown : sp.connection = k.number
  · rcases rollbackTo_cases (s := s) hown with ⟨e, hu, hrun⟩ | ⟨-, hshort, hrun⟩ | ⟨hu, hlong, s', hrun, hshows⟩
    · obtain rfl := hreturned.trans hrun
      rw [hu]
      refine ⟨⟨fun h => ?_, fun hne => absurd hown hne⟩, fun _ _ => rfl, ⟨nofun, fun h => nomatch h.2.1⟩, nofun⟩
      cases h
      cases usable_error hu
    · obtain rfl := hreturned.trans hrun
      exact ⟨⟨nofun, fun hne => absurd hown hne⟩, fun _ _ => rfl,
        ⟨nofun, fun h => absurd h.2.2 (Nat.not_le.2 hshort)⟩, nofun⟩
    · obtain rfl := hreturned.trans hrun
      exact ⟨⟨nofun, fun hne => absurd hown hne⟩, nofun, ⟨fun _ => ⟨hown, hu, hlong⟩, fun _ => rfl⟩, fun _ => hshows⟩
  · obtain rfl := hreturned.trans (foreign_refused hown s).1
    exact ⟨⟨fun _ => hown, fun _ => rfl⟩, fun _ _ => rfl, ⟨nofun, fun h => absurd h.1 hown⟩, nofun⟩

end Store

/-- Which savepoints a connection refuses as another one's, for any number of new stores and any calls on them before
the savepoint is taken and from then on, on whatever connections, and whether they succeed. A return to it and a
release of it are refused so exactly if the numbers differ of the connection and of the one that took it. A call that
is refused has changed nothing, nor does a release ever. As long as a store has opened no more connections than there
are numbers, that tells the savepoints of all its connections apart. A connection of another store takes a savepoint
with its number for its own: it releases it, and a return cuts off its log at the length that the other one had. -/
theorem foreign_savepoint_refused_iff {ι : Type} [DecidableEq ι] (names : ι → String) (keys : ι → ResourceKey)
    (capabilities : ι → Capabilities) (before after : List (ι × StoreCall)) (i j : ι) (c k : ConnectionId)
    (sp : Savepoint) (s₁ : Store) :
    let taken := Store.ranOn before fun i => { name := names i, key := keys i, capabilities := capabilities i }
    let s := Store.ranOn after taken j
    let returned := (StoreCall.rollbackTo k sp).run s
    let released := (StoreCall.release k sp).run s
    let foreign : Failure := .storage (.foreignSavepoint sp.id k.number)
    let mark := ((taken i).log c).length
    (taken i).savepoint c = .ok (sp, s₁) →
    (returned.1 = .error foreign ↔ c.number ≠ k.number) ∧ (released.1 = .error foreign ↔ c.number ≠ k.number) ∧
    (∀ f, returned.1 = .error f → returned.2 = s) ∧ released.2 = s ∧
    (i = j → (s.connection? k).isSome = true → s.connections.size ≤ UInt64.size → (c.number ≠ k.number ↔ c ≠ k)) ∧
    (released.1 = .ok () ↔ c.number = k.number ∧ (s.usable k).isOk = true) ∧
    (returned.1 = .ok () ↔ c.number = k.number ∧ (s.usable k).isOk = true ∧ mark ≤ (s.log k).length) ∧
    (returned.1 = .ok () → returned.2.log k = (s.log k).take mark ∧ returned.2.entries = s.entries ∧
      ∀ k', k' ≠ k → returned.2.log k' = s.log k') := by
  intro taken s returned released foreign mark htaken
  have hnumbered : (taken i).Numbered := by
    show (Store.ranOn before _ i).Numbered
    rw [Store.ranOn_eq]
    exact Store.Numbered.ran (fun k i hi => by cases hi) _
  obtain ⟨hown, hmark, -⟩ := Store.savepoint_ok hnumbered htaken
  have hsame : i = j → (s.connection? k).isSome = true → s.connections.size ≤ UInt64.size →
      (c.number ≠ k.number ↔ c ≠ k) := by
    rintro rfl hk hsize
    obtain ⟨conn, hu, -⟩ := except_bind_ok htaken
    have hlater : s = Store.ran _ (taken i) := Store.ranOn_eq after taken i
    have hc : ∃ conn, s.connection? c = some conn := hlater ▸ Store.connection?_ran (Store.usable_ok hu).1 _
    exact Store.number_ne_iff hc (Option.isSome_iff_exists.1 hk) hsize
  have hreturn := Store.rollbackTo_spec k sp s
  have hrelease := Store.release_spec k sp s
  rw [hown, hmark] at hreturn
  rw [hown] at hrelease
  obtain ⟨hforeign, hkept, hdone, hshows⟩ := hreturn
  obtain ⟨hforeign', hkept', hdone'⟩ := hrelease
  refine ⟨hforeign, hforeign', hkept, hkept', hsame, hdone', hdone, fun hok => ?_⟩
  have hcut := hshows hok
  exact ⟨(hcut.log k).trans (if_pos rfl), hcut.entries, fun k' hk' => (hcut.log k').trans (if_neg hk')⟩

/-- The second connection of a store does not return to a savepoint of the first one, and keeps its change. -/
theorem foreign_savepoint_refused_within_store :
    let taken := Store.ranOn [(true, .connect false false .unspecified), (false, .connect false false .unspecified),
      (true, .connect false false .unspecified)] fun i : Bool => { key := if i then ⟨1⟩ else ⟨2⟩ }
    let s := Store.ranOn [(true, .savepoint 0), (true, .data 1 (.put "a" .null))] taken true
    let returned := (StoreCall.rollbackTo 1 ⟨1, 1, 0⟩).run s
    ((taken true).savepoint 0).map Prod.fst = .ok ⟨1, 1, 0⟩ ∧
      returned.1 = .error (.storage (.foreignSavepoint 1 2)) ∧ returned.2.log 1 = [.put "a" .null] := by
  intro taken s returned
  have htaken : (taken true).savepoint 0 = .ok (⟨1, 1, 0⟩, ((taken true).setConnection 0 { id := 1, savepoints := 1 })) :=
    rfl
  obtain ⟨hforeign, -, hkept, -, hsame, -⟩ := foreign_savepoint_refused_iff (fun _ => "memory")
    (fun i => if i then ⟨1⟩ else ⟨2⟩) (fun _ => .all) _ [(true, .savepoint 0), (true, .data 1 (.put "a" .null))] true true
    0 1 ⟨1, 1, 0⟩ _ htaken
  have hrefused : returned.1 = .error (.storage (.foreignSavepoint 1 2)) :=
    hforeign.2 ((hsame rfl (by decide +kernel) (by decide +kernel)).2 (by decide))
  have hlog : s.log 1 = [.put "a" .null] := rfl
  exact ⟨rfl, hrefused, (congrArg (Store.log · 1) (hkept _ hrefused)).trans hlog⟩

/-- The first connection of a store takes a savepoint of the first one of another store for its own: it gives up a
change that had been made on it. -/
theorem foreign_savepoint_accepted :
    let taken := Store.ranOn [(true, .connect false false .unspecified), (false, .connect false false .unspecified)]
      fun i : Bool => { key := if i then ⟨1⟩ else ⟨2⟩ }
    let s := Store.ranOn [(true, .savepoint 0), (false, .data 0 (.put "a" .null))] taken false
    let returned := (StoreCall.rollbackTo 0 ⟨1, 1, 0⟩).run s
    ((taken true).savepoint 0).map Prod.fst = .ok ⟨1, 1, 0⟩ ∧ s.log 0 = [.put "a" .null] ∧
      returned.1 = .ok () ∧ returned.2.log 0 = [] := by
  refine ⟨rfl, rfl, rfl, rfl⟩

end Demarcation
