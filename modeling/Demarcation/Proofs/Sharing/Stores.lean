/-
Stores that share a session. Whatever is done with some of the stores, through their managers, through contexts and
on their connections, does the same as without the steps on the other ones, and leaves these as they are.
-/
import Demarcation.Proofs.Sharing.Managers
import Demarcation.Systems

namespace Demarcation

open Session

variable {α β ε : Type}

/-! ## Operations on a store among others -/

/-- The party of the stores at some places. -/
def Systems.party (P : Nat → Prop) : Party Systems where
  keys k := ∃ i, P i ∧ k = Systems.storeKey i
  same t u := ∀ i, P i → u.stores[i]? = t.stores[i]?

namespace Systems

variable {P P' : Nat → Prop} {i : Nat}

theorem store_congr {t u : Systems} (h : u.stores[i]? = t.stores[i]?) : u.store i = t.store i := by
  unfold store
  rw [Array.getD_eq_getD_getElem?, Array.getD_eq_getD_getElem?, h]

theorem getElem?_set (t : Systems) (s : Store) (k : Nat) :
    ((storeSlot i).set s t).stores[k]? = if k = i then t.stores[k]?.map fun _ => s else t.stores[k]? := by
  show (t.stores.setIfInBounds i s)[k]? = _
  rw [Array.getElem?_setIfInBounds]
  by_cases hk : k = i
  · subst hk
    rw [if_pos rfl, if_pos rfl]
    split
    · rename_i hlt
      rw [Array.getElem?_eq_getElem hlt]; rfl
    · rename_i hge
      rw [Array.getElem?_eq_none (Nat.le_of_not_lt hge)]; rfl
  · rw [if_neg hk, if_neg (Ne.symm hk)]

/-- An operation on one of a party's stores is the party's. -/
theorem local_run (hi : P i) (hother : ∀ k, P' k → k ≠ i) (op : Store → α × Store) :
    (party P).Local (party P') ((storeSlot i).run op) where
  answer t u h := congrArg (fun s => (op s).1) (store_congr (h i hi))
  same t u h k hk := by
    show ((storeSlot i).set (op (u.store i)).2 u).stores[k]? = ((storeSlot i).set (op (t.store i)).2 t).stores[k]?
    rw [getElem?_set, getElem?_set, store_congr (h i hi), h k hk]
  spares t v h k hk := by
    show v.stores[k]? = ((storeSlot i).set (op (t.store i)).2 t).stores[k]?
    rw [getElem?_set, if_neg (hother k hk)]
    exact h k hk

theorem local_fail {σ : Type} {p p' : Party σ} (f : Failure) : p.Local p' (Native.fail f : Native σ α) :=
  ⟨fun _ _ _ => rfl, fun _ _ h => h, fun _ _ h => h⟩

theorem local_map {σ : Type} {p p' : Party σ} {op : σ → α × σ} (hop : p.Local p' op) (f : α → β) :
    p.Local p' fun t => (f (op t).1, (op t).2) :=
  ⟨fun t u h => congrArg f (hop.answer t u h), hop.same, hop.spares⟩

/-- A backend on a part of the native state is a party's if what is done to that part is. -/
theorem local_embed {σ τ ρ ρ' ς ς' : Type} {p p' : Party τ} {b : Backend σ ρ ς} {slot : Slot τ σ}
    (hkey : p.keys b.key) (hrun : ∀ {α : Type} (op : σ → α × σ), p.Local p' (slot.run op)) (resource : Case ρ' ρ)
    (savepoint : Case ς' ς) : (b.embed slot resource savepoint).Local p p' := by
  refine ⟨hkey, fun d => local_map (hrun (b.start d)) _, fun r => ?_, fun r => ?_, fun r => ?_, fun r => ?_,
    fun r => ?_, fun r => ?saves, fun r sp => ?_, fun r sp => ?_⟩
  case saves =>
    unfold Backend.embed
    dsimp only
    refine local_map ?_ _
    split
    · exact hrun _
    · exact local_fail _
  -- the other operations only look whether what they are given is of the backend's making
  all_goals
    unfold Backend.embed
    dsimp only
    split
    · exact hrun _
    · exact local_fail _

/-- The backend of one of a party's stores is the party's. -/
theorem local_backend (t : Systems) (hi : P i) (hother : ∀ k, P' k → k ≠ i) :
    (Part.backend t (.store i)).Local (party P) (party P') :=
  local_embed (show (party P).keys (storeKey i) from ⟨i, hi, rfl⟩) (local_run hi hother) _ _

end Systems

/-! ## Connections of a context -/

/-- The accesses are to the same connection, and, of a transaction, through the same holder. -/
inductive Names.SameAccess (n : Names) : Access → Access → Prop
  | transactional {h h' : HolderId} (c : ConnectionId) : n.SameHolder h h' →
    SameAccess n (.transactional h c) (.transactional h' c)
  | autoCommit (c : ConnectionId) : SameAccess n (.autoCommit c) (.autoCommit c)

theorem Names.SameAccess.connection {n : Names} {x x' : Access} (h : n.SameAccess x x') :
    x'.connection = x.connection := by
  cases h <;> rfl

theorem Names.SameAccess.isTransactional {n : Names} {x x' : Access} (h : n.SameAccess x x') :
    x'.isTransactional = x.isTransactional := by
  cases h <;> rfl

namespace Systems

variable {P P' : Nat → Prop} {i : Nat} (hi : P i) (hother : ∀ k, P' k → k ≠ i) {n : Names}

section Sessions

variable {n' : Names} {s a b : SystemsSession} (hs : Split (party P) (party P') n n' s a b)
include hs hi

theorem store_seen : (site i).store a = (site i).store s := store_congr (hs.mine.native i hi)

include hother

theorem split_modifyStore (f : Store → Store) :
    Split (party P) (party P') n n' ((site i).modifyStore f s) ((site i).modifyStore f a) b := by
  have hlocal := local_run hi hother fun st => ((), f st)
  exact hs.withNative (hlocal.same _ _ hs.mine.native) (hlocal.spares _)

end Sessions

include hi hother

theorem perform_tracks (op : Store → Except StorageError (α × Store)) :
    Tracks (party P) (party P') n ((site i).perform op : Attempt Systems Resource AnySavepoint _ _)
      ((site i).perform op) (Names.Answer Names.Equal) := by
  intro n₁ n' s a b _ hs hnow
  unfold StoreSite.perform
  rw [store_seen hi hs]
  cases op ((site i).store s) with
  | error e => exact ⟨n₁, .refl n₁, hs, hnow, .error e⟩
  | ok r => exact ⟨n₁, .refl n₁, split_modifyStore hi hother hs fun _ => r.2, hnow, .ok rfl⟩

theorem connectAlone_tracks :
    Tracks (party P) (party P') n ((site i).connectAlone : Attempt Systems Resource AnySavepoint _ _)
      (site i).connectAlone (Names.Answer Names.SameAccess) := by
  intro n₁ n' s a b _ hs hnow
  unfold StoreSite.connectAlone
  rw [store_seen hi hs]
  rcases ((site i).store s).connect false true .unspecified with ⟨conn, store⟩
  exact ⟨n₁, .refl n₁, split_modifyStore hi hother hs fun _ => store, hnow, .ok (.autoCommit conn)⟩

omit hi hother in
theorem timeToLive_tracks {σ ρ ς : Type} {p p' : Party σ} {h h' : HolderId} (hh : n.SameHolder h h') :
    Tracks p p' n (StoreSite.timeToLive h : Attempt σ ρ ς _ _) (StoreSite.timeToLive h')
      (Names.Answer Names.Equal) := by
  intro n₁ n' s a b hle hs hnow
  obtain ⟨hlt, hsame⟩ := hs.mine.holder h h' (hle.holder hh)
  obtain ⟨x, hx⟩ := exists_holder hlt
  unfold StoreSite.timeToLive
  rw [hsame, hx, hnow]
  refine ⟨n₁, .refl n₁, hs.modifyHolder (hle.holder hh) _, hnow, ?_⟩
  dsimp only
  cases (x.timeToLive s.now).1 with
  | ok d => exact .ok rfl
  | error e => exact .error e

theorem access_tracks (c : ContextIndex) :
    Tracks (party P) (party P') n ((site i).access c : Attempt Systems Resource AnySavepoint _ _)
      ((site i).access c) (Names.Answer Names.SameAccess) := by
  have hkey : (party P).keys (site i).key := ⟨i, hi, rfl⟩
  unfold StoreSite.access
  refine ((Tracks.find hkey).adapt _).bind fun n₁ o o' _ ho => ?_
  cases ho with
  | none => exact connectAlone_tracks hi hother
  | @some h h' hh =>
    refine ((timeToLive_tracks hh).adapt _).bind fun n₂ _ _ hle₂ _ => ?_
    refine Tracks.reading fun n₃ n' s a b hle₃ hs => ?_
    have hh₃ := hle₃.holder (hle₂.holder hh)
    rw [(hs.mine.holder h h' hh₃).2]
    cases (s.holder? h).bind fun x => (site i).resource.unwrap x.resource with
    | none => exact connectAlone_tracks hi hother
    | some conn => exact .ok fun n₄ hle₄ => .transactional conn (hle₄.holder hh₃)

theorem through_tracks (c : ContextIndex) (op : ConnectionId → Store → Except StorageError (α × Store)) :
    Tracks (party P) (party P') n ((site i).through c op : Attempt Systems Resource AnySavepoint _ _)
      ((site i).through c op) (Names.Answer Names.Equal) := by
  unfold StoreSite.through
  refine (access_tracks hi hother c).bind fun n₁ x x' _ hx => ?_
  rw [hx.connection]
  refine (Tracks.observe (perform_tracks hi hother _)).bind fun n₂ r r' _ hr => ?_
  obtain rfl := hr.eq
  have hleave : ∀ n₃ n' (s a b : SystemsSession), n₂.Le n₃ → Split (party P) (party P') n₃ n' s a b →
      Split (party P) (party P') n₃ n' ((site i).leave x s) ((site i).leave x' a) b := by
    intro n₃ n' s a b _ hs
    cases hx with
    | transactional => exact hs
    | autoCommit conn => exact split_modifyStore hi hother hs fun store => store.close conn
  have hclock : ∀ s a : SystemsSession, a.now = s.now → ((site i).leave x' a).now = ((site i).leave x s).now := by
    intro s a hnow
    cases hx <;> exact hnow
  refine (Tracks.modified hleave hclock).bind fun _ _ _ _ _ => ?_
  cases r with
  | ok v => exact .ok fun _ _ => rfl
  | error e => exact .throw e

end Systems

end Demarcation
