/-
Entries as a map. They stand in the order of their keys, each key once, and changes keep them so; what a
change does to the value of each key, and what the last of several changes leaves there.
-/
import Demarcation.Proofs.Text.Order
import Demarcation.Store.Connection

namespace Demarcation

open Text

/-- Whether a key begins with a text. -/
def Entries.covers (start key : String) : Bool := start.toList.isPrefixOf key.toList

namespace Entries

variable {es : Entries} {key k start : String} {v value : Value} {w : Write}

theorem covers_iff : covers start key = true ↔ ∃ rest, key = start ++ rest := by
  unfold covers
  rw [List.isPrefixOf_iff_prefix, toList_prefix_iff]

/-- The entries are in strictly increasing order of the keys. -/
def Ordered (es : Entries) : Prop := es.Pairwise fun a b => a.1 < b.1

theorem Ordered.nil : Ordered [] := List.Pairwise.nil

/-! ## Changes keep the order -/

theorem mem_insert {e : String × Value} (he : e ∈ es.insert key value) : e = (key, value) ∨ e ∈ es := by
  induction es with
  | nil => exact .inl (List.mem_singleton.1 he)
  | cons e₁ es ih =>
    obtain ⟨k₁, v₁⟩ := e₁
    unfold insert at he
    split at he
    · simpa using he
    · split at he
      · rcases List.mem_cons.1 he with rfl | hold
        · exact .inl rfl
        · exact .inr (List.mem_cons_of_mem _ hold)
      · rcases List.mem_cons.1 he with rfl | hrest
        · exact .inr List.mem_cons_self
        · rcases ih hrest with rfl | hold
          · exact .inl rfl
          · exact .inr (List.mem_cons_of_mem _ hold)

theorem Ordered.insert (h : es.Ordered) (key : String) (value : Value) : (es.insert key value).Ordered := by
  induction es with
  | nil => exact List.pairwise_singleton _ _
  | cons e es ih =>
    obtain ⟨k₁, v₁⟩ := e
    obtain ⟨hbelow, hrest⟩ := List.pairwise_cons.1 h
    unfold Entries.insert
    split
    · rename_i hlt
      refine List.pairwise_cons.2 ⟨?_, h⟩
      intro e he
      rcases List.mem_cons.1 he with rfl | hold
      · exact hlt
      · exact String.lt_trans hlt (hbelow e hold)
    · split
      · rename_i heq
        subst heq
        exact List.pairwise_cons.2 ⟨hbelow, hrest⟩
      · rename_i hle hne
        refine List.pairwise_cons.2 ⟨?_, ih hrest⟩
        intro e he
        rcases mem_insert he with rfl | hold
        · exact Decidable.not_not.1 fun hge => hne (String.le_antisymm hle hge)
        · exact hbelow e hold

theorem Ordered.erase (h : es.Ordered) (key : String) : (es.erase key).Ordered :=
  h.sublist List.filter_sublist

theorem Ordered.apply (h : es.Ordered) (w : Write) : (es.apply w).Ordered := by
  cases w with
  | put key value => exact h.insert key value
  | delete key => exact h.erase key

theorem Ordered.applyAll (h : es.Ordered) (log : List Write) : (es.applyAll log).Ordered := by
  induction log generalizing es with
  | nil => exact h
  | cons w log ih => exact ih (h.apply w)

/-! ## The value of a key -/

theorem value?_insert (es : Entries) (key : String) (value : Value) (k : String) :
    (es.insert key value).value? k = if k = key then some value else es.value? k := by
  induction es with
  | nil => simp [insert, value?, eq_comm]
  | cons e es ih =>
    obtain ⟨k₁, v₁⟩ := e
    unfold insert
    split
    · simp [value?, eq_comm]
    · split
      · rename_i heq
        subst heq
        by_cases hk : k₁ = k
        · simp [value?, hk]
        · simp [value?, hk, Ne.symm hk]
      · rename_i hne
        by_cases hk : k₁ = k
        · simp [value?, ← hk, hne]
        · simp [value?, hk, ih]

theorem value?_filter (p : String → Bool) (es : Entries) (k : String) :
    value? (es.filter fun e => p e.1) k = if p k then es.value? k else none := by
  induction es with
  | nil => simp [value?]
  | cons e es ih =>
    obtain ⟨k₁, v₁⟩ := e
    by_cases hk : k₁ = k
    · subst hk
      by_cases hp : p k₁ <;> simp [value?, hp, ih]
    · by_cases hp : p k₁ <;> simp [value?, hp, hk, ih]

theorem value?_erase (es : Entries) (key k : String) :
    (es.erase key).value? k = if k = key then none else es.value? k := by
  unfold erase
  rw [value?_filter (· != key)]
  by_cases hk : k = key <;> simp [hk]

theorem value?_apply (es : Entries) (w : Write) (k : String) :
    (es.apply w).value? k = if k = w.key then w.value? else es.value? k := by
  cases w with
  | put key value => exact value?_insert es key value k
  | delete key => exact value?_erase es key k

/-- Of several changes of a key the last one counts. -/
theorem value?_applyAll (es : Entries) (log : List Write) (k : String) :
    (es.applyAll log).value? k =
      match log.reverse.find? fun w => w.key == k with
      | some w => w.value?
      | none => es.value? k := by
  induction log generalizing es with
  | nil => rfl
  | cons w log ih =>
    show ((es.apply w).applyAll log).value? k = _
    rw [ih, List.reverse_cons, List.find?_append]
    cases log.reverse.find? fun w => w.key == k with
    | some w' => rfl
    | none =>
      rw [value?_apply]
      by_cases hk : w.key = k
      · simp [hk]
      · simp [hk, Ne.symm hk]

/-- Of ordered entries, those of a key are its value. -/
theorem Ordered.mem_iff (h : es.Ordered) : (k, v) ∈ es ↔ es.value? k = some v := by
  induction es with
  | nil => simp [value?]
  | cons e es ih =>
    obtain ⟨k₁, v₁⟩ := e
    obtain ⟨hbelow, hrest⟩ := List.pairwise_cons.1 h
    by_cases hk : k₁ = k
    · subst hk
      constructor
      · intro hmem
        rcases List.mem_cons.1 hmem with heq | hold
        · cases heq
          simp [value?]
        · exact absurd (hbelow _ hold) (String.lt_irrefl _)
      · intro hvalue
        simp only [value?, if_true, Option.some.injEq] at hvalue
        simp [hvalue]
    · simp [value?, hk, Ne.symm hk, ih hrest]

/-! ## Keys with a common beginning -/

/-- From a text on, the ordered keys that it begins come first. -/
theorem Ordered.takeWhile_covers (h : es.Ordered) (hfrom : ∀ e ∈ es, ¬ e.1 < start) :
    es.takeWhile (fun e => covers start e.1) = es.filter fun e => covers start e.1 := by
  induction es with
  | nil => rfl
  | cons e es ih =>
    obtain ⟨hbelow, hrest⟩ := List.pairwise_cons.1 h
    by_cases he : covers start e.1 = true
    · simp [he, ih hrest fun e' he' => hfrom e' (List.mem_cons_of_mem _ he')]
    · -- no later key begins with the text either
      have hnone : es.filter (fun e => covers start e.1) = [] := by
        refine List.filter_eq_nil_iff.2 fun e' he' hcovers => he ?_
        refine List.isPrefixOf_iff_prefix.2 (prefix_of_between (hfrom e List.mem_cons_self) (hbelow e' he') ?_)
        exact List.isPrefixOf_iff_prefix.1 hcovers
      simp [he, hnone]

/-- In ordered entries the keys that begin with a text stand together. -/
theorem Ordered.startingWith_eq (h : es.Ordered) (start : String) :
    es.startingWith start = es.filter fun e => covers start e.1 := by
  induction es with
  | nil => rfl
  | cons e es ih =>
    obtain ⟨hbelow, hrest⟩ := List.pairwise_cons.1 h
    unfold startingWith at ih ⊢
    by_cases he : e.1 < start
    · have hnot : covers start e.1 = false := by
        refine Bool.eq_false_iff.2 fun hcovers => ?_
        obtain ⟨rest, hrest⟩ := covers_iff.1 hcovers
        exact not_append_lt start rest (hrest ▸ he)
      rw [List.dropWhile_cons_of_pos (by simpa using he), List.filter_cons_of_neg (by simp [hnot])]
      exact ih hrest
    · rw [List.dropWhile_cons_of_neg (by simpa using he)]
      refine h.takeWhile_covers fun e' he' => ?_
      rcases List.mem_cons.1 he' with rfl | hlater
      · exact he
      · exact fun hlt => he (String.lt_trans (hbelow e' hlater) hlt)

theorem Ordered.startingWith (h : es.Ordered) (start : String) : (es.startingWith start).Ordered := by
  rw [h.startingWith_eq]
  exact h.sublist List.filter_sublist

theorem Ordered.value?_startingWith (h : es.Ordered) (start k : String) :
    (es.startingWith start).value? k = if covers start k then es.value? k else none := by
  rw [h.startingWith_eq, value?_filter]

end Entries

end Demarcation
