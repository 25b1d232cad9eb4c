/-
The order of texts. Character by character it is the order of their bytes in UTF-8, and the texts that begin
with a common one follow one another in it.
-/
import Mathlib.Data.List.Lex
import Mathlib.Tactic.SplitIfs

namespace Demarcation.Text

/-- The bytes of a text in UTF-8. -/
def bytes (s : String) : List UInt8 := s.toUTF8.data.toList

theorem bytes_eq (s : String) : bytes s = s.toList.flatMap String.utf8EncodeChar := by
  unfold bytes
  rw [String.toUTF8_eq_toByteArray, ← String.utf8Encode_toList, List.utf8Encode]
  exact List.toList_data_toByteArray

/-! ## Bytes in order -/

theorem code_lt (c : Char) : c.val.toNat < 0x110000 := by
  rcases c.valid with h | ⟨-, h⟩
  · exact Nat.lt_trans h (by decide)
  · exact h

/-- The first byte in which two characters differ is the lower one for the lower character. -/
theorem utf8EncodeChar_lt {a b : Char} (h : a < b) (xs ys : List UInt8) :
    String.utf8EncodeChar a ++ xs < String.utf8EncodeChar b ++ ys := by
  have hlt : a.val.toNat < b.val.toNat := h
  have ha := code_lt a
  have hb := code_lt b
  unfold String.utf8EncodeChar
  generalize a.val.toNat = m at *
  generalize b.val.toNat = n at *
  dsimp only
  -- one case for each pair of lengths; once no byte overflows, what is left is arithmetic
  split_ifs <;> simp (disch := omega) only [List.cons_append, List.nil_append, List.cons_lt_cons_iff,
    UInt8.lt_iff_toNat_lt, ← UInt8.toNat_inj, UInt8.toNat_ofNat', Nat.reducePow, Nat.mod_eq_of_lt] <;> omega

theorem utf8EncodeChar_ne_nil (c : Char) : String.utf8EncodeChar c ≠ [] := by
  intro h
  have hlength := String.length_utf8EncodeChar c
  have hpos := c.utf8Size_pos
  rw [h, List.length_nil] at hlength
  omega

theorem flatMap_utf8EncodeChar_lt {as bs : List Char} (h : as < bs) :
    as.flatMap String.utf8EncodeChar < bs.flatMap String.utf8EncodeChar := by
  induction as generalizing bs with
  | nil =>
    cases bs with
    | nil => exact absurd h (List.lt_irrefl _)
    | cons b bs =>
      obtain ⟨x, xs, hx⟩ := List.exists_cons_of_ne_nil (utf8EncodeChar_ne_nil b)
      simp [hx]
  | cons a as ih =>
    cases bs with
    | nil => exact absurd h (List.not_lt_nil _)
    | cons b bs =>
      rcases List.cons_lt_cons_iff.1 h with hab | ⟨rfl, hrest⟩
      · exact utf8EncodeChar_lt hab _ _
      · exact List.append_left_lt (ih hrest)

/-- Texts are ordered as their bytes are. -/
theorem lt_iff_bytes_lt {s t : String} : s < t ↔ bytes s < bytes t := by
  have hbytes : ∀ {s t : String}, s < t → bytes s < bytes t := by
    intro s t h
    rw [bytes_eq, bytes_eq]
    exact flatMap_utf8EncodeChar_lt h
  constructor
  · exact hbytes
  · intro h
    by_contra hle
    by_cases hts : t < s
    · exact List.lt_asymm (hbytes hts) h
    · obtain rfl := String.le_antisymm hts hle
      exact List.lt_irrefl _ h

/-! ## Texts with a common beginning -/

theorem toList_prefix_iff {start s : String} : start.toList <+: s.toList ↔ ∃ rest, s = start ++ rest := by
  constructor
  · rintro ⟨rest, h⟩
    exact ⟨String.ofList rest, String.toList_inj.1 (by simp [← h])⟩
  · rintro ⟨rest, rfl⟩
    simp

theorem not_append_lt (start rest : String) : ¬ start ++ rest < start := by
  show ¬ (start ++ rest).toList < start.toList
  rw [String.toList_append]
  exact List.le_append_left

/-- Nothing stands between a text and what it begins but what it begins too. -/
theorem prefix_of_between {start xs ys : List Char} (hle : ¬ xs < start) (hlt : xs < ys) (h : start <+: ys) :
    start <+: xs := by
  induction start generalizing xs ys with
  | nil => exact List.nil_prefix
  | cons c start ih =>
    obtain ⟨rest, rfl⟩ := h
    cases xs with
    | nil => exact absurd (List.nil_lt_cons c start) hle
    | cons x xs =>
      rw [List.cons_lt_cons_iff] at hle
      rcases List.cons_lt_cons_iff.1 hlt with hxc | ⟨rfl, hrest⟩
      · exact absurd (.inl hxc) hle
      · exact List.cons_prefix_cons.2 ⟨rfl, ih (fun h => hle (.inr ⟨rfl, h⟩)) hrest ⟨rest, rfl⟩⟩

end Demarcation.Text
