/-
The printed text of a tree is a text of the grammar, as long as the tree can be written at all: its literals spell
texts, and its numbers are written as numbers are.
-/
import Demarcation.Json.Printer
import Demarcation.Proofs.Json.Grammar
import Demarcation.Proofs.Text.Number
import Mathlib.Tactic.SplitIfs

namespace Demarcation.Json

open Demarcation.Text

/-! ## Literals -/

theorem hexDigit?_digitChar : ∀ d < 16, hexDigit? d.digitChar = some d := by decide

theorem hexPair_eq : ∀ n < 32, hexPair n = [(n / 16).digitChar, (n % 16).digitChar] := by decide

/-- The numbered escape of a control character. -/
theorem pieceText_hexPair {c : Char} (hc : c.toNat < 0x20) :
    PieceText (['\\', 'u', '0', '0'] ++ hexPair c.toNat) (.char c) := by
  rw [hexPair_eq c.toNat hc]
  refine .numbered ?_
  have hhigh := hexDigit?_digitChar (c.toNat / 16) (by omega)
  have hlow := hexDigit?_digitChar (c.toNat % 16) (by omega)
  have hzero : hexDigit? '0' = some 0 := by decide
  have hvalue : c.toNat / 16 * 16 + c.toNat % 16 = c.toNat := by omega
  have hsurrogate : ¬ (0xd800 ≤ c.toNat ∧ c.toNat < 0xe000) := by omega
  simp [Piece.ofHex?, hzero, hhigh, hlow, hvalue, hsurrogate, Char.ofNat_toNat]

theorem pieceText_escape (c : Char) : PieceText (escape c) (.char c) := by
  unfold escape
  split_ifs with quote backslash backspace feed newline return_ tab control
  · subst quote; exact .short rfl
  · subst backslash; exact .short rfl
  · subst backspace; exact .short rfl
  · subst feed; exact .short rfl
  · subst newline; exact .short rfl
  · subst return_; exact .short rfl
  · subst tab; exact .short rfl
  · exact pieceText_hexPair control
  · exact .plain (by omega) quote backslash

theorem piecesText_flatMap (s : List Char) : PiecesText (s.flatMap escape) (s.map .char) := by
  induction s with
  | nil => exact .nil
  | cons c s ih => exact .cons (pieceText_escape c) ih

theorem spell_map_char (s : List Char) : spell (s.map .char) = some s := by
  induction s with
  | nil => rfl
  | cons c s ih => simp [spell, ih]

theorem literalText_flatMap (s : String) : LiteralText (s.toList.flatMap escape) (some s) := by
  have hs := LiteralText.pieces (piecesText_flatMap s.toList)
  rwa [spell_map_char, Option.map_some, String.ofList_toList] at hs

/-! ## Numbers -/

theorem isDigit_eq (c : Char) : Text.isDigit c = c.isDigit := by
  rw [Bool.eq_iff_iff, Text.isDigit, Option.isSome_iff_exists]
  simp only [digit?_eq_some_iff, exists_and_left, exists_eq', and_true]

theorem digits_toDigits (n : Nat) : Digits (Nat.toDigits 10 n) :=
  ⟨Nat.toDigits_ne_nil, fun c hc => (isDigit_eq c).trans (Nat.isDigit_of_mem_toDigits (by decide) (by decide) hc)⟩

/-- Only a zero starts with a zero. -/
theorem toDigits_eq_cons {n : Nat} (hn : n ≠ 0) : ∃ c s, Nat.toDigits 10 n = c :: s ∧ c ≠ '0' := by
  induction n using Nat.strongRecOn with
  | _ n ih =>
    by_cases hlt : n < 10
    · have hdigit : ∀ d < 10, d ≠ 0 → d.digitChar ≠ '0' := by decide
      exact ⟨_, _, Nat.toDigits_of_lt_base hlt, hdigit n hlt hn⟩
    · obtain ⟨c, s, hs, hc⟩ := ih (n / 10) (by omega) (by omega)
      have hsplit := @Nat.toDigits_append_toDigits 10 (n / 10) (n % 10) (by decide) (by omega) (by omega)
      rw [Nat.div_add_mod, hs] at hsplit
      exact ⟨c, _, hsplit.symm, hc⟩

theorem wholeText_toDigits (n : Nat) : WholeText (Nat.toDigits 10 n) where
  toDigits := digits_toDigits n
  zero hzero := by
    by_cases hn : n = 0
    · rw [hn]
      rfl
    · obtain ⟨c, s, hs, hc⟩ := toDigits_eq_cons hn
      rw [hs] at hzero
      exact absurd (Option.some.inj hzero) hc

theorem numberText_ofInt (n : Int) : NumberText (Number.ofInt n).print (.ofInt n) := by
  have hsign : SignText (if n < 0 then ['-'] else []) (n < 0) := by
    by_cases hn : n < 0
    · rw [if_pos hn, decide_eq_true hn]
      exact .negative
    · rw [if_neg hn, decide_eq_false hn]
      exact .positive
  have hn := @NumberText.parts _ _ _ (.ofInt n) hsign (wholeText_toDigits n.natAbs) .none .none
  simpa [Number.print, Number.ofInt] using hn

theorem Number.ofInt_natCast (n : Nat) : Number.ofInt n = .ofNat n := by
  have hn : ¬ (n : Int) < 0 := by omega
  simp [Number.ofInt, Number.ofNat, hn]

theorem numberText_ofNat (n : Nat) : NumberText (Number.ofNat n).print (.ofNat n) :=
  Number.ofInt_natCast n ▸ numberText_ofInt n

/-! ## Trees -/

/-- A tree that can be written. -/
inductive Writable : Json → Prop
  | null : Writable .null
  | bool (b : Bool) : Writable (.bool b)
  | number {n : Number} : NumberText n.print n → Writable (.number n)
  | text (s : String) : Writable (.text (some s))
  | array {items : List Json} : (∀ j ∈ items, Writable j) → Writable (.array items)
  | object {members : List (Literal × Json)} : (∀ m ∈ members, m.1.isSome) → (∀ m ∈ members, Writable m.2) →
    Writable (.object members)

theorem writable_ofString (s : String) : Writable (.ofString s) := .text s

theorem writable_ofNat (n : Nat) : Writable (.ofNat n) := .number (numberText_ofNat n)

theorem writable_ofInt (n : Int) : Writable (.ofInt n) := .number (numberText_ofInt n)

theorem writable_ofMembers {members : List (String × Json)} (hmembers : ∀ m ∈ members, Writable m.2) :
    Writable (.ofMembers members) := by
  constructor
  · intro _ hk
    obtain ⟨m, -, rfl⟩ := List.mem_map.1 hk
    rfl
  · intro _ hk
    obtain ⟨m, hm, rfl⟩ := List.mem_map.1 hk
    exact hmembers m hm

theorem printItems_eq {j : Json} {js : List Json} (hjs : ∀ k ∈ j :: js, TreeText (print k) k) :
    ∃ s, printItems (j :: js) = s ++ [']'] ∧ ItemsText s (j :: js) := by
  induction js generalizing j with
  | nil =>
    refine ⟨print j, rfl, ?_⟩
    have hj := ItemsText.last gap_nil (hjs j List.mem_cons_self) gap_nil
    rwa [List.append_nil, List.nil_append] at hj
  | cons k js ih =>
    obtain ⟨s, hs, hitems⟩ := ih fun k hk => hjs k (List.mem_cons_of_mem j hk)
    refine ⟨print j ++ ',' :: s, by rw [printItems, hs]; simp, ?_⟩
    exact .cons gap_nil (hjs j List.mem_cons_self) gap_nil hitems

theorem memberText_print (s : String) {j : Json} (hj : TreeText (print j) j) :
    MemberText (Literal.print (some s) ++ ':' :: print j) (some s, j) := by
  have hpair := MemberText.pair gap_nil (literalText_flatMap s) gap_nil gap_nil hj gap_nil
  simpa [Literal.print, quote] using hpair

theorem printMembers_eq {m : Literal × Json} {ms : List (Literal × Json)}
    (hms : ∀ k ∈ m :: ms, MemberText (k.1.print ++ ':' :: print k.2) k) :
    ∃ s, printMembers (m :: ms) = s ++ ['\x7d'] ∧ MembersText s (m :: ms) := by
  induction ms generalizing m with
  | nil => exact ⟨m.1.print ++ ':' :: print m.2, by simp [printMembers], .last (hms m List.mem_cons_self)⟩
  | cons k ms ih =>
    obtain ⟨s, hs, hmembers⟩ := ih fun l hl => hms l (List.mem_cons_of_mem m hl)
    refine ⟨m.1.print ++ ':' :: print m.2 ++ ',' :: s, by rw [printMembers, hs]; simp, ?_⟩
    exact .cons (hms m List.mem_cons_self) hmembers

theorem Writable.treeText {j : Json} (hj : Writable j) : TreeText (print j) j := by
  induction hj with
  | null => exact .null
  | bool b => cases b <;> constructor
  | number hn => exact .number hn
  | text s => exact .text (literalText_flatMap s)
  | @array items _ ih =>
    cases items with
    | nil => exact .noItems gap_nil
    | cons j js =>
      obtain ⟨s, hs, hitems⟩ := printItems_eq ih
      rw [print, hs]
      exact .array hitems
  | @object members hnames _ ih =>
    have hmembers : ∀ m ∈ members, MemberText (m.1.print ++ ':' :: print m.2) m := by
      rintro ⟨name, j⟩ hm
      obtain ⟨s, rfl⟩ := Option.isSome_iff_exists.1 (hnames _ hm)
      exact memberText_print s (ih _ hm)
    cases members with
    | nil => exact .noMembers gap_nil
    | cons m ms =>
      obtain ⟨s, hs, hms⟩ := printMembers_eq hmembers
      rw [print, hs]
      exact .object hms

/-- What is written for a tree is read as that tree. -/
theorem parse?_toText {j : Json} (hj : Writable j) : parse? j.toText = some j := by
  refine parse?_complete ⟨[], print j, [], ?_, gap_nil, hj.treeText, gap_nil⟩
  rw [toText, String.toList_ofList, List.nil_append, List.append_nil]

end Demarcation.Json
