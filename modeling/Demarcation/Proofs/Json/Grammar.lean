/-
The texts of JSON as a grammar of its own: gaps, literals with their escapes, numbers, and the trees made of them.
The parser reads every text of the grammar as the tree that it spells.
-/
import Demarcation.Json.Parser

namespace Demarcation.Json

open Demarcation.Text

/-! ## Gaps -/

/-- Nothing but blanks. -/
def Gap (s : List Char) : Prop := ∀ c ∈ s, isGap c = true

theorem isGap_iff {c : Char} : isGap c = true ↔ c = ' ' ∨ c = '\n' ∨ c = '\t' ∨ c = '\r' := by
  simp [isGap, or_assoc]

theorem gap_nil : Gap [] := by simp [Gap]

theorem skipGap_append {g : List Char} (hg : Gap g) (s : List Char) : skipGap (g ++ s) = skipGap s :=
  List.dropWhile_append_of_pos hg

theorem skipGap_cons {c : Char} (hc : isGap c = false) (s : List Char) : skipGap (c :: s) = c :: s :=
  List.dropWhile_cons_of_neg (by simp [hc])

theorem skipGap_of_gap {g : List Char} (hg : Gap g) : skipGap g = [] := by
  rw [← List.append_nil g, skipGap_append hg]
  rfl

/-! ## Literals -/

/-- How a piece is written between quotes. -/
inductive PieceText : List Char → Piece → Prop
  | plain {c : Char} (visible : 0x20 ≤ c.toNat) (quote : c ≠ '"') (backslash : c ≠ '\\') : PieceText [c] (.char c)
  | short {e c : Char} (escape : shortEscape? e = some c) : PieceText ['\\', e] (.char c)
  | numbered {a b c d : Char} {p : Piece} (digits : Piece.ofHex? a b c d = some p) :
    PieceText ['\\', 'u', a, b, c, d] p

inductive PiecesText : List Char → List Piece → Prop
  | nil : PiecesText [] []
  | cons {s t : List Char} {p : Piece} {ps : List Piece} : PieceText s p → PiecesText t ps →
    PiecesText (s ++ t) (p :: ps)

/-- How a literal is written between its quotes. -/
inductive LiteralText : List Char → Literal → Prop
  | pieces {s : List Char} {ps : List Piece} : PiecesText s ps → LiteralText s ((spell ps).map String.ofList)

theorem pieces?_append {s : List Char} {p : Piece} (hs : PieceText s p) {t rest : List Char} {ps : List Piece}
    (ht : pieces? t = some (ps, rest)) : pieces? (s ++ t) = some (p :: ps, rest) := by
  cases hs with
  | @plain c visible quote backslash =>
    rw [List.singleton_append, pieces?] <;> simp_all
  | @short e c escape =>
    -- the letter of the numbered escapes is that of no short one
    have hu : e ≠ 'u' := by
      rintro rfl
      simp [shortEscape?] at escape
    rw [List.cons_append, List.singleton_append, pieces?]
    · simp [escape, ht]
    · intro a b c d s he
      exact absurd he hu
  | numbered digits => simp [pieces?, digits, ht]

theorem pieces?_complete {s : List Char} {ps : List Piece} (hs : PiecesText s ps) (rest : List Char) :
    pieces? (s ++ '"' :: rest) = some (ps, rest) := by
  induction hs with
  | nil => simp [pieces?]
  | cons hp _ ih =>
    rw [List.append_assoc]
    exact pieces?_append hp ih

theorem literal?_complete {s : List Char} {t : Literal} (hs : LiteralText s t) (rest : List Char) :
    literal? (s ++ '"' :: rest) = some (t, rest) := by
  obtain ⟨hs⟩ := hs
  rw [literal?, pieces?_complete hs]
  rfl

/-! ## Numbers -/

/-- One or more digits. -/
structure Digits (ds : List Char) : Prop where
  ne_nil : ds ≠ []
  digits : ∀ c ∈ ds, isDigit c = true

inductive SignText : List Char → Bool → Prop
  | positive : SignText [] false
  | negative : SignText ['-'] true

/-- Digits before the point: a zero alone, or digits that start with another one. -/
structure WholeText (ds : List Char) : Prop extends Digits ds where
  zero : ds.head? = some '0' → ds.length = 1

inductive FractionText : List Char → Option (List Char) → Prop
  | none : FractionText [] none
  | some {ds : List Char} (digits : Digits ds) : FractionText ('.' :: ds) (some ds)

inductive ExponentText : List Char → Option (Bool × List Char) → Prop
  | none : ExponentText [] none
  | unsigned {e : Char} {ds : List Char} (letter : e = 'e' ∨ e = 'E') (digits : Digits ds) :
    ExponentText (e :: ds) (some (false, ds))
  | positive {e : Char} {ds : List Char} (letter : e = 'e' ∨ e = 'E') (digits : Digits ds) :
    ExponentText (e :: '+' :: ds) (some (false, ds))
  | negative {e : Char} {ds : List Char} (letter : e = 'e' ∨ e = 'E') (digits : Digits ds) :
    ExponentText (e :: '-' :: ds) (some (true, ds))

inductive NumberText : List Char → Number → Prop
  | parts {sign fraction exponent : List Char} {n : Number} : SignText sign n.negative → WholeText n.whole →
    FractionText fraction n.fraction → ExponentText exponent n.exponent →
    NumberText (sign ++ n.whole ++ fraction ++ exponent) n

/-- The text does not start with a digit. -/
def NoDigit (s : List Char) : Prop := ∀ c ∈ s.head?, isDigit c = false

/-- The text does not continue a number before it. -/
structure Stops (s : List Char) : Prop where
  digit : NoDigit s
  point : s.head? ≠ some '.'
  exponent : ∀ c ∈ s.head?, ¬ (c = 'e' ∨ c = 'E')

theorem Digits.eq_cons {ds : List Char} (hds : Digits ds) : ∃ c s, ds = c :: s ∧ isDigit c = true := by
  obtain ⟨c, s, rfl⟩ := List.exists_cons_of_ne_nil hds.ne_nil
  exact ⟨c, s, rfl, hds.digits c List.mem_cons_self⟩

theorem ne_of_isDigit {c d : Char} (hc : isDigit c = true) (hd : isDigit d = false) : c ≠ d := by
  rintro rfl
  exact absurd hc (by simp [hd])

theorem digitRun?_complete {ds rest : List Char} (hds : Digits ds) (hrest : NoDigit rest) :
    digitRun? (ds ++ rest) = some (ds, rest) := by
  have htake : rest.takeWhile isDigit = [] := by cases rest <;> simp_all [NoDigit]
  have hdrop : rest.dropWhile isDigit = rest := by cases rest <;> simp_all [NoDigit]
  simp [digitRun?, List.takeWhile_append_of_pos hds.digits, List.dropWhile_append_of_pos hds.digits, htake, hdrop,
    hds.ne_nil]

theorem whole?_complete {ds rest : List Char} (hds : WholeText ds) (hrest : NoDigit rest) :
    whole? (ds ++ rest) = some (ds, rest) := by
  have hzero : ¬ (ds.head? = some '0' ∧ ds.length ≠ 1) := fun h => h.2 (hds.zero h.1)
  simp [whole?, digitRun?_complete hds.toDigits hrest, hzero]

theorem fraction?_complete {s rest : List Char} {ds : Option (List Char)} (hs : FractionText s ds)
    (hrest : NoDigit rest) (hpoint : rest.head? ≠ some '.') : fraction? (s ++ rest) = some (ds, rest) := by
  cases hs with
  | none =>
    rw [List.nil_append, fraction?]
    rintro s rfl
    exact hpoint rfl
  | some digits => simp [fraction?, digitRun?_complete digits hrest]

theorem exponent?_complete {s rest : List Char} {e : Option (Bool × List Char)} (hs : ExponentText s e)
    (hrest : Stops rest) : exponent? (s ++ rest) = some (e, rest) := by
  cases hs with
  | none =>
    cases rest with
    | nil => rfl
    | cons c rest => exact if_neg (hrest.exponent c rfl)
  | unsigned letter digits =>
    have hrun := digitRun?_complete digits hrest.digit
    obtain ⟨c, s, rfl, hc⟩ := digits.eq_cons
    have hminus : c ≠ '-' := ne_of_isDigit hc (by decide)
    have hplus : c ≠ '+' := ne_of_isDigit hc (by decide)
    simp [exponent?, letter, hminus, hplus] at hrun ⊢
    simp [hrun]
  | positive letter digits => simp [exponent?, letter, digitRun?_complete digits hrest.digit]
  | negative letter digits => simp [exponent?, letter, digitRun?_complete digits hrest.digit]

/-- What follows the digits before the point, and what follows the fraction. -/
theorem ExponentText.follows {s rest : List Char} {e : Option (Bool × List Char)} (hs : ExponentText s e)
    (hrest : Stops rest) : NoDigit (s ++ rest) ∧ (s ++ rest).head? ≠ some '.' := by
  have hletter : ∀ {c : Char} (s : List Char), c = 'e' ∨ c = 'E' → NoDigit (c :: s) ∧ (c :: s).head? ≠ some '.' := by
    rintro c s (rfl | rfl) <;> exact ⟨fun _ h => by cases h; decide, by simp⟩
  cases hs with
  | none => exact ⟨hrest.digit, hrest.point⟩
  | unsigned letter | positive letter | negative letter => exact hletter _ letter

theorem FractionText.follows {s rest : List Char} {ds : Option (List Char)} (hs : FractionText s ds)
    (hrest : NoDigit rest) : NoDigit (s ++ rest) := by
  cases hs with
  | none => exact hrest
  | some => exact fun _ h => by cases h; decide

theorem number?_complete {s rest : List Char} {n : Number} (hs : NumberText s n) (hrest : Stops rest) :
    number? (s ++ rest) = some (n, rest) := by
  cases hs with
  | @parts sign fraction exponent _ hsign hwhole hfraction hexponent =>
    obtain ⟨hnodigit, hpoint⟩ := hexponent.follows hrest
    have hrun := whole?_complete hwhole (hfraction.follows hnodigit)
    have hfraction := fraction?_complete hfraction hnodigit hpoint
    have hexponent := exponent?_complete hexponent hrest
    simp only [List.append_assoc]
    rcases n with ⟨negative, whole, _, _⟩
    cases hsign with
    | negative => simp [number?, hrun, hfraction, hexponent]
    | positive =>
      obtain ⟨c, ds, rfl, hc⟩ := hwhole.toDigits.eq_cons
      have hminus : c ≠ '-' := ne_of_isDigit hc (by decide)
      rw [List.cons_append] at hrun
      simp [number?, hminus, hrun, hfraction, hexponent]

/-! ## Trees -/

mutual

/-- The text of a tree, without gaps around it. -/
inductive TreeText : List Char → Json → Prop
  | null : TreeText ['n', 'u', 'l', 'l'] .null
  | yes : TreeText ['t', 'r', 'u', 'e'] (.bool true)
  | no : TreeText ['f', 'a', 'l', 's', 'e'] (.bool false)
  | number {s : List Char} {n : Number} : NumberText s n → TreeText s (.number n)
  | text {s : List Char} {t : Literal} : LiteralText s t → TreeText ('"' :: (s ++ ['"'])) (.text t)
  | noItems {g : List Char} : Gap g → TreeText ('[' :: (g ++ [']'])) (.array [])
  | array {s : List Char} {items : List Json} : ItemsText s items → TreeText ('[' :: (s ++ [']'])) (.array items)
  | noMembers {g : List Char} : Gap g → TreeText ('\x7b' :: (g ++ ['\x7d'])) (.object [])
  | object {s : List Char} {members : List (Literal × Json)} : MembersText s members →
    TreeText ('\x7b' :: (s ++ ['\x7d'])) (.object members)

/-- One or more items with commas between them. -/
inductive ItemsText : List Char → List Json → Prop
  | last {g₁ s g₂ : List Char} {j : Json} : Gap g₁ → TreeText s j → Gap g₂ → ItemsText (g₁ ++ (s ++ g₂)) [j]
  | cons {g₁ s g₂ t : List Char} {j : Json} {js : List Json} : Gap g₁ → TreeText s j → Gap g₂ → ItemsText t js →
    ItemsText (g₁ ++ (s ++ (g₂ ++ ',' :: t))) (j :: js)

/-- One or more members with commas between them. -/
inductive MembersText : List Char → List (Literal × Json) → Prop
  | last {s : List Char} {m : Literal × Json} : MemberText s m → MembersText s [m]
  | cons {s t : List Char} {m : Literal × Json} {ms : List (Literal × Json)} : MemberText s m → MembersText t ms →
    MembersText (s ++ ',' :: t) (m :: ms)

/-- A name and a tree, with gaps around both. -/
inductive MemberText : List Char → Literal × Json → Prop
  | pair {g₁ k g₂ g₃ s g₄ : List Char} {name : Literal} {j : Json} : Gap g₁ → LiteralText k name → Gap g₂ →
    Gap g₃ → TreeText s j → Gap g₄ →
    MemberText (g₁ ++ '"' :: (k ++ '"' :: (g₂ ++ ':' :: (g₃ ++ (s ++ g₄))))) (name, j)

end

/-- A whole text, with gaps around the tree. -/
def Spells (text : String) (j : Json) : Prop :=
  ∃ g₁ s g₂, text.toList = g₁ ++ (s ++ g₂) ∧ Gap g₁ ∧ TreeText s j ∧ Gap g₂

/-! ## The parser on the grammar -/

theorem stops_nil : Stops [] := ⟨by simp [NoDigit], by simp, by simp⟩

theorem stops_cons {c : Char} (hc : c = ',' ∨ c = ']' ∨ c = '\x7d') (s : List Char) : Stops (c :: s) := by
  rcases hc with rfl | rfl | rfl <;> exact ⟨fun _ h => by cases h; decide, by simp, by simp⟩

theorem stops_gap {g : List Char} (hg : Gap g) {s : List Char} (hs : Stops s) : Stops (g ++ s) := by
  cases g with
  | nil => exact hs
  | cons c g =>
    rcases isGap_iff.1 (hg c List.mem_cons_self) with rfl | rfl | rfl | rfl <;>
      exact ⟨fun _ h => by cases h; decide, by simp, by simp⟩

/-- A number starts with a sign or a digit, which no other tree does. -/
theorem NumberText.eq_cons {s : List Char} {n : Number} (hs : NumberText s n) :
    ∃ c t, s = c :: t ∧ ∀ d, isDigit d = false → d ≠ '-' → c ≠ d := by
  cases hs with
  | @parts sign fraction exponent _ hsign hwhole hfraction hexponent =>
    rcases n with ⟨negative, whole, _, _⟩
    cases hsign with
    | negative => exact ⟨'-', _, rfl, fun _ _ hd => hd.symm⟩
    | positive =>
      obtain ⟨c, ds, rfl, hc⟩ := hwhole.toDigits.eq_cons
      exact ⟨c, _, rfl, fun _ hd _ => ne_of_isDigit hc hd⟩

/-- A tree starts with no blank and with no bracket that closes one. -/
theorem TreeText.eq_cons {s : List Char} {j : Json} (hs : TreeText s j) :
    ∃ c t, s = c :: t ∧ isGap c = false ∧ c ≠ ']' := by
  cases hs with
  | number hn =>
    obtain ⟨c, t, rfl, hc⟩ := hn.eq_cons
    refine ⟨c, t, rfl, ?_, hc _ (by decide) (by decide)⟩
    rw [Bool.eq_false_iff, Ne, isGap_iff]
    rintro (h | h | h | h) <;> exact hc _ (by decide) (by decide) h
  | _ => exact ⟨_, _, rfl, by decide, by decide⟩

section Steps

variable {fuel : Nat} {s t rest : List Char}

theorem value?_gap {g : List Char} (hg : Gap g) : value? fuel (g ++ s) = value? fuel s := by
  cases fuel with
  | zero => rfl
  | succ fuel => rw [value?, value?, skipGap_append hg]

theorem value?_quote : value? (fuel + 1) ('"' :: s) = (literal? s).map fun (t, s) => (.text t, s) := rfl

theorem value?_bracket : value? (fuel + 1) ('[' :: s) =
    match skipGap s with
    | ']' :: s => some (.array [], s)
    | _ => (items? fuel s).map fun (js, s) => (.array js, s) := rfl

theorem value?_brace : value? (fuel + 1) ('\x7b' :: s) =
    match skipGap s with
    | '\x7d' :: s => some (.object [], s)
    | _ => (members? fuel s).map fun (ms, s) => (.object ms, s) := rfl

theorem value?_number {n : Number} (hs : NumberText s n) (hrest : Stops rest) :
    value? (fuel + 1) (s ++ rest) = some (.number n, rest) := by
  have hnumber := number?_complete hs hrest
  obtain ⟨c, t, rfl, hc⟩ := hs.eq_cons
  obtain ⟨_, _, heq, hgap, -⟩ := (TreeText.number hs).eq_cons
  cases heq
  rw [List.cons_append] at hnumber ⊢
  unfold value?
  rw [skipGap_cons hgap]
  -- the first character rules out every other kind of tree
  split <;> first
    | rw [hnumber]; rfl
    | rename_i h; exact absurd (List.cons.inj h).1 (hc _ (by decide) (by decide))

theorem items?_last {j : Json} (hread : value? fuel s = some (j, t)) (hskip : skipGap t = ']' :: rest) :
    items? (fuel + 1) s = some ([j], rest) := by
  simp [items?, hread, hskip]

theorem items?_cons {j : Json} {js : List Json} {u : List Char} (hread : value? fuel s = some (j, t))
    (hskip : skipGap t = ',' :: u) (hrest : items? fuel u = some (js, rest)) :
    items? (fuel + 1) s = some (j :: js, rest) := by
  rw [items?, hread]
  simp [hskip, hrest]

section Members

variable {g₁ k g₂ : List Char} {name : Literal} {j : Json}

theorem members?_last (hg₁ : Gap g₁) (hk : LiteralText k name) (hg₂ : Gap g₂)
    (hread : value? fuel s = some (j, t)) (hskip : skipGap t = '\x7d' :: rest) :
    members? (fuel + 1) (g₁ ++ '"' :: (k ++ '"' :: (g₂ ++ ':' :: s))) = some ([(name, j)], rest) := by
  rw [members?, skipGap_append hg₁, skipGap_cons rfl]
  simp [literal?_complete hk, skipGap_append hg₂, skipGap_cons (c := ':') rfl, hread, hskip]

theorem members?_cons {ms : List (Literal × Json)} {u : List Char} (hg₁ : Gap g₁) (hk : LiteralText k name)
    (hg₂ : Gap g₂) (hread : value? fuel s = some (j, t)) (hskip : skipGap t = ',' :: u)
    (hrest : members? fuel u = some (ms, rest)) :
    members? (fuel + 1) (g₁ ++ '"' :: (k ++ '"' :: (g₂ ++ ':' :: s))) = some ((name, j) :: ms, rest) := by
  rw [members?, skipGap_append hg₁, skipGap_cons rfl]
  simp [literal?_complete hk, skipGap_append hg₂, skipGap_cons (c := ':') rfl, hread, hskip, hrest]

end Members

end Steps

/-- Items start with one, and not with the bracket behind them. -/
theorem ItemsText.starts {s : List Char} {js : List Json} (hs : ItemsText s js) (t : List Char) :
    ∃ c r, skipGap (s ++ t) = c :: r ∧ c ≠ ']' := by
  have hstart : ∀ {g s : List Char} {j : Json} (u : List Char), Gap g → TreeText s j →
      ∃ c r, skipGap (g ++ (s ++ u)) = c :: r ∧ c ≠ ']' := by
    intro g s j u hg hs
    obtain ⟨c, r, rfl, hgap, hc⟩ := hs.eq_cons
    exact ⟨c, r ++ u, by rw [skipGap_append hg, List.cons_append, skipGap_cons hgap], hc⟩
  cases hs with
  | last hg hs _ =>
    simp only [List.append_assoc]
    exact hstart _ hg hs
  | cons hg hs _ _ =>
    simp only [List.append_assoc]
    exact hstart _ hg hs

/-- Members start with a name. -/
theorem MembersText.starts {s : List Char} {ms : List (Literal × Json)} (hs : MembersText s ms) (t : List Char) :
    ∃ r, skipGap (s ++ t) = '"' :: r := by
  have hstart : ∀ {s : List Char} {m : Literal × Json} (u : List Char), MemberText s m →
      ∃ r, skipGap (s ++ u) = '"' :: r := by
    rintro s m u ⟨hg, -, -, -, -, -⟩
    exact ⟨_, by rw [List.append_assoc, skipGap_append hg, List.cons_append, skipGap_cons rfl]⟩
  cases hs with
  | last hm => exact hstart _ hm
  | cons hm _ =>
    rw [List.append_assoc]
    exact hstart _ hm

mutual

/-- Each bracket and each comma of a text, and the first character of each tree, leave fuel for the calls below. -/
theorem value?_complete {s : List Char} {j : Json} (hs : TreeText s j) {fuel : Nat} (hfuel : 2 * s.length ≤ fuel)
    {rest : List Char} (hrest : Stops rest) : value? fuel (s ++ rest) = some (j, rest) := by
  obtain ⟨fuel, rfl⟩ : ∃ n, fuel = n + 1 := by
    obtain ⟨_, _, rfl, -⟩ := hs.eq_cons
    exact ⟨fuel - 1, by rw [List.length_cons] at hfuel; omega⟩
  cases hs with
  | null => rfl
  | yes => rfl
  | no => rfl
  | number hn => exact value?_number hn hrest
  | text ht => simp [value?_quote, literal?_complete ht]
  | noItems hg => simp [value?_bracket, skipGap_append hg, skipGap_cons (c := ']') rfl]
  | array hitems =>
    have hread := @items?_complete _ _ hitems fuel (by simp at hfuel; omega) rest
    obtain ⟨c, r, hskip, hc⟩ := hitems.starts (']' :: rest)
    simp [value?_bracket, hread, hskip, hc]
  | noMembers hg => simp [value?_brace, skipGap_append hg, skipGap_cons (c := '\x7d') rfl]
  | object hmembers =>
    have hread := @members?_complete _ _ hmembers fuel (by simp at hfuel; omega) rest
    obtain ⟨r, hskip⟩ := hmembers.starts ('\x7d' :: rest)
    simp [value?_brace, hread, hskip]

theorem items?_complete {s : List Char} {js : List Json} (hs : ItemsText s js) {fuel : Nat}
    (hfuel : 2 * s.length + 1 ≤ fuel) (rest : List Char) : items? fuel (s ++ ']' :: rest) = some (js, rest) := by
  obtain ⟨fuel, rfl⟩ : ∃ n, fuel = n + 1 := ⟨fuel - 1, by omega⟩
  cases hs with
  | last hg₁ hs hg₂ =>
    have hread := @value?_complete _ _ hs fuel (by simp at hfuel; omega) _
      (stops_gap hg₂ (stops_cons (.inr (.inl rfl)) rest))
    simp only [List.append_assoc]
    refine items?_last ((value?_gap hg₁).trans hread) ?_
    rw [skipGap_append hg₂, skipGap_cons rfl]
  | @cons _ _ _ t _ _ hg₁ hs hg₂ ht =>
    have hread := @value?_complete _ _ hs fuel (by simp at hfuel; omega) _
      (stops_gap hg₂ (stops_cons (.inl rfl) (t ++ ']' :: rest)))
    simp only [List.append_assoc, List.cons_append]
    refine items?_cons ((value?_gap hg₁).trans hread) ?_ (items?_complete ht (by simp at hfuel; omega) rest)
    rw [skipGap_append hg₂, skipGap_cons rfl]

theorem members?_complete {s : List Char} {ms : List (Literal × Json)} (hs : MembersText s ms) {fuel : Nat}
    (hfuel : 2 * s.length + 1 ≤ fuel) (rest : List Char) :
    members? fuel (s ++ '\x7d' :: rest) = some (ms, rest) := by
  obtain ⟨fuel, rfl⟩ : ∃ n, fuel = n + 1 := ⟨fuel - 1, by omega⟩
  cases hs with
  | last hm =>
    obtain ⟨hg₁, hk, hg₂, hg₃, hs, hg₄⟩ := hm
    have hread := @value?_complete _ _ hs fuel (by simp at hfuel; omega) _
      (stops_gap hg₄ (stops_cons (.inr (.inr rfl)) rest))
    simp only [List.append_assoc, List.cons_append]
    refine members?_last hg₁ hk hg₂ ((value?_gap hg₃).trans hread) ?_
    rw [skipGap_append hg₄, skipGap_cons rfl]
  | @cons _ t _ _ hm ht =>
    obtain ⟨hg₁, hk, hg₂, hg₃, hs, hg₄⟩ := hm
    have hread := @value?_complete _ _ hs fuel (by simp at hfuel; omega) _
      (stops_gap hg₄ (stops_cons (.inl rfl) (t ++ '\x7d' :: rest)))
    simp only [List.append_assoc, List.cons_append]
    refine members?_cons hg₁ hk hg₂ ((value?_gap hg₃).trans hread) ?_
      (members?_complete ht (by simp at hfuel; omega) rest)
    rw [skipGap_append hg₄, skipGap_cons rfl]

end

/-- The parser reads every text of the grammar as the tree that it spells. -/
theorem parse?_complete {text : String} {j : Json} (h : Spells text j) : parse? text = some j := by
  obtain ⟨g₁, s, g₂, htext, hg₁, hs, hg₂⟩ := h
  have hstops : Stops g₂ := List.append_nil g₂ ▸ stops_gap hg₂ stops_nil
  have hread : value? (2 * text.toList.length + 2) (g₁ ++ (s ++ g₂)) = some (j, g₂) :=
    (value?_gap hg₁).trans (value?_complete hs (by simp [htext]; omega) hstops)
  rw [← htext] at hread
  simp [parse?, hread, skipGap_of_gap hg₂]

end Demarcation.Json
