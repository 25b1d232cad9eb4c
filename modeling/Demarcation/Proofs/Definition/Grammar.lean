/-
The language of attribute texts. Its tokens, the tokens of a text and the definition that tokens describe
are told here without the reader. The reader accepts exactly the texts of which every token is one of the
language, finds the definition that they describe, and otherwise names the first that is not one.
-/
import Mathlib.Data.List.Forall2
import Mathlib.Data.List.Induction
import Demarcation.Definition.Text
import Demarcation.Proofs.Duration
import Demarcation.Proofs.Text.Number
import Demarcation.Proofs.Text.Search

namespace Demarcation

open Demarcation.Text

/-! ## Names -/

theorem find?_text_eq_some_iff {α : Type} {all : List α} {text : α → String} (hall : ∀ a, a ∈ all)
    (hinj : ∀ a b, text a = text b → a = b) {s : String} {a : α} :
    all.find? (fun a => text a == s) = some a ↔ s = text a := by
  constructor
  · intro h
    have htext := List.find?_some h
    simpa using (beq_iff_eq.1 htext).symm
  · rintro rfl
    cases hf : all.find? (fun b => text b == text a) with
    | none => simpa using List.find?_eq_none.1 hf a (hall a)
    | some b => rw [hinj b a (by simpa using List.find?_some hf)]

theorem Propagation.named?_eq_some_iff {s : String} {p : Propagation} : named? s = some p ↔ s = p.text :=
  find?_text_eq_some_iff (by intro p; cases p <;> decide) (by intro p q; cases p <;> cases q <;> decide)

theorem Isolation.named?_eq_some_iff {s : String} {i : Isolation} : named? s = some i ↔ s = i.text :=
  find?_text_eq_some_iff (by intro i; cases i <;> decide) (by intro i j; cases i <;> cases j <;> decide)

namespace Definition

/-! ## Tokens -/

/-- The texts of a token. The number of a timeout may be written in many ways. -/
inductive Spells : List Char → Token → Prop
  | propagation (p : Propagation) : Spells ("PROPAGATION_".toList ++ p.text.toList) (.propagation p)
  | isolation (i : Isolation) : Spells ("ISOLATION_".toList ++ i.text.toList) (.isolation i)
  | seconds {s : List Char} {n : Nat} {d : Duration} (number : WordNumeral s n)
      (length : d.toNanos = n * nanosPerSecond) : Spells ("timeout_".toList ++ s) (.timeout d)
  | millis {s : List Char} {n : Nat} {d : Duration} (number : WordNumeral s n)
      (length : d.toNanos = n * 1000000) : Spells ("timeout_".toList ++ (s ++ "ms".toList)) (.timeout d)
  | readOnly : Spells "readOnly".toList .readOnly

theorem not_wordNumeral_ms {s : List Char} {n : Nat} : ¬ WordNumeral (s ++ ['m', 's']) n := by
  rintro ⟨-, ds, hds, h | h⟩
  · have hs := hds.digits 's' (by rw [← h]; simp)
    revert hs
    decide
  · cases s with
    | nil => simp at h
    | cons c s =>
      simp only [List.cons_append, List.cons.injEq] at h
      have hs := hds.digits 's' (by rw [← h.2]; simp)
      revert hs
      decide

theorem timeout?_eq_some_iff {s : List Char} {d : Duration} :
    timeout? s = some d ↔
      (∃ n, WordNumeral s n ∧ d.toNanos = n * nanosPerSecond) ∨
        ∃ ds n, s = ds ++ "ms".toList ∧ WordNumeral ds n ∧ d.toNanos = n * 1000000 := by
  unfold timeout?
  split
  · rename_i millis hms
    obtain rfl := before?_eq_some_iff.1 hms
    simp only [Option.bind_eq_some_iff, word?_eq_some_iff, Duration.ofMillis?, Duration.ofNanos?_eq_some_iff]
    constructor
    · rintro ⟨n, hn, hd⟩
      exact .inr ⟨millis, n, rfl, hn, hd⟩
    · rintro (⟨n, hn, -⟩ | ⟨ds, n, hs, hn, hd⟩)
      · exact absurd hn not_wordNumeral_ms
      · obtain rfl := List.append_cancel_right hs
        exact ⟨n, hn, hd⟩
  · rename_i hms
    simp only [Option.bind_eq_some_iff, word?_eq_some_iff, Duration.ofSeconds?, Duration.ofParts?, Nat.add_zero,
      Duration.ofNanos?_eq_some_iff]
    constructor
    · rintro ⟨n, hn, hd⟩
      exact .inl ⟨n, hn, hd⟩
    · rintro (⟨n, hn, hd⟩ | ⟨ds, n, rfl, -, -⟩)
      · exact ⟨n, hn, hd⟩
      · have hsome := before?_eq_some_iff.2 (rfl : ds ++ ['m', 's'] = ds ++ ['m', 's'])
        rw [show "ms".toList = ['m', 's'] from rfl, hsome] at hms
        cases hms

theorem ofText?_propagation (name : List Char) : Token.ofText? ("PROPAGATION_".toList ++ name) =
    (Propagation.named? (String.ofList name)).map .propagation := by
  rw [Token.ofText?, after?_append]

theorem ofText?_isolation (name : List Char) : Token.ofText? ("ISOLATION_".toList ++ name) =
    (Isolation.named? (String.ofList name)).map .isolation := by
  have hother : after? "PROPAGATION_".toList ("ISOLATION_".toList ++ name) = none := rfl
  rw [Token.ofText?, hother, after?_append]

theorem ofText?_timeout (value : List Char) : Token.ofText? ("timeout_".toList ++ value) =
    (timeout? value).map .timeout := by
  have hother : after? "PROPAGATION_".toList ("timeout_".toList ++ value) = none := rfl
  have hother' : after? "ISOLATION_".toList ("timeout_".toList ++ value) = none := rfl
  rw [Token.ofText?, hother, hother', after?_append]

theorem ofText?_eq_some_iff {s : List Char} {t : Token} : Token.ofText? s = some t ↔ Spells s t := by
  constructor
  · intro h
    unfold Token.ofText? at h
    split at h
    · rename_i name hname
      obtain ⟨p, hp, rfl⟩ := Option.map_eq_some_iff.1 h
      rw [Propagation.named?_eq_some_iff] at hp
      rw [after?_eq_some_iff.1 hname, ← String.toList_ofList (l := name), hp]
      exact .propagation p
    split at h
    · rename_i name hname
      obtain ⟨i, hi, rfl⟩ := Option.map_eq_some_iff.1 h
      rw [Isolation.named?_eq_some_iff] at hi
      rw [after?_eq_some_iff.1 hname, ← String.toList_ofList (l := name), hi]
      exact .isolation i
    split at h
    · rename_i value hvalue
      obtain ⟨d, hd, rfl⟩ := Option.map_eq_some_iff.1 h
      rw [after?_eq_some_iff.1 hvalue]
      rcases timeout?_eq_some_iff.1 hd with ⟨n, hn, hlength⟩ | ⟨ds, n, rfl, hn, hlength⟩
      · exact .seconds hn hlength
      · exact .millis hn hlength
    split at h
    · rename_i hs
      cases h
      rw [hs]
      exact .readOnly
    · cases h
  · intro h
    cases h with
    | propagation p =>
      rw [ofText?_propagation, Propagation.named?_eq_some_iff.2 (String.ofList_toList ..)]
      rfl
    | isolation i =>
      rw [ofText?_isolation, Isolation.named?_eq_some_iff.2 (String.ofList_toList ..)]
      rfl
    | seconds number length =>
      rw [ofText?_timeout, timeout?_eq_some_iff.2 (.inl ⟨_, number, length⟩)]
      rfl
    | millis number length =>
      rw [ofText?_timeout, timeout?_eq_some_iff.2 (.inr ⟨_, _, rfl, number, length⟩)]
      rfl
    | readOnly => rfl

/-- A text that a token can have. -/
def Valid (w : List Char) : Prop := ∃ t, Spells w t

/-- The language of tokens. Every number below the word bound is that of a timeout. -/
theorem valid_iff {w : List Char} : Valid w ↔
    (∃ p : Propagation, w = "PROPAGATION_".toList ++ p.text.toList) ∨
    (∃ i : Isolation, w = "ISOLATION_".toList ++ i.text.toList) ∨
    (∃ s n, WordNumeral s n ∧ (w = "timeout_".toList ++ s ∨ w = "timeout_".toList ++ (s ++ "ms".toList))) ∨
    w = "readOnly".toList := by
  constructor
  · rintro ⟨_, p | i | @⟨s, n, _, number, _⟩ | @⟨s, n, _, number, _⟩ | _⟩
    · exact .inl ⟨p, rfl⟩
    · exact .inr (.inl ⟨i, rfl⟩)
    · exact .inr (.inr (.inl ⟨s, n, number, .inl rfl⟩))
    · exact .inr (.inr (.inl ⟨s, n, number, .inr rfl⟩))
    · exact .inr (.inr (.inr rfl))
  · rintro (⟨p, rfl⟩ | ⟨i, rfl⟩ | ⟨s, n, number, rfl | rfl⟩ | rfl)
    · exact ⟨_, .propagation p⟩
    · exact ⟨_, .isolation i⟩
    · obtain ⟨d, hd⟩ := Duration.exists_toNanos (Nat.mul_lt_mul_of_pos_right number.1 (by decide))
      exact ⟨_, .seconds number hd⟩
    · have hlt : n * 1000000 < wordBound * nanosPerSecond := Nat.mul_lt_mul'' number.1 (by decide)
      obtain ⟨d, hd⟩ := Duration.exists_toNanos hlt
      exact ⟨_, .millis number hd⟩
    · exact ⟨_, .readOnly⟩

theorem ofText?_isNone_iff {w : List Char} : (Token.ofText? w).isNone = true ↔ ¬ Valid w := by
  unfold Valid
  simp only [← ofText?_eq_some_iff]
  cases Token.ofText? w <;> simp

theorem spelled_of_mem {ws : List (List Char)} {ts : List Token} {t : Token} (h : List.Forall₂ Spells ws ts)
    (ht : t ∈ ts) : ∃ w ∈ ws, Spells w t := by
  induction h with
  | nil => cases ht
  | cons hspells _ ih =>
    rcases List.mem_cons.1 ht with rfl | ht
    · exact ⟨_, List.mem_cons_self .., hspells⟩
    · obtain ⟨w, hw, hspelled⟩ := ih ht
      exact ⟨w, List.mem_cons_of_mem _ hw, hspelled⟩

/-! ## What tokens describe -/

namespace Token

def propagation? : Token → Option Propagation
  | .propagation p => some p
  | _ => none

def isolation? : Token → Option Isolation
  | .isolation i => some i
  | _ => none

def timeout? : Token → Option Duration
  | .timeout d => some d
  | _ => none

end Token

/-- The definition that tokens describe: the last of each kind decides, what no token says stays as it is
by default, and there is no name. -/
def ofTokens (ts : List Token) : Definition where
  propagation := (ts.filterMap Token.propagation?).getLast?.getD ({} : Definition).propagation
  isolation := (ts.filterMap Token.isolation?).getLast?.getD ({} : Definition).isolation
  timeout := ((ts.filterMap Token.timeout?).getLast?.map .after).getD ({} : Definition).timeout
  readOnly := decide (Token.readOnly ∈ ts)
  name := none

theorem ofTokens_concat (ts : List Token) (t : Token) : ofTokens (ts ++ [t]) = (ofTokens ts).update t := by
  cases t <;>
    simp [ofTokens, update, List.filterMap_append, Token.propagation?, Token.isolation?, Token.timeout?]

theorem foldl_update (ts : List Token) : ts.foldl update {} = ofTokens ts := by
  induction ts using List.reverseRecOn with
  | nil => rfl
  | append_singleton ts t ih => rw [List.foldl_append, ih, List.foldl_cons, List.foldl_nil, ofTokens_concat]

theorem timeout_mem {ts : List Token} {d : Duration} (h : (ofTokens ts).timeout = .after d) :
    Token.timeout d ∈ ts := by
  unfold ofTokens at h
  cases hlast : (ts.filterMap Token.timeout?).getLast? with
  | none =>
    rw [hlast] at h
    cases h
  | some e =>
    rw [hlast] at h
    cases h
    obtain ⟨t, ht, htimeout⟩ := List.mem_filterMap.1 (List.mem_of_getLast? hlast)
    cases t <;> cases htimeout
    exact ht

/-! ## The reader -/

theorem extend_eq_ok_iff {d e : Definition} {ws : List (List Char)} :
    extend d ws = .ok e ↔ ∃ ts, List.Forall₂ Spells ws ts ∧ e = ts.foldl update d := by
  induction ws generalizing d with
  | nil => simp [extend, eq_comm]
  | cons w ws ih =>
    simp only [List.forall₂_cons_left_iff]
    cases hw : Token.ofText? w with
    | none =>
      have hinvalid : ¬ Valid w := ofText?_isNone_iff.1 (by rw [hw]; rfl)
      simp only [extend, hw, reduceCtorEq, false_iff]
      rintro ⟨ts, ⟨t, rest, ht, -, -⟩, -⟩
      exact hinvalid ⟨t, ht⟩
    | some t =>
      simp only [extend, hw, ih]
      constructor
      · rintro ⟨ts, hts, rfl⟩
        exact ⟨t :: ts, ⟨t, ts, ofText?_eq_some_iff.1 hw, hts, rfl⟩, rfl⟩
      · rintro ⟨us, ⟨u, ts, hu, hts, rfl⟩, rfl⟩
        rw [ofText?_eq_some_iff.2 hu] at hw
        cases hw
        exact ⟨ts, hts, rfl⟩

theorem extend_eq_error_iff {d : Definition} {ws : List (List Char)} {e : String} :
    extend d ws = .error e ↔
      ∃ w, ws.find? (fun w => (Token.ofText? w).isNone) = some w ∧ e = String.ofList w := by
  induction ws generalizing d with
  | nil => simp [extend]
  | cons w ws ih =>
    cases hw : Token.ofText? w with
    | none => simp [extend, hw, eq_comm]
    | some t => simp [extend, hw, ih]

/-- `w` is the first of `ws` that no token has for a text. -/
def FirstInvalid (ws : List (List Char)) (w : List Char) : Prop :=
  ∃ before after, ws = before ++ w :: after ∧ (∀ v ∈ before, Valid v) ∧ ¬ Valid w

theorem find?_isNone_iff {ws : List (List Char)} {w : List Char} :
    ws.find? (fun w => (Token.ofText? w).isNone) = some w ↔ FirstInvalid ws w := by
  simp only [List.find?_eq_some_iff_append, Bool.not_eq_true', Bool.eq_false_iff, ne_eq, ofText?_isNone_iff,
    not_not]
  constructor
  · rintro ⟨hw, before, after, hws, hbefore⟩
    exact ⟨before, after, hws, hbefore, hw⟩
  · rintro ⟨before, after, hws, hbefore, hw⟩
    exact ⟨hw, before, after, hws, hbefore⟩

/-- A text describes what its tokens describe, if they are tokens. -/
theorem parse_eq_ok_iff {s : String} {d : Definition} :
    parse s = .ok d ↔ ∃ ts, List.Forall₂ Spells (pieces s) ts ∧ d = ofTokens ts := by
  simp only [parse, extend_eq_ok_iff, foldl_update]

theorem parse_eq_error_iff {s e : String} :
    parse s = .error e ↔ ∃ w, FirstInvalid (pieces s) w ∧ e = String.ofList w := by
  simp only [parse, extend_eq_error_iff, find?_isNone_iff]

/-- The error says which token it is about. -/
theorem parse_refuses_iff {s : String} {e : TransactionError} :
    (parse s).mapError invalidToken = .error e ↔
      ∃ w, FirstInvalid (pieces s) w ∧ e = invalidToken (String.ofList w) := by
  have herror : (parse s).mapError invalidToken = .error e ↔
      ∃ token, parse s = .error token ∧ e = invalidToken token := by
    cases parse s <;> simp [Except.mapError, eq_comm]
  simp only [herror, parse_eq_error_iff]
  constructor
  · rintro ⟨_, ⟨w, hw, rfl⟩, he⟩
    exact ⟨w, hw, he⟩
  · rintro ⟨w, hw, he⟩
    exact ⟨_, ⟨w, hw, rfl⟩, he⟩

theorem parse_isOk_iff {s : String} : (∃ d, parse s = .ok d) ↔ ∀ w ∈ pieces s, Valid w := by
  constructor
  · rintro ⟨d, hd⟩ w hw
    by_contra hinvalid
    cases hf : (pieces s).find? (fun w => (Token.ofText? w).isNone) with
    | none => exact List.find?_eq_none.1 hf w hw (ofText?_isNone_iff.2 hinvalid)
    | some v =>
      have herror := parse_eq_error_iff.2 ⟨v, find?_isNone_iff.1 hf, rfl⟩
      rw [hd] at herror
      cases herror
  · intro hvalid
    cases hp : parse s with
    | ok d => exact ⟨d, rfl⟩
    | error e =>
      obtain ⟨w, ⟨before, after, hws, -, hinvalid⟩, -⟩ := parse_eq_error_iff.1 hp
      exact absurd (hvalid w (by rw [hws]; simp)) hinvalid

/-! ## The tokens of a text -/

/-- The text of which these are the pieces between commas. -/
def joined (raws : List (List Char)) : String := String.ofList ([','].intercalate raws)

/-- The tokens of a text: what its pieces between commas are when they are trimmed, as far as that is
anything. -/
def HasTokens (s : String) (ws : List (List Char)) : Prop :=
  ∃ raws trimmed, raws ≠ [] ∧ (∀ raw ∈ raws, ',' ∉ raw) ∧ s = joined raws ∧
    List.Forall₂ Trims raws trimmed ∧ ws = trimmed.filter fun w => !w.isEmpty

theorem pieces_joined {raws : List (List Char)} (hfree : ∀ raw ∈ raws, ',' ∉ raw) :
    pieces (joined raws) = (raws.map trim).filter fun w => !w.isEmpty := by
  cases raws with
  | nil => rfl
  | cons raw raws =>
    have hsplit : splitAt ',' (joined (raw :: raws)).toList = raw :: raws :=
      splitAt_eq_iff.2 ⟨List.cons_ne_nil raw raws, hfree, String.toList_ofList⟩
    rw [pieces, hsplit]

theorem hasTokens_iff {s : String} {ws : List (List Char)} : HasTokens s ws ↔ ws = pieces s := by
  have htrims : ∀ raws trimmed, List.Forall₂ Trims raws trimmed ↔ raws.map trim = trimmed := by
    intro raws trimmed
    rw [← List.forall₂_eq_eq_eq, List.forall₂_map_left_iff]
    simp only [trim_eq_iff]
  constructor
  · rintro ⟨raws, trimmed, -, hfree, rfl, htrim, rfl⟩
    rw [pieces_joined hfree, (htrims raws trimmed).1 htrim]
  · rintro rfl
    obtain ⟨hne, hfree, hs⟩ := splitAt_eq_iff.1 (rfl : splitAt ',' s.toList = _)
    refine ⟨_, _, hne, hfree, ?_, (htrims _ _).2 rfl, rfl⟩
    rw [joined, ← hs, String.ofList_toList]

end Definition

end Demarcation
