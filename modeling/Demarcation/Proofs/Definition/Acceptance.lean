/-
Which texts describe a definition, and which one. The reader of attribute texts is settled for every text:
what it accepts, what it makes of it, and what it refuses. Neither the order of tokens of different kinds
nor blanks and empty pieces make a difference to it.
-/
import Demarcation.Proofs.Definition.Grammar
import Demarcation.Proofs.Reordering

namespace Demarcation.Definition

open Demarcation.Text

/-! ## The order of tokens -/

/-- The kinds of tokens, of which the last one decides. -/
inductive Kind
  | propagation
  | isolation
  | timeout
  | readOnly
deriving DecidableEq

def Token.kind : Token → Kind
  | .propagation _ => .propagation
  | .isolation _ => .isolation
  | .timeout _ => .timeout
  | .readOnly => .readOnly

theorem Token.propagation?_eq_none {t : Token} (h : t.kind ≠ .propagation) : t.propagation? = none := by
  cases t with
  | propagation p => exact absurd rfl h
  | _ => rfl

theorem Token.isolation?_eq_none {t : Token} (h : t.kind ≠ .isolation) : t.isolation? = none := by
  cases t with
  | isolation i => exact absurd rfl h
  | _ => rfl

theorem Token.timeout?_eq_none {t : Token} (h : t.kind ≠ .timeout) : t.timeout? = none := by
  cases t with
  | timeout d => exact absurd rfl h
  | _ => rfl

theorem ofTokens_congr {ts us : List Token} (h : SameBy Token.kind ts us) : ofTokens ts = ofTokens us := by
  unfold ofTokens
  rw [h.filterMap_eq fun _ => Token.propagation?_eq_none, h.filterMap_eq fun _ => Token.isolation?_eq_none,
    h.filterMap_eq fun _ => Token.timeout?_eq_none]
  simp only [h.mem_iff]

theorem spells_readOnly_iff {w : List Char} {t : Token} (h : Spells w t) :
    t = .readOnly ↔ w = "readOnly".toList := by
  constructor
  · rintro rfl
    cases h
    rfl
  · rintro rfl
    have ht := ofText?_eq_some_iff.2 h
    cases ht
    rfl

theorem readOnly_mem_iff {ws : List (List Char)} {ts : List Token} (h : List.Forall₂ Spells ws ts) :
    Token.readOnly ∈ ts ↔ "readOnly".toList ∈ ws := by
  induction h with
  | nil => simp
  | cons hspells _ ih =>
    rw [List.mem_cons, List.mem_cons, ih, eq_comm, spells_readOnly_iff hspells, eq_comm]

/-! ## Blanks and empty pieces -/

/-- The second pieces are the first with blanks around them, and with blank pieces anywhere between
them. -/
inductive Respaced : List (List Char) → List (List Char) → Prop
  | nil : Respaced [] []
  | around {raw before after : List Char} {raws raws' : List (List Char)} (hbefore : Blanks before)
      (hafter : Blanks after) (rest : Respaced raws raws') :
      Respaced (raw :: raws) ((before ++ raw ++ after) :: raws')
  | empty {raw : List Char} {raws raws' : List (List Char)} (hraw : Blanks raw) (rest : Respaced raws raws') :
      Respaced raws (raw :: raws')

theorem Respaced.comma_free {raws raws' : List (List Char)} (h : Respaced raws raws')
    (hfree : ∀ raw ∈ raws, ',' ∉ raw) : ∀ raw ∈ raws', ',' ∉ raw := by
  have comma : isBlank ',' = false := by decide
  induction h with
  | nil => exact hfree
  | around hbefore hafter _ ih =>
    simp only [List.forall_mem_cons] at hfree ⊢
    refine ⟨?_, ih hfree.2⟩
    simp [hbefore.not_mem comma, hafter.not_mem comma, hfree.1]
  | empty hraw _ ih =>
    simp only [List.forall_mem_cons]
    exact ⟨hraw.not_mem comma, ih hfree⟩

theorem Respaced.pieces_eq {raws raws' : List (List Char)} (h : Respaced raws raws')
    (hfree : ∀ raw ∈ raws, ',' ∉ raw) : pieces (joined raws') = pieces (joined raws) := by
  rw [pieces_joined hfree, pieces_joined (h.comma_free hfree)]
  clear hfree
  induction h with
  | nil => rfl
  | around hbefore hafter _ ih =>
    rw [List.map_cons, List.map_cons, trim_append_blanks hbefore hafter, List.filter_cons, List.filter_cons, ih]
  | empty hraw _ ih =>
    rw [List.map_cons, trim_blanks hraw, List.filter_cons, ih]
    rfl

/-! ## The outcome -/

/-- Every text is settled by its tokens, which are its trimmed pieces between commas that are not empty. It
is accepted exactly if each of them is one of the language: a propagation, an isolation, a timeout of any
number below the word bound, or the mark of reading only. It then describes what they do: the last of each
kind decides, and there is no name. Otherwise the error names the first that is not. So neither the
order of tokens of different kinds nor blanks around them nor empty ones change the outcome. -/
theorem parse_accepts_grammar (s : String) :
    (∀ ws, HasTokens s ws ↔ ws = pieces s) ∧
    (∀ w, Valid w ↔ (∃ p : Propagation, w = "PROPAGATION_".toList ++ p.text.toList) ∨
      (∃ i : Isolation, w = "ISOLATION_".toList ++ i.text.toList) ∨
      (∃ ds n, WordNumeral ds n ∧ (w = "timeout_".toList ++ ds ∨ w = "timeout_".toList ++ (ds ++ "ms".toList))) ∨
      w = "readOnly".toList) ∧
    ((∃ d, parse s = .ok d) ↔ ∀ w ∈ pieces s, Valid w) ∧
    (∀ d, parse s = .ok d ↔ ∃ ts, List.Forall₂ Spells (pieces s) ts ∧ d = ofTokens ts) ∧
    (∀ d, parse s = .ok d → (d.readOnly = true ↔ "readOnly".toList ∈ pieces s) ∧ d.name = none) ∧
    (∀ e : TransactionError, (parse s).mapError invalidToken = .error e ↔
      ∃ w, FirstInvalid (pieces s) w ∧
        e = .configuration ("invalid transaction attribute token `" ++ String.ofList w ++ "`")) ∧
    (∀ s' ts ts', List.Forall₂ Spells (pieces s) ts → List.Forall₂ Spells (pieces s') ts' → SameBy Token.kind ts ts' →
      parse s' = parse s) ∧
    ∀ raws raws', s = joined raws → (∀ raw ∈ raws, ',' ∉ raw) → Respaced raws raws' →
      parse (joined raws') = parse s := by
  refine ⟨fun ws => hasTokens_iff, fun w => valid_iff, parse_isOk_iff, fun d => parse_eq_ok_iff, ?readOnly, ?error, ?order, ?blanks⟩
  case readOnly =>
    intro d hd
    obtain ⟨ts, hts, rfl⟩ := parse_eq_ok_iff.1 hd
    refine ⟨?_, rfl⟩
    rw [← readOnly_mem_iff hts]
    exact decide_eq_true_iff
  case error => exact fun e => parse_refuses_iff
  case order =>
    intro s' ts ts' hts hts' hsame
    rw [parse_eq_ok_iff.2 ⟨ts, hts, rfl⟩, parse_eq_ok_iff.2 ⟨ts', hts', rfl⟩, ofTokens_congr hsame]
  case blanks =>
    rintro raws raws' rfl hfree hrespaced
    rw [parse, hrespaced.pieces_eq hfree, ← parse]

def halfSecond : Duration := .ofNanos 500000000

/-- Two timeouts around another token, the second with a sign and zeros. The other token in front, blanks
inside and outside ASCII, and an empty piece change nothing. -/
theorem parse_accepts_grammar_respaced :
    parse "timeout_2,readOnly,timeout_+0500ms" = .ok { timeout := .after halfSecond, readOnly := true } ∧
    parse "\treadOnly\u00a0, ,timeout_2,  timeout_+0500ms" = parse "timeout_2,readOnly,timeout_+0500ms" := by
  obtain ⟨-, -, -, haccepts, -, -, horder, -⟩ := parse_accepts_grammar "timeout_2,readOnly,timeout_+0500ms"
  obtain ⟨-, -, -, -, -, -, -, hblanks⟩ := parse_accepts_grammar "readOnly,timeout_2,timeout_+0500ms"
  obtain ⟨two, htwo⟩ : ∃ two, Spells "timeout_2".toList (.timeout two) :=
    ⟨⟨2, 0, by decide, by decide⟩, ofText?_eq_some_iff.1 (by decide +kernel)⟩
  have hhalf : Spells "timeout_+0500ms".toList (.timeout halfSecond) := ofText?_eq_some_iff.1 (by decide +kernel)
  have hbefore : List.Forall₂ Spells (pieces "timeout_2,readOnly,timeout_+0500ms")
      [.timeout two, .readOnly, .timeout halfSecond] := by
    rw [show pieces _ = ["timeout_2".toList, "readOnly".toList, "timeout_+0500ms".toList] by decide +kernel]
    exact .cons htwo (.cons .readOnly (.cons hhalf .nil))
  have hafter : List.Forall₂ Spells (pieces "readOnly,timeout_2,timeout_+0500ms")
      [.readOnly, .timeout two, .timeout halfSecond] := by
    rw [show pieces _ = ["readOnly".toList, "timeout_2".toList, "timeout_+0500ms".toList] by decide +kernel]
    exact .cons .readOnly (.cons htwo (.cons hhalf .nil))
  have hrespaced : Respaced ["readOnly".toList, "timeout_2".toList, "timeout_+0500ms".toList]
      [['\t'] ++ "readOnly".toList ++ ['\u00a0'], [' '], [] ++ "timeout_2".toList ++ [],
        [' ', ' '] ++ "timeout_+0500ms".toList ++ []] :=
    .around (by decide) (by decide) (.empty (by decide)
      (.around blanks_nil blanks_nil (.around (by decide) blanks_nil .nil)))
  refine ⟨(haccepts _).2 ⟨_, hbefore, rfl⟩, ?_⟩
  rw [← horder _ _ _ hbefore hafter (by rintro (_ | _ | _ | _) <;> rfl)]
  refine Eq.trans (congrArg parse ?_) (hblanks _ _ ?_ (by decide) hrespaced)
  · decide +kernel
  · decide +kernel

end Demarcation.Definition
