/-
Reading the text of a definition back. The text is made of tokens of the language, all but a timeout that
has a part of a second and rounds up to more milliseconds than a number can say. Where it is accepted, the
definition comes back without its name and with its timeout rounded up.
-/
import Demarcation.Proofs.Definition.Grammar

namespace Demarcation

open Demarcation.Text

/-! ## Plain texts -/

namespace Text

/-- Neither commas nor blanks. -/
def Plain (s : List Char) : Prop := ∀ c ∈ s, c ≠ ',' ∧ isBlank c = false

instance (s : List Char) : Decidable (Plain s) := List.decidableBAll _ s

theorem Plain.append {s t : List Char} (hs : Plain s) (ht : Plain t) : Plain (s ++ t) := by
  intro c hc
  rcases List.mem_append.1 hc with hc | hc
  · exact hs c hc
  · exact ht c hc

theorem Plain.trim {s : List Char} (h : Plain s) : trim s = s :=
  trim_eq_self (fun c hc => (h c (List.mem_of_mem_head? hc)).2) fun c hc => (h c (List.mem_of_getLast? hc)).2

theorem Numeral.plain {s : List Char} {n : Nat} (h : Numeral s n) : Plain s := by
  intro c hc
  have hdigit := (isDigit_iff c).1 (h.digits c hc)
  constructor
  · rintro rfl
    revert hdigit
    decide
  · simp only [isBlank, Bool.or_eq_false_iff, Bool.and_eq_false_iff, decide_eq_false_iff_not, beq_eq_false_iff_ne]
    omega

theorem wordNumeral_toString_iff {n m : Nat} : WordNumeral (toString n).toList m ↔ m = n ∧ n < wordBound := by
  have hn := numeral_toString n
  constructor
  · rintro ⟨hm, ds, hds, h | h⟩
    · obtain rfl : m = n := by rw [← hds.value, ← h, hn.value]
      exact ⟨rfl, hm⟩
    · rw [h] at hn
      exact absurd hn not_numeral_plus
  · rintro ⟨rfl, hm⟩
    exact wordNumeral_toString hm

end Text

namespace Definition

/-! ## The tokens of a definition -/

theorem plain_timeoutText (d : Duration) : Plain (timeoutText d).toList := by
  unfold timeoutText
  split
  · exact (numeral_toString _).plain
  · rw [String.toList_append]
    exact (numeral_toString _).plain.append (by decide)

theorem tokens_plain {d : Definition} {w : String} (h : w ∈ d.tokens) : w ≠ "" ∧ Plain w.toList := by
  have hplain : Plain w.toList ∧ w.toList ≠ [] := by
    simp only [tokens, List.mem_append, List.mem_cons, List.not_mem_nil, or_false, List.mem_map] at h
    rcases h with ((rfl | rfl) | ⟨t, -, rfl⟩) | h
    · cases d.propagation <;> decide
    · cases d.isolation <;> decide
    · rw [String.toList_append]
      exact ⟨Plain.append (by decide) (plain_timeoutText t), List.append_ne_nil_of_left_ne_nil (by decide) _⟩
    · split at h
      · rw [List.mem_singleton.1 h]
        decide
      · cases h
  exact ⟨fun hempty => hplain.2 (by rw [hempty]; rfl), hplain.1⟩

/-- The text of a definition gives its tokens back. -/
theorem pieces_text (d : Definition) : pieces d.text = d.tokens.map String.toList := by
  have htext : d.text = joined (d.tokens.map String.toList) := by
    rw [← String.toList_inj]
    simp [text, joined]
  have hfree : ∀ raw ∈ d.tokens.map String.toList, ',' ∉ raw := by
    intro raw hraw hcomma
    obtain ⟨w, hw, rfl⟩ := List.mem_map.1 hraw
    exact ((tokens_plain hw).2 ',' hcomma).1 rfl
  rw [htext, pieces_joined hfree, List.map_map, List.filter_eq_self.2]
  · refine List.map_congr_left ?_
    intro w hw
    exact (tokens_plain hw).2.trim
  · intro raw hraw
    obtain ⟨w, hw, rfl⟩ := List.mem_map.1 hraw
    simp [(tokens_plain hw).2.trim, (tokens_plain hw).1]

/-! ## What can be read back -/

/-- The timeout, if there is one, can be read back. -/
def Legible (d : Definition) : Prop := ∀ t, d.timeout = .after t → t.Legible

/-- The definition without its name, and with its timeout rounded up to whole milliseconds. -/
def rounded (d : Definition) : Definition :=
  { d with
    timeout := d.timeout.duration?.elim .unspecified fun t => .after t.ceil
    name := none }

/-- What the text of a definition says, token by token. -/
def written (d : Definition) : List Token :=
  [.propagation d.propagation, .isolation d.isolation] ++
    (d.timeout.duration?.toList.map fun t => .timeout t.ceil) ++ if d.readOnly then [.readOnly] else []

theorem ofTokens_written (d : Definition) : ofTokens d.written = d.rounded := by
  obtain ⟨p, i, t, r, n⟩ := d
  cases t <;> cases r <;> rfl

theorem spells_timeout {t : Duration} (h : t.Legible) :
    Spells ("timeout_" ++ timeoutText t).toList (.timeout t.ceil) := by
  rw [String.toList_append, timeoutText]
  split
  · rename_i hseconds
    refine .seconds (wordNumeral_toString t.seconds_lt) ?_
    rw [Duration.ceil_of_wholeMillis (Duration.wholeMillis_of_seconds hseconds), Duration.toNanos, hseconds,
      Nat.add_zero]
  · rename_i hnanos
    rw [String.toList_append]
    exact .millis (wordNumeral_toString (h hnanos)) (Duration.toNanos_ceil h)

/-- The token of a timeout that is not legible is none of the language. -/
theorem legible_of_valid {t : Duration} (h : Valid ("timeout_" ++ timeoutText t).toList) : t.Legible := by
  intro hnanos
  obtain ⟨token, htoken⟩ := h
  have hread := ofText?_eq_some_iff.2 htoken
  rw [String.toList_append, ofText?_timeout, timeoutText, if_neg hnanos, String.toList_append,
    Option.map_eq_some_iff] at hread
  obtain ⟨d, hd, -⟩ := hread
  rcases timeout?_eq_some_iff.1 hd with ⟨n, hn, -⟩ | ⟨ds, n, hs, hn, -⟩
  · exact absurd hn not_wordNumeral_ms
  · rw [← List.append_cancel_right hs] at hn
    exact (wordNumeral_toString_iff.1 hn).2

theorem spells_tokens {d : Definition} (h : d.Legible) :
    List.Forall₂ Spells (d.tokens.map String.toList) d.written := by
  unfold tokens written
  rw [List.map_append, List.map_append]
  refine List.rel_append (List.rel_append ?names ?timeout) ?readOnly
  case names =>
    refine .cons ?_ (.cons ?_ .nil)
    · rw [String.toList_append]
      exact .propagation d.propagation
    · rw [String.toList_append]
      exact .isolation d.isolation
  case timeout =>
    cases ht : d.timeout with
    | unspecified => exact .nil
    | after t => exact .cons (spells_timeout (h t ht)) .nil
  case readOnly =>
    split
    · exact .cons .readOnly .nil
    · exact .nil

theorem parse_text_of_legible {d : Definition} (h : d.Legible) : parse d.text = .ok d.rounded := by
  refine parse_eq_ok_iff.2 ⟨d.written, ?_, (ofTokens_written d).symm⟩
  rw [pieces_text]
  exact spells_tokens h

theorem rounded_eq_self {d : Definition} (hname : d.name = none)
    (hwhole : ∀ t, d.timeout = .after t → t.WholeMillis) : d.rounded = d := by
  obtain ⟨p, i, timeout, r, n⟩ := d
  obtain rfl : n = none := hname
  cases timeout with
  | unspecified => rfl
  | after t => simp [rounded, Timeout.duration?, Duration.ceil_of_wholeMillis (hwhole t rfl)]

/-- What a token says of a timeout can be written back as it is. -/
theorem timeout_of_spells {w : List Char} {t : Duration} (h : Spells w (.timeout t)) :
    t.WholeMillis ∧ t.Legible := by
  cases h with
  | seconds number length =>
    have hnanos : t.nanos = 0 := by
      rw [← Duration.toNanos_mod, length, Nat.mul_mod_left]
    exact ⟨Duration.wholeMillis_of_seconds hnanos, fun h => absurd hnanos h⟩
  | millis number length =>
    have hwhole : t.WholeMillis := by
      rw [Duration.WholeMillis, length]
      exact Nat.dvd_mul_left ..
    have hceil := (Duration.ceilMillis_of_wholeMillis hwhole).trans length
    refine ⟨hwhole, fun _ => ?_⟩
    rw [Nat.eq_of_mul_eq_mul_right (by decide) hceil]
    exact number.1

/-- What was read can be written and read again, and comes back as it is. -/
theorem parse_text_of_parse {s : String} {e : Definition} (h : parse s = .ok e) : parse e.text = .ok e := by
  obtain ⟨ts, hts, rfl⟩ := parse_eq_ok_iff.1 h
  have htimeout : ∀ t, (ofTokens ts).timeout = .after t → t.WholeMillis ∧ t.Legible := by
    intro t ht
    obtain ⟨w, -, hw⟩ := spelled_of_mem hts (timeout_mem ht)
    exact timeout_of_spells hw
  rw [parse_text_of_legible fun t ht => (htimeout t ht).2, rounded_eq_self rfl fun t ht => (htimeout t ht).1]

theorem exists_illegible {d : Definition} (h : ¬ d.Legible) :
    ∃ t, d.timeout = .after t ∧ t.nanos ≠ 0 ∧ wordBound ≤ t.ceilMillis := by
  unfold Legible Duration.Legible at h
  push Not at h
  exact h

/-- The first token to be refused is that of the timeout. -/
theorem firstInvalid_timeout {d : Definition} {t : Duration} (ht : d.timeout = .after t) (hnanos : t.nanos ≠ 0)
    (hbound : wordBound ≤ t.ceilMillis) :
    FirstInvalid (pieces d.text) ("timeout_" ++ timeoutText t).toList := by
  refine ⟨[("PROPAGATION_" ++ d.propagation.text).toList, ("ISOLATION_" ++ d.isolation.text).toList],
    (if d.readOnly then ["readOnly"] else []).map String.toList, ?whole, ?names, ?timeout⟩
  case whole => simp [pieces_text, tokens, ht, Timeout.duration?]
  case names =>
    simp only [List.forall_mem_cons, String.toList_append]
    exact ⟨⟨_, .propagation d.propagation⟩, ⟨_, .isolation d.isolation⟩, by simp⟩
  case timeout =>
    intro hvalid
    have hlt := legible_of_valid hvalid hnanos
    omega

/-! ## Main statements -/

/-- The text of a legible definition reads back as the definition without its name, and with a timeout that
is the next whole number of milliseconds: itself if it is one, and otherwise less than a millisecond longer.
What was read once comes back as it is. -/
theorem parse_text_rounds (d : Definition) (h : d.Legible) :
    parse d.text = .ok d.rounded ∧
    (∀ t, d.timeout = .after t → d.rounded.timeout = .after t.ceil ∧ t.ceil.WholeMillis ∧
      t.toNanos ≤ t.ceil.toNanos ∧ t.ceil.toNanos < t.toNanos + 1000000 ∧ (t.WholeMillis → t.ceil = t)) ∧
    (d.name = none → (∀ t, d.timeout = .after t → t.WholeMillis) → parse d.text = .ok d) ∧
    (∀ e, parse d.text = .ok e → parse e.text = .ok e) ∧
    ∀ s e, parse s = .ok e → parse e.text = .ok e := by
  refine ⟨parse_text_of_legible h, ?timeout, ?itself, fun e => parse_text_of_parse, fun s e => parse_text_of_parse⟩
  case timeout =>
    intro t ht
    have hceil := Duration.toNanos_ceil (h t ht)
    obtain ⟨hle, hlt⟩ := t.ceilMillis_bounds
    rw [← hceil] at hle hlt
    refine ⟨?_, Duration.wholeMillis_ceil (h t ht), hle, hlt, Duration.ceil_of_wholeMillis⟩
    rw [rounded, ht]
    rfl
  case itself =>
    intro hname hwhole
    rw [parse_text_of_legible h, rounded_eq_self hname hwhole]

/-- A name with a comma, and a timeout that is rounded up to the most milliseconds that can be read. -/
def almostLast : Definition :=
  { isolation := .serializable
    timeout := .after ⟨18446744073709551, 614000001, by decide, by decide⟩
    name := some "a,b" }

theorem parse_text_rounds_up :
    almostLast.Legible ∧
    almostLast.text = "PROPAGATION_REQUIRED,ISOLATION_SERIALIZABLE,timeout_18446744073709551615ms" ∧
    parse almostLast.text = .ok
      { isolation := .serializable
        timeout := .after ⟨18446744073709551, 615000000, by decide, by decide⟩ } := by
  have hlegible : almostLast.Legible := by
    intro t ht
    cases ht
    intro _
    decide
  obtain ⟨hparse, -⟩ := parse_text_rounds almostLast hlegible
  exact ⟨hlegible, by decide +kernel, hparse⟩

/-- What is written can be read exactly if its timeout is legible, and the timeout that is read is not
shorter. Otherwise the error is about the token of the timeout. -/
theorem text_accepted_iff_legible (d : Definition) :
    ((∃ e, parse d.text = .ok e) ↔ d.Legible) ∧
    (∀ e t, parse d.text = .ok e → d.timeout = .after t →
      ∃ t', e.timeout = .after t' ∧ t.toNanos ≤ t'.toNanos) ∧
    (¬ d.Legible → ∃ t, d.timeout = .after t ∧ t.nanos ≠ 0 ∧ wordBound ≤ t.ceilMillis ∧
      ((parse d.text).mapError invalidToken : Except TransactionError Definition) =
        .error (invalidToken ("timeout_" ++ toString t.ceilMillis ++ "ms"))) := by
  have hlegible : ∀ e, parse d.text = .ok e → d.Legible := by
    intro e he t ht
    have hvalid := parse_isOk_iff.1 ⟨e, he⟩
    rw [pieces_text] at hvalid
    refine legible_of_valid (hvalid _ (List.mem_map_of_mem ?_))
    simp [tokens, ht, Timeout.duration?]
  refine ⟨⟨?legible, ?accepted⟩, ?longer, ?refused⟩
  case legible => exact fun ⟨e, he⟩ => hlegible e he
  case accepted => exact fun h => ⟨d.rounded, parse_text_of_legible h⟩
  case longer =>
    intro e t he ht
    have h := hlegible e he
    rw [parse_text_of_legible h] at he
    cases he
    refine ⟨t.ceil, by rw [rounded, ht]; rfl, ?_⟩
    rw [Duration.toNanos_ceil (h t ht)]
    exact t.ceilMillis_bounds.1
  case refused =>
    intro h
    obtain ⟨t, ht, hnanos, hbound⟩ := exists_illegible h
    refine ⟨t, ht, hnanos, hbound, parse_refuses_iff.2 ⟨_, firstInvalid_timeout ht hnanos hbound, ?_⟩⟩
    rw [String.ofList_toList, timeoutText, if_neg hnanos, String.append_assoc]

/-- The longest timeout of whole milliseconds whose text can be read. -/
def lastLegible : Definition := { timeout := .after ⟨18446744073709551, 615000000, by decide, by decide⟩ }

/-- A millisecond more. -/
def firstIllegible : Definition := { timeout := .after ⟨18446744073709551, 616000000, by decide, by decide⟩ }

theorem text_accepted_to_the_millisecond :
    lastLegible.Legible ∧ (∃ e, parse lastLegible.text = .ok e) ∧ ¬ firstIllegible.Legible ∧
    ((parse firstIllegible.text).mapError invalidToken : Except TransactionError Definition) =
      .error (invalidToken "timeout_18446744073709551616ms") := by
  have hlast : lastLegible.Legible := by
    intro t ht
    cases ht
    intro _
    decide
  have hfirst : ¬ firstIllegible.Legible := by
    intro h
    have hlt := h _ rfl (by decide)
    revert hlt
    decide
  obtain ⟨t, ht, -, -, hrefused⟩ := (text_accepted_iff_legible firstIllegible).2.2 hfirst
  have htoken : "timeout_" ++ toString t.ceilMillis ++ "ms" = "timeout_18446744073709551616ms" := by
    cases ht
    decide +kernel
  rw [htoken] at hrefused
  exact ⟨hlast, (text_accepted_iff_legible lastLegible).1.2 hlast, hfirst, hrefused⟩

/-- What is written of the timeout that is a millisecond too long, and of the longest of all, is refused. -/
theorem illegible_timeout_refused :
    parse firstIllegible.text = .error "timeout_18446744073709551616ms" ∧
    parse (Definition.text { timeout := .after .longest }) = .error "timeout_18446744073709551616000ms" ∧
    ¬ ∀ d : Definition, ∃ e, parse d.text = .ok e := by
  have hrefused : parse firstIllegible.text = .error "timeout_18446744073709551616ms" := by decide +kernel
  refine ⟨hrefused, by decide +kernel, fun hall => ?_⟩
  obtain ⟨e, he⟩ := hall firstIllegible
  rw [hrefused] at he
  cases he

end Definition

end Demarcation
