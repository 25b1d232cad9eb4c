/-
What may be asked of the resource of one transaction, one thing after another. A suspension and its resumption
stand next to each other; a savepoint and what finishes it are a bracket, and brackets nest; and the transaction
is completed and the resource cleaned up at last.
-/

namespace Demarcation

variable {ς : Type}

/-- What is asked of a resource, and whether it succeeds. -/
inductive Request (ς : Type)
  | suspend (ok : Bool)
  | resume (ok : Bool)
  | commit (ok : Bool)
  | rollback (ok : Bool)
  | cleanup (ok : Bool)
  /-- A savepoint is asked for, and it is returned or not. -/
  | create (sp : Option ς)
  | rollbackTo (sp : ς) (ok : Bool)
  | release (sp : ς) (ok : Bool)
deriving DecidableEq, Repr

namespace Request

/-- The transaction is completed, or the resource is given up. -/
def closes : Request ς → Bool
  | commit _ | rollback _ | cleanup _ => true
  | suspend _ | resume _ | create _ | rollbackTo _ _ | release _ _ => false

/-- One half of a suspension that succeeded. -/
def pairs : Request ς → Bool
  | suspend ok => ok
  | resume _ => true
  | commit _ | rollback _ | cleanup _ | create _ | rollbackTo _ _ | release _ _ => false

/-- A savepoint is handed back to the backend. -/
def Uses (sp : ς) : Request ς → Prop
  | rollbackTo sp' _ | release sp' _ => sp' = sp
  | suspend _ | resume _ | commit _ | rollback _ | cleanup _ | create _ => False

end Request

open Request

/-! ## The grammar -/

/-- A savepoint is finished: it is released, or returned to, and then released if that succeeded. -/
inductive Finish (sp : ς) : List (Request ς) → Prop
  | released {ok : Bool} : Finish sp [.release sp ok]
  | kept : Finish sp [.rollbackTo sp false]
  | returned {ok : Bool} : Finish sp [.rollbackTo sp true, .release sp ok]

/-- What is asked of a transaction that goes on. -/
inductive Dialogue : List (Request ς) → Prop
  | nil : Dialogue []
  | suspended {ok : Bool} {rest : List (Request ς)} : Dialogue rest → Dialogue (.suspend true :: .resume ok :: rest)
  | notSuspended {rest : List (Request ς)} : Dialogue rest → Dialogue (.suspend false :: rest)
  | saved {sp : ς} {inner fin rest : List (Request ς)} : Dialogue inner → Finish sp fin → Dialogue rest →
    Dialogue (.create (some sp) :: (inner ++ fin ++ rest))
  | notSaved {rest : List (Request ς)} : Dialogue rest → Dialogue (.create none :: rest)

/-- A transaction is completed. -/
inductive Completion : List (Request ς) → Prop
  | committed {ok : Bool} : Completion [.commit ok]
  | undone {ok : Bool} : Completion [.commit false, .rollback ok]
  | rolledBack {ok : Bool} : Completion [.rollback ok]

/-- What is asked of a transaction from its beginning to its end. -/
inductive Course : List (Request ς) → Prop
  | mk {inner completion : List (Request ς)} {ok : Bool} : Dialogue inner → Completion completion →
    Course (inner ++ (completion ++ [.cleanup ok]))

theorem Dialogue.append {l l' : List (Request ς)} (h : Dialogue l) (h' : Dialogue l') : Dialogue (l ++ l') := by
  induction h with
  | nil => exact h'
  | suspended _ ih => exact .suspended ih
  | notSuspended _ ih => exact .notSuspended ih
  | notSaved _ ih => exact .notSaved ih
  | @saved sp inner fin rest hinner hfin _ _ ih =>
    rw [List.cons_append, List.append_assoc (inner ++ fin)]
    exact .saved hinner hfin ih

/-! ## What the parts contain -/

theorem Finish.mem {sp : ς} {fin : List (Request ς)} (h : Finish sp fin) {q : Request ς} (hq : q ∈ fin) :
    q.closes = false ∧ q.pairs = false ∧ (∀ sp', q ≠ .create sp') ∧ ∀ sp', q.Uses sp' → sp = sp' := by
  have hfin : q = .rollbackTo sp false ∨ q = .rollbackTo sp true ∨ ∃ ok, q = .release sp ok := by
    cases h <;> simp only [List.mem_cons, List.not_mem_nil, or_false] at hq
    · exact .inr (.inr ⟨_, hq⟩)
    · exact .inl hq
    · exact hq.elim (.inr ∘ .inl) fun hq => .inr (.inr ⟨_, hq⟩)
  rcases hfin with rfl | rfl | ⟨ok, rfl⟩ <;> exact ⟨rfl, rfl, nofun, fun _ => id⟩

theorem Completion.mem {l : List (Request ς)} (h : Completion l) {q : Request ς} (hq : q ∈ l) :
    q.pairs = false ∧ (∀ sp, q ≠ .create sp) ∧ ∀ sp, ¬ q.Uses sp := by
  have hl : (∃ ok, q = .commit ok) ∨ ∃ ok, q = .rollback ok := by
    cases h <;> simp only [List.mem_cons, List.not_mem_nil, or_false] at hq
    · exact .inl ⟨_, hq⟩
    · exact hq.elim (fun hq => .inl ⟨_, hq⟩) fun hq => .inr ⟨_, hq⟩
    · exact .inr ⟨_, hq⟩
  rcases hl with ⟨ok, rfl⟩ | ⟨ok, rfl⟩ <;> exact ⟨rfl, nofun, fun _ => id⟩

theorem Dialogue.goes_on {l : List (Request ς)} (h : Dialogue l) : ∀ q ∈ l, q.closes = false := by
  induction h with
  | nil => nofun
  | suspended _ ih => simpa [closes] using ih
  | notSuspended _ ih | notSaved _ ih => simpa [closes] using ih
  | saved _ hfin _ ihinner ihrest =>
    simp only [List.forall_mem_cons, List.forall_mem_append]
    exact ⟨rfl, ⟨ihinner, fun q hq => (hfin.mem hq).1⟩, ihrest⟩

/-- Only a savepoint that was created is handed back. -/
theorem Dialogue.created {l : List (Request ς)} (h : Dialogue l) {sp : ς} :
    ∀ q ∈ l, q.Uses sp → .create (some sp) ∈ l := by
  induction h with
  | nil => nofun
  | suspended _ ih =>
    simp only [List.forall_mem_cons]
    refine ⟨nofun, nofun, fun q hq huses => ?_⟩
    simp [ih q hq huses]
  | notSuspended _ ih | notSaved _ ih =>
    simp only [List.forall_mem_cons]
    refine ⟨nofun, fun q hq huses => ?_⟩
    simp [ih q hq huses]
  | saved _ hfin _ ihinner ihrest =>
    simp only [List.forall_mem_cons, List.forall_mem_append]
    refine ⟨nofun, ⟨fun q hq huses => ?_, fun q hq huses => ?_⟩, fun q hq huses => ?_⟩
    · simp [ihinner q hq huses]
    · simp [(hfin.mem hq).2.2.2 sp huses]
    · simp [ihrest q hq huses]

/-! ## Suspensions -/

/-- Every suspension that succeeded is followed by a resumption, and there is no other resumption. -/
inductive Paired : List (Request ς) → Prop
  | nil : Paired []
  | pair {ok : Bool} {rest : List (Request ς)} : Paired rest → Paired (.suspend true :: .resume ok :: rest)
  | other {q : Request ς} {rest : List (Request ς)} : q.pairs = false → Paired rest → Paired (q :: rest)

namespace Paired

variable {l l' pre post : List (Request ς)} {ok : Bool}

theorem of_none (h : ∀ q ∈ l, q.pairs = false) : Paired l := by
  induction l with
  | nil => exact .nil
  | cons q l ih =>
    rw [List.forall_mem_cons] at h
    exact .other h.1 (ih h.2)

theorem append (h : Paired l) (h' : Paired l') : Paired (l ++ l') := by
  induction h with
  | nil => exact h'
  | pair _ ih => exact .pair ih
  | other hq _ ih => exact .other hq ih

theorem resumed (h : Paired (pre ++ .suspend true :: post)) : ∃ ok rest, post = .resume ok :: rest := by
  generalize hl : pre ++ .suspend true :: post = l at h
  induction h generalizing pre with
  | nil => simp at hl
  | @pair ok rest _ ih =>
    rcases pre with _ | ⟨_, _ | ⟨_, pre⟩⟩
    · exact ⟨ok, rest, (List.cons.inj hl).2⟩
    · cases (List.cons.inj (List.cons.inj hl).2).1
    · exact ih (List.cons.inj (List.cons.inj hl).2).2
  | @other q rest hq _ ih =>
    rcases pre with _ | ⟨_, pre⟩
    · rw [← (List.cons.inj hl).1] at hq
      cases hq
    · exact ih (List.cons.inj hl).2

theorem suspended (h : Paired (pre ++ .resume ok :: post)) : ∃ before, pre = before ++ [.suspend true] := by
  generalize hl : pre ++ .resume ok :: post = l at h
  induction h generalizing pre with
  | nil => simp at hl
  | @pair ok' rest _ ih =>
    rcases pre with _ | ⟨q, _ | ⟨q', pre⟩⟩
    · cases (List.cons.inj hl).1
    · exact ⟨[], by rw [(List.cons.inj hl).1]; rfl⟩
    · obtain ⟨before, rfl⟩ := ih (List.cons.inj (List.cons.inj hl).2).2
      exact ⟨q :: q' :: before, rfl⟩
  | @other q rest hq _ ih =>
    rcases pre with _ | ⟨q', pre⟩
    · rw [← (List.cons.inj hl).1] at hq
      cases hq
    · obtain ⟨before, rfl⟩ := ih (List.cons.inj hl).2
      exact ⟨q' :: before, rfl⟩

end Paired

theorem Dialogue.paired {l : List (Request ς)} (h : Dialogue l) : Paired l := by
  induction h with
  | nil => exact .nil
  | suspended _ ih => exact .pair ih
  | notSuspended _ ih | notSaved _ ih => exact .other rfl ih
  | saved _ hfin _ ihinner ihrest =>
    exact .other rfl ((ihinner.append (.of_none fun q hq => (hfin.mem hq).2.1)).append ihrest)

theorem Course.paired {l : List (Request ς)} (h : Course l) : Paired l := by
  cases h with
  | mk hinner hcompletion =>
    refine hinner.paired.append (.of_none ?_)
    simp only [List.forall_mem_append, List.forall_mem_singleton]
    exact ⟨fun q hq => (hcompletion.mem hq).1, rfl⟩

/-! ## Savepoints -/

/-- How a savepoint is finished that is created behind `pre` and before `post`: after the savepoints created later,
and before the transaction is completed. If it is not created again, it is handed back only there. -/
def Finished (sp : ς) (pre post : List (Request ς)) : Prop :=
  ∃ inner fin rest, post = inner ++ fin ++ rest ∧ Dialogue inner ∧ Finish sp fin ∧
    (∀ q ∈ pre ++ inner ++ fin, q.closes = false) ∧
      (.create (some sp) ∉ pre ++ post → ∀ q ∈ pre ++ inner ++ rest, ¬ q.Uses sp)

/-- A savepoint is finished in a longer list as in a part of it. -/
theorem Finished.frame {sp : ς} {pre post : List (Request ς)} (h : Finished sp pre post)
    (before behind : List (Request ς)) (hopen : ∀ q ∈ before, q.closes = false)
    (huses : ∀ q ∈ before ++ behind, q.Uses sp → .create (some sp) ∈ before ++ pre ++ (post ++ behind)) :
    Finished sp (before ++ pre) (post ++ behind) := by
  obtain ⟨inner, fin, rest, rfl, hinner, hfin, hgoes, honly⟩ := h
  refine ⟨inner, fin, rest ++ behind, by simp, hinner, hfin, fun q hq => ?_, fun hnot q hq hq' => ?_⟩
  · rw [List.append_assoc, List.append_assoc, ← List.append_assoc pre] at hq
    exact (List.mem_append.1 hq).elim (hopen q) (hgoes q)
  · have hnot' : .create (some sp) ∉ pre ++ (inner ++ fin ++ rest) := by
      grind
    have hmem : q ∈ before ++ behind ∨ q ∈ pre ++ inner ++ rest := by
      grind
    rcases hmem with hmem | hmem
    · exact hnot (huses q hmem hq')
    · exact honly hnot' q hmem hq'

theorem append_eq_split {α : Type} {a b pre post : List α} {q : α} (h : a ++ b = pre ++ q :: post) :
    (∃ mid, a = pre ++ q :: mid ∧ post = mid ++ b) ∨ ∃ mid, pre = a ++ mid ∧ b = mid ++ q :: post := by
  rcases List.append_eq_append_iff.1 h with ⟨mid, rfl, rfl⟩ | ⟨mid, rfl, hb⟩
  · exact .inr ⟨mid, rfl, rfl⟩
  · rcases mid with _ | ⟨q', mid⟩
    · exact .inr ⟨[], by simp, hb.symm⟩
    · obtain ⟨rfl, rfl⟩ := List.cons.inj hb
      exact .inl ⟨mid, rfl, rfl⟩

/-- A savepoint is finished behind anything that neither completes the transaction nor hands back a savepoint. -/
theorem Finished.cons {sp : ς} {pre post : List (Request ς)} (h : Finished sp pre post) {q : Request ς}
    (hopen : q.closes = false) (huses : ¬ q.Uses sp) : Finished sp (q :: pre) post := by
  have hframe := h.frame [q] [] (by simpa using hopen) fun q' hq' hq'' => by
    obtain rfl : q' = q := by simpa using hq'
    exact absurd hq'' huses
  simpa using hframe

theorem Dialogue.finished {l pre post : List (Request ς)} {sp : ς} (h : Dialogue l)
    (hl : l = pre ++ .create (some sp) :: post) : Finished sp pre post := by
  induction h generalizing pre post with
  | nil => simp at hl
  | suspended _ ih =>
    rcases pre with _ | ⟨_, _ | ⟨_, pre⟩⟩ <;>
      simp only [List.nil_append, List.cons_append, List.cons.injEq, reduceCtorEq, false_and, and_false] at hl
    obtain ⟨rfl, rfl, hl⟩ := hl
    exact ((ih hl).cons rfl id).cons rfl id
  | notSuspended _ ih | notSaved _ ih =>
    rcases pre with _ | ⟨_, pre⟩ <;>
      simp only [List.nil_append, List.cons_append, List.cons.injEq, create.injEq, reduceCtorEq, false_and] at hl
    obtain ⟨rfl, hl⟩ := hl
    exact (ih hl).cons rfl id
  | @saved sp' inner fin rest hinner hfin hrest ihinner ihrest =>
    rcases pre with _ | ⟨_, pre⟩ <;> simp only [List.nil_append, List.cons_append, List.cons.injEq] at hl
    · -- this is the savepoint
      obtain ⟨hsp, rfl⟩ := hl
      obtain rfl : sp' = sp := by simpa using hsp
      refine ⟨inner, fin, rest, rfl, hinner, hfin, ?_, fun hnot q hq huses => hnot ?_⟩
      · simpa only [List.nil_append, List.forall_mem_append] using
          ⟨hinner.goes_on, fun q hq => (hfin.mem hq).1⟩
      have hcreated : .create (some sp') ∈ inner ∨ .create (some sp') ∈ rest := by
        rcases List.mem_append.1 hq with hq | hq
        · exact .inl (hinner.created q (by simpa using hq) huses)
        · exact .inr (hrest.created q hq huses)
      rcases hcreated with hmem | hmem <;> simp [hmem]
    · obtain ⟨rfl, hl⟩ := hl
      have huses : ∀ q ∈ fin, q.Uses sp → sp' = sp := fun q hq => (hfin.mem hq).2.2.2 sp
      rcases append_eq_split hl with ⟨mid, hmid, rfl⟩ | ⟨mid, rfl, hmid⟩
      · rcases append_eq_split hmid with ⟨mid', hmid', rfl⟩ | ⟨mid', rfl, hmid'⟩
        · -- it is created between the savepoint and its finish
          have hframe := (ihinner hmid').frame [.create (some sp')] (fin ++ rest)
            (by simp [closes]) fun q hq hq' => ?_
          · simpa using hframe
          · simp only [List.singleton_append, List.mem_cons, List.mem_append] at hq
            rcases hq with rfl | hq | hq
            · exact hq'.elim
            · simp [huses q hq hq']
            · simp [hrest.created q hq hq']
        · exact absurd rfl ((hfin.mem (hmid' ▸ by simp)).2.2.1 (some sp))
      · -- it is created behind
        have hframe := (ihrest hmid).frame (.create (some sp') :: (inner ++ fin)) []
          ?_ fun q hq hq' => ?_
        · simpa using hframe
        · simp only [List.forall_mem_cons, List.forall_mem_append]
          exact ⟨rfl, hinner.goes_on, fun q hq => (hfin.mem hq).1⟩
        · simp only [List.append_nil, List.mem_cons, List.mem_append] at hq
          rcases hq with rfl | hq | hq
          · exact hq'.elim
          · simp [hinner.created q hq hq']
          · simp [huses q hq hq']

/-! ## The whole course -/

/-- The rules that what is asked of one resource obeys. -/
structure Protocol (l : List (Request ς)) : Prop where
  course : Course l
  resumed : ∀ pre post, l = pre ++ .suspend true :: post → ∃ ok rest, post = .resume ok :: rest
  suspended : ∀ pre ok post, l = pre ++ .resume ok :: post → ∃ before, pre = before ++ [.suspend true]
  finished : ∀ pre sp post, l = pre ++ .create (some sp) :: post → Finished sp pre post

theorem Course.protocol {l : List (Request ς)} (h : Course l) : Protocol l := by
  refine ⟨h, fun pre post hl => ?_, fun pre ok post hl => ?_, fun pre sp post hl => ?_⟩
  · exact (hl ▸ h.paired).resumed
  · exact (hl ▸ h.paired).suspended
  · obtain @⟨dialogue, completion, ok, hdialogue, hcompletion⟩ := h
    have hend : ∀ q ∈ completion ++ [.cleanup ok], (∀ sp, q ≠ .create sp) ∧ ∀ sp, ¬ q.Uses sp := by
      simp only [List.forall_mem_append, List.forall_mem_singleton]
      exact ⟨fun q hq => (hcompletion.mem hq).2, nofun, fun _ => id⟩
    rcases append_eq_split hl with ⟨mid, hmid, rfl⟩ | ⟨mid, rfl, hmid⟩
    · exact (hdialogue.finished hmid).frame [] _ nofun
        fun q hq huses => absurd huses ((hend q hq).2 sp)
    · exact absurd rfl ((hend (.create (some sp)) (hmid ▸ by simp)).1 (some sp))

/-! ## Before the end -/

/-- What an open scope still owes to a transaction. -/
inductive Due (ς : Type)
  /-- The transaction is suspended and has to be resumed. -/
  | resumption
  /-- A savepoint was created and has to be finished. -/
  | finish (sp : ς)
deriving DecidableEq, Repr

/-- What was asked when it became due. -/
def Due.origin : Due ς → Request ς
  | .resumption => .suspend true
  | .finish sp => .create (some sp)

/-- What is asked by which it is due no longer. -/
inductive Due.MetBy : Due ς → List (Request ς) → Prop
  | resumed {ok : Bool} : Due.MetBy .resumption [.resume ok]
  | finished {sp : ς} {fin : List (Request ς)} : Finish sp fin → Due.MetBy (.finish sp) fin

/-- What was asked of a transaction so far, with what is still due to it, the latest first. While the transaction
is suspended, nothing else is asked. -/
inductive Unfinished : List (Request ς) → List (Due ς) → Prop
  | nothing {l : List (Request ς)} : Dialogue l → Unfinished l []
  | resumption {l : List (Request ς)} {due : List (Due ς)} : Unfinished l due → due.head? ≠ some .resumption →
    Unfinished (l ++ [.suspend true]) (.resumption :: due)
  | finish {l inner : List (Request ς)} {due : List (Due ς)} {sp : ς} : Unfinished l due →
    due.head? ≠ some .resumption → Dialogue inner →
    Unfinished (l ++ .create (some sp) :: inner) (.finish sp :: due)

namespace Unfinished

variable {l l' : List (Request ς)} {due : List (Due ς)} {d : Due ς}

/-- A transaction that is not suspended can be asked more. -/
theorem ask (h : Unfinished l due) (hfree : due.head? ≠ some .resumption) (hl' : Dialogue l') :
    Unfinished (l ++ l') due := by
  cases h with
  | nothing h => exact .nothing (h.append hl')
  | resumption => exact absurd rfl hfree
  | finish h hfree' hinner =>
    rw [List.append_assoc, List.cons_append]
    exact .finish h hfree' (hinner.append hl')

theorem incur (h : Unfinished l due) (hfree : due.head? ≠ some .resumption) (d : Due ς) :
    Unfinished (l ++ [d.origin]) (d :: due) := by
  cases d with
  | resumption => exact .resumption h hfree
  | finish sp => exact .finish h hfree .nil

/-- The latest of what is due is met first. -/
theorem meet (h : Unfinished l (d :: due)) (hmet : d.MetBy l') : Unfinished (l ++ l') due := by
  cases hmet with
  | resumed =>
    cases h with
    | resumption h hfree =>
      rw [List.append_assoc]
      exact h.ask hfree (.suspended .nil)
  | finished hfin =>
    cases h with
    | @finish l inner _ _ h hfree hinner =>
      have hsaved := Dialogue.saved hinner hfin .nil
      rw [List.append_nil] at hsaved
      rw [List.append_assoc, List.cons_append]
      exact h.ask hfree hsaved

theorem course {completion : List (Request ς)} (h : Unfinished l []) (hcompletion : Completion completion)
    (ok : Bool) : Course (l ++ (completion ++ [.cleanup ok])) := by
  cases h with
  | nothing h => exact .mk h hcompletion

/-- What is due can be met, and then the transaction can be completed. -/
theorem completable (h : Unfinished l due) : ∃ rest, Course (l ++ rest) := by
  induction due generalizing l with
  | nil =>
    have hcommitted : Completion [(.commit true : Request ς)] := .committed
    exact ⟨_, h.course hcommitted true⟩
  | cons d due ih =>
    obtain ⟨l', hmet⟩ : ∃ l', d.MetBy l' := by
      cases d with
      | resumption => exact ⟨[.resume true], .resumed⟩
      | finish sp => exact ⟨[.release sp true], .finished .released⟩
    obtain ⟨rest, hcourse⟩ := ih (h.meet hmet)
    exact ⟨l' ++ rest, List.append_assoc l l' rest ▸ hcourse⟩

end Unfinished

end Demarcation
