/-
Where translators come from. A chain of translators is the list of those at its leaves, however deep they are
nested. A translating step that detects its translator asks the source once, when a translator is needed for
the first time, and goes by the list it found then, whatever is registered later and whoever calls it.
-/
import Demarcation.Proofs.Translation.Exactness

namespace Demarcation

/-! ## Flat translators -/

namespace Translator

mutual

/-- The translators that are no chains, from left to right. -/
def leaves : Translator → List (Failure → Option DataAccessError)
  | leaf t => [t]
  | chained ts => leavesOf ts

def leavesOf : List Translator → List (Failure → Option DataAccessError)
  | [] => []
  | t :: ts => leaves t ++ leavesOf ts

end

mutual

theorem translate_eq_findSome? (f : Failure) : ∀ t : Translator, t.translate f = t.leaves.findSome? (· f)
  | leaf t => by simp [translate, leaves]
  | chained ts => translateFirst_eq_findSome? f ts

theorem translateFirst_eq_findSome? (f : Failure) :
    ∀ ts : List Translator, translateFirst ts f = (leavesOf ts).findSome? (· f)
  | [] => rfl
  | t :: ts => by
    rw [translateFirst, leavesOf, List.findSome?_append, translate_eq_findSome? f t, translateFirst_eq_findSome? f ts]

end

/-- A chain of the leaves alone. -/
def flat (known : TranslatorRegistry) : Translator := chained ((leavesOf known).map leaf)

theorem leavesOf_leaf (ts : List (Failure → Option DataAccessError)) : leavesOf (ts.map leaf) = ts := by
  induction ts with
  | nil => rfl
  | cons t ts ih => rw [List.map_cons, leavesOf, ih, leaves, List.singleton_append]

theorem leaves_flat (known : TranslatorRegistry) : (flat known).leaves = (chained known).leaves :=
  leavesOf_leaf (leavesOf known)

theorem translate_flat (known : TranslatorRegistry) : (flat known).translate = (chained known).translate := by
  funext f
  rw [translate_eq_findSome?, translate_eq_findSome?, leaves_flat]

end Translator

/-! ## A step in use -/

variable {τ : Type}

/-- What happened at a moment. -/
inductive Moment (τ : Type)
  | registered (t : Translator)
  /-- The source was asked for the translators. -/
  | consulted (known : TranslatorRegistry)
  /-- The translator in effect was taken from the step. -/
  | used (t : Translator)
  /-- A call came back through the step: the outcome of what is behind the step, and the answer. -/
  | called (call : Call) (outcome answer : Outcome τ)

/-- A registry, a step that detects its translator from it, and what happened so far. -/
structure Detection (τ : Type) where
  registry : TranslatorRegistry
  resolution : Resolution := .detecting none
  moments : List (Moment τ) := []

namespace Detection

def noting (w : Detection τ) (m : Moment τ) : Detection τ := { w with moments := w.moments ++ [m] }

def register (t : Translator) (w : Detection τ) : Detection τ :=
  ({ w with registry := w.registry ++ [t] }).noting (.registered t)

/-- The registry as a source. -/
def source : TranslatorSource (Detection τ) := fun w => (w.registry, w.noting (.consulted w.registry))

def slot : Slot (Detection τ) Resolution := ⟨Detection.resolution, fun resolution w => { w with resolution }⟩

/-- The translator in effect, and the world in which the step remembers it. -/
def translator (w : Detection τ) : Translator × Detection τ :=
  let (t, resolution, w) := w.resolution.translator source w
  (t, slot.set resolution w)

/-- Calls what is behind the step through the step. -/
def call (always : Bool) (c : Call) (arguments : List Value) (inner : StateM (Detection τ) (Outcome τ)) :
    StateM (Detection τ) (Outcome τ) := fun w =>
  let target : Target (Detection τ) τ := fun i =>
    let (outcome, world) := inner i.scope.world
    (outcome, { i.scope with world })
  let (answer, scope) := Chain.execute [.translating always slot source] c target ⟨arguments, w⟩
  (answer, scope.world.noting (.called c (inner w).1 answer))

end Detection

/-- What is done with a registry and a step. What is behind the step in a call may use both again, and what comes
next may depend on the translators that were taken and on the answers to the calls. -/
inductive Usage (τ : Type)
  | answer (outcome : Outcome τ)
  | register (t : Translator) (next : Usage τ)
  | take (next : Translator → Usage τ)
  | call (c : Call) (arguments : List Value) (inner : Usage τ) (next : Outcome τ → Usage τ)

def Usage.run (always : Bool) : Usage τ → StateM (Detection τ) (Outcome τ)
  | .answer outcome => pure outcome
  | .register t next => fun w => next.run always (w.register t)
  | .take next => fun w =>
    let (t, w) := w.translator
    (next t).run always (w.noting (.used t))
  | .call c arguments inner next => fun w =>
    let (outcome, w) := Detection.call always c arguments (inner.run always) w
    (next outcome).run always w

/-! ## Calls through the step -/

namespace Detection

section Calls

variable {always : Bool} {c : Call} {arguments : List Value} {inner : StateM (Detection τ) (Outcome τ)}
  {w w' : Detection τ} {f : Failure}

/-- The scope that a call hands on has the arguments still, and the world that what is behind the step leaves. -/
theorem call_eq {outcome : Outcome τ} (hinner : inner w = (outcome, w')) {answer : Outcome τ} {w'' : Detection τ}
    (happly : ∀ rest : Rest (Detection τ) τ, rest ⟨arguments, w⟩ = (outcome, ⟨arguments, w'⟩) →
      ((Interceptor.translating always slot source).around c).apply 1 rest ⟨arguments, w⟩ =
        (answer, ⟨arguments, w''⟩)) :
    call always c arguments inner w = (answer, w''.noting (.called c outcome answer)) := by
  unfold call
  simp only [Chain.execute_eq_composed, hinner]
  unfold Chain.composed
  rw [happly]
  simp [Chain.composed, hinner]

theorem call_ok {v : τ} (hinner : inner w = (.ok v, w')) :
    call always c arguments inner w = (.ok v, w'.noting (.called c (.ok v) (.ok v))) :=
  call_eq hinner fun _ hrest => Interceptor.apply_asking_ok 1 hrest

theorem call_declared (hinner : inner w = (.error f, w')) (off : always = false)
    (declares : c.operation.declares f = true) :
    call always c arguments inner w = (.error f, w'.noting (.called c (.error f) (.error f))) :=
  call_eq hinner fun _ hrest => Interceptor.apply_asking_declared 1 hrest off declares

theorem call_translated (hinner : inner w = (.error f, w'))
    (asks : always = true ∨ c.operation.declares f = false) :
    call always c arguments inner w =
      (.error (w'.translator.1.translateIfNecessary f),
        w'.translator.2.noting (.called c (.error f) (.error (w'.translator.1.translateIfNecessary f)))) :=
  call_eq hinner fun _ hrest => Interceptor.apply_asking_asks 1 hrest asks

end Calls

end Detection

/-! ## What each moment does with the translators -/

namespace Moment

/-- The moment needs a translator: it is taken from the step, or a call has a failure to be translated. -/
def Needs (always : Bool) : Moment τ → Prop
  | used _ => True
  | called c outcome _ => ∃ f, outcome = .error f ∧ (always = true ∨ c.operation.declares f = false)
  | registered _ | consulted _ => False

/-- The moment does without a translator, and a call answers what came up to the step. -/
def Idle (always : Bool) : Moment τ → Prop
  | registered _ => True
  | called c outcome answer => ¬ (called c outcome answer).Needs always ∧ answer = outcome
  | used _ | consulted _ => False

/-- The moment translates as the flat list of some translators does, and does not ask the source. -/
def GoesBy (always : Bool) (known : TranslatorRegistry) : Moment τ → Prop
  | registered _ => True
  | used t => ∀ f, t.translate f = (Translator.flat known).translate f
  | called c outcome answer =>
    Translates always (fun f _ => ((Translator.flat known).translate f, ())) c.operation outcome () answer ()
  | consulted _ => False

def registered? : Moment τ → Option Translator
  | registered t => some t
  | used _ | called _ _ _ | consulted _ => none

variable {always : Bool} {m : Moment τ} {c : Call} {f : Failure}

theorem Idle.goesBy (hm : m.Idle always) (known : TranslatorRegistry) : m.GoesBy always known := by
  cases m with
  | registered t => trivial
  | consulted _ => exact hm
  | used t => exact hm.elim
  | called c outcome answer =>
    obtain ⟨hneeds, rfl⟩ := hm
    cases answer with
    | ok v => exact .result
    | error f =>
      have hpasses : always = false ∧ c.operation.declares f = true := by simpa [Needs] using hneeds
      exact .declared hpasses.1 hpasses.2

theorem idle_ok (v : τ) : (called c (.ok v) (.ok v)).Idle always := ⟨by simp [Needs], rfl⟩

theorem idle_declared (off : always = false) (declares : c.operation.declares f = true) :
    (called c (.error f) (.error f) : Moment τ).Idle always := ⟨by simp [Needs, off, declares], rfl⟩

theorem goesBy_used (known : TranslatorRegistry) : (used (.chained known) : Moment τ).GoesBy always known :=
  fun f => (congrFun (Translator.translate_flat known) f).symm

theorem goesBy_called (asks : always = true ∨ c.operation.declares f = false) (known : TranslatorRegistry) :
    (called c (.error f) (.error ((Translator.chained known).translateIfNecessary f)) : Moment τ).GoesBy
      always known := by
  refine (translates_of_asks asks).2 ⟨?_, rfl⟩
  rw [Translator.translateIfNecessary, ← Translator.translate_flat]

end Moment

/-- The translators that were registered, in order. -/
def registrations (moments : List (Moment τ)) : TranslatorRegistry := moments.filterMap Moment.registered?

/-- A translator was needed. At the first moment that needs one the source is asked, and answers what is registered
then: what was registered from the start and what was added since. That moment and all that follow go by this
list. -/
inductive Found (always : Bool) (registry known : TranslatorRegistry) : List (Moment τ) → Prop
  | at {before after : List (Moment τ)} {m : Moment τ} (idle : ∀ b ∈ before, b.Idle always)
    (answered : known = registry ++ registrations before) (needs : m.Needs always)
    (later : ∀ a ∈ m :: after, a.GoesBy always known) :
    Found always registry known (before ++ .consulted known :: m :: after)

/-- Once a list is found, it stays. -/
theorem Found.more {always : Bool} {registry known : TranslatorRegistry} {moments : List (Moment τ)} {m : Moment τ}
    (hfound : Found always registry known moments) (hm : m.GoesBy always known) :
    Found always registry known (moments ++ [m]) := by
  obtain ⟨hidle, hanswered, hneeds, hlater⟩ := hfound
  rw [List.append_assoc, List.cons_append]
  refine .at hidle hanswered hneeds fun a ha => ?_
  rcases List.mem_append.1 (List.cons_append .. ▸ ha) with ha | ha
  · exact hlater a ha
  · exact List.mem_singleton.1 ha ▸ hm

/-! ## Runs -/

/-- What the step remembers agrees with what happened. -/
inductive Detected (always : Bool) (registry : TranslatorRegistry) : Detection τ → Prop
  | pending {moments : List (Moment τ)} (idle : ∀ m ∈ moments, m.Idle always) :
    Detected always registry ⟨registry ++ registrations moments, .detecting none, moments⟩
  | found {moments : List (Moment τ)} {known later : TranslatorRegistry}
    (found : Found always registry known moments) :
    Detected always registry ⟨later, .detecting (some (.chained known)), moments⟩

namespace Detected

variable {always : Bool} {registry : TranslatorRegistry} {w w' : Detection τ} {m : Moment τ}

theorem start : Detected always registry (⟨registry, .detecting none, []⟩ : Detection τ) := by
  have hempty : ∀ m ∈ ([] : List (Moment τ)), m.Idle always := by simp
  have hpending : Detected always registry ⟨registry ++ registrations [], .detecting none, []⟩ := pending hempty
  rwa [registrations, List.filterMap_nil, List.append_nil] at hpending

/-- No translator was needed and the source was not asked, or a list was found. -/
theorem idle_or_found (hw : Detected always registry w) :
    (∀ m ∈ w.moments, m.Idle always) ∨ ∃ known, Found always registry known w.moments := by
  cases hw with
  | pending hidle => exact .inl hidle
  | found hfound => exact .inr ⟨_, hfound⟩

/-- A moment that needs no translator, and may register one. -/
theorem idle (hw : Detected always registry w) (hm : m.Idle always) :
    Detected always registry ⟨w.registry ++ registrations [m], w.resolution, w.moments ++ [m]⟩ := by
  cases hw with
  | @pending moments hidle =>
    have hall : ∀ m' ∈ moments ++ [m], m'.Idle always := by
      simpa [or_imp, forall_and] using ⟨hidle, hm⟩
    have hpending : Detected always registry
        ⟨registry ++ registrations (moments ++ [m]), .detecting none, moments ++ [m]⟩ := pending hall
    rwa [registrations, List.filterMap_append, ← List.append_assoc] at hpending
  | found hfound => exact .found (hfound.more (hm.goesBy _))

/-- A moment that needs a translator is given the one that was found, or else all that are registered. -/
theorem needed (hw : Detected always registry w) :
    ∃ known, w.translator.1 = .chained known ∧ ∀ m : Moment τ, m.Needs always → m.GoesBy always known →
      Detected always registry (w.translator.2.noting m) := by
  cases hw with
  | @pending moments hidle =>
    refine ⟨registry ++ registrations moments, rfl, fun m hneeds hgoes => .found ?_⟩
    have hfound : Found always registry (registry ++ registrations moments)
        (moments ++ [.consulted (registry ++ registrations moments), m]) :=
      .at hidle rfl hneeds (by simpa using hgoes)
    rw [List.append_cons] at hfound
    exact hfound
  | @found moments known later hfound => exact ⟨known, rfl, fun m _ hgoes => .found (hfound.more hgoes)⟩

theorem register (hw : Detected always registry w) (t : Translator) : Detected always registry (w.register t) :=
  hw.idle (m := .registered t) trivial

theorem take (hw : Detected always registry w) :
    Detected always registry (w.translator.2.noting (.used w.translator.1)) := by
  obtain ⟨known, hknown, hneeded⟩ := hw.needed
  rw [hknown]
  exact hneeded _ trivial (Moment.goesBy_used known)

/-- A call keeps what the step remembers in agreement, if what is behind the step does. -/
theorem call (c : Call) (arguments : List Value) {inner : StateM (Detection τ) (Outcome τ)}
    (hinner : Detected always registry (inner w).2) :
    Detected always registry (Detection.call always c arguments inner w).2 := by
  rcases houtcome : inner w with ⟨f | v, w'⟩
  · rw [houtcome] at hinner
    rcases passes_or_asks always c.operation f with ⟨off, declares⟩ | asks
    · rw [Detection.call_declared houtcome off declares]
      have hidle := hinner.idle (Moment.idle_declared off declares)
      rwa [show registrations [.called c (.error f) (.error f)] = [] from rfl, List.append_nil] at hidle
    · rw [Detection.call_translated houtcome asks]
      obtain ⟨known, hknown, hneeded⟩ := hinner.needed
      rw [hknown]
      exact hneeded _ ⟨f, rfl, asks⟩ (Moment.goesBy_called asks known)
  · rw [houtcome] at hinner
    rw [Detection.call_ok houtcome]
    have hidle := hinner.idle (@Moment.idle_ok τ always c v)
    rwa [show registrations [.called c (.ok v) (.ok v)] = [] from rfl, List.append_nil] at hidle

end Detected

theorem Usage.run_detected {always : Bool} {registry : TranslatorRegistry} (usage : Usage τ) {w : Detection τ}
    (hw : Detected always registry w) : Detected always registry (usage.run always w).2 := by
  induction usage generalizing w with
  | answer outcome => exact hw
  | register t next ih => exact ih (hw.register t)
  | take next ih => exact ih _ hw.take
  | call c arguments inner next ihinner ihnext => exact ihnext _ ((ihinner hw).call c arguments)

/-! ## Main statement -/

/-- A translator, however deep its chains are nested, answers what the first of its leaves answers that understands
the failure, and nothing if none does. Whatever is done with a registry and a step that detects its translator
from it, the step asks the registry at most once, namely when a translator is needed for the first time, and
from then on translates as the flat list of what was registered at that moment. -/
theorem detection_exact (always : Bool) (registry : TranslatorRegistry) (usage : Usage τ) :
    (∀ (t : Translator) (f : Failure),
      (∀ e, t.translate f = some e ↔
        ∃ before leaf after, t.leaves = before ++ leaf :: after ∧ (∀ l ∈ before, l f = none) ∧ leaf f = some e) ∧
      (t.translate f = none ↔ ∀ leaf ∈ t.leaves, leaf f = none)) ∧
    let moments := (usage.run always ⟨registry, .detecting none, []⟩).2.moments
    (∀ m ∈ moments, m.Idle always) ∨ ∃ known, Found always registry known moments := by
  refine ⟨fun t f => ⟨fun e => ?_, ?_⟩, (usage.run_detected Detected.start).idle_or_found⟩
  · rw [Translator.translate_eq_findSome?, List.findSome?_eq_some_iff]
    constructor
    · rintro ⟨before, leaf, after, hleaves, hleaf, hbefore⟩
      exact ⟨before, leaf, after, hleaves, hbefore, hleaf⟩
    · rintro ⟨before, leaf, after, hleaves, hbefore, hleaf⟩
      exact ⟨before, leaf, after, hleaves, hleaf, hbefore⟩
  · rw [Translator.translate_eq_findSome?, List.findSome?_eq_none_iff]

end Demarcation
