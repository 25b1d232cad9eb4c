/-
Configurations as JSON objects. An object that gives some of the fields, each once and in any order, among any
other members, is read as the default configuration with these fields replaced.
-/
import Demarcation.Config
import Demarcation.Proofs.Json.Reading

namespace Demarcation.ManagerConfig

open Json

/-! ## Settings -/

/-- The truth values of a configuration. -/
inductive Flag
  | failOnUnexpectedRollback
  | failEarlyOnGlobalRollbackOnly
  | globalRollbackOnParticipationFailure
  | rollbackOnCommitFailure
  | validateExistingTransaction
  | nestedTransactionAllowed
deriving DecidableEq

namespace Flag

def name : Flag → String
  | failOnUnexpectedRollback => "fail_on_unexpected_rollback"
  | failEarlyOnGlobalRollbackOnly => "fail_early_on_global_rollback_only"
  | globalRollbackOnParticipationFailure => "global_rollback_on_participation_failure"
  | rollbackOnCommitFailure => "rollback_on_commit_failure"
  | validateExistingTransaction => "validate_existing_transaction"
  | nestedTransactionAllowed => "nested_transaction_allowed"

def get (c : ManagerConfig) : Flag → Bool
  | failOnUnexpectedRollback => c.failOnUnexpectedRollback
  | failEarlyOnGlobalRollbackOnly => c.failEarlyOnGlobalRollbackOnly
  | globalRollbackOnParticipationFailure => c.globalRollbackOnParticipationFailure
  | rollbackOnCommitFailure => c.rollbackOnCommitFailure
  | validateExistingTransaction => c.validateExistingTransaction
  | nestedTransactionAllowed => c.nestedTransactionAllowed

def set (c : ManagerConfig) (b : Bool) : Flag → ManagerConfig
  | failOnUnexpectedRollback => { c with failOnUnexpectedRollback := b }
  | failEarlyOnGlobalRollbackOnly => { c with failEarlyOnGlobalRollbackOnly := b }
  | globalRollbackOnParticipationFailure => { c with globalRollbackOnParticipationFailure := b }
  | rollbackOnCommitFailure => { c with rollbackOnCommitFailure := b }
  | validateExistingTransaction => { c with validateExistingTransaction := b }
  | nestedTransactionAllowed => { c with nestedTransactionAllowed := b }

theorem name_injective {f g : Flag} (h : f.name = g.name) : f = g := by
  cases f <;> cases g <;> first | rfl | simp [name] at h

theorem name_ne_timeout (f : Flag) : f.name ≠ "default_timeout" := by
  cases f <;> simp [name]

theorem get_set_self (c : ManagerConfig) (b : Bool) (f : Flag) : f.get (f.set c b) = b := by
  cases f <;> rfl

theorem get_set_of_ne (c : ManagerConfig) (b : Bool) {f g : Flag} (hne : f ≠ g) : g.get (f.set c b) = g.get c := by
  cases f <;> cases g <;> first | rfl | exact absurd rfl hne

theorem timeout_set (c : ManagerConfig) (b : Bool) (f : Flag) : (f.set c b).defaultTimeout = c.defaultTimeout := by
  cases f <;> rfl

end Flag

/-- A field of a configuration, with a value for it. -/
inductive Setting
  | flag (f : Flag) (b : Bool)
  | defaultTimeout (t : Option Duration)

namespace Setting

def name : Setting → String
  | flag f _ => f.name
  | defaultTimeout _ => "default_timeout"

/-- The configuration with the field replaced. -/
def replace (c : ManagerConfig) : Setting → ManagerConfig
  | flag f b => f.set c b
  | defaultTimeout t => { c with defaultTimeout := t }

/-- How the value of the field may be given. -/
inductive Given : Setting → Json → Prop
  | flag (f : Flag) (b : Bool) : Given (flag f b) (.bool b)
  | noTimeout : Given (defaultTimeout none) .null
  | timeout {d : Duration} {j : Json} (written : d.Written j) : Given (defaultTimeout (some d)) j

theorem name_mem (s : Setting) : s.name ∈ fieldNames := by
  cases s with
  | flag f _ => cases f <;> simp [name, Flag.name, fieldNames]
  | defaultTimeout _ => simp [name, fieldNames]

end Setting

/-- The default configuration with some fields replaced. -/
def replacing (settings : List Setting) : ManagerConfig := settings.foldl Setting.replace {}

/-- Members that give the fields of some settings in this order, with members of other names before, between and
behind them. -/
inductive Gives : List (Literal × Json) → List Setting → Prop
  | nil : Gives [] []
  | setting {s : Setting} {j : Json} {members : List (Literal × Json)} {settings : List Setting} :
    s.Given j → Gives members settings → Gives ((some s.name, j) :: members) (s :: settings)
  | unknown {k : String} {j : Json} {members : List (Literal × Json)} {settings : List Setting} :
    k ∉ fieldNames → Gives members settings → Gives ((some k, j) :: members) settings

/-! ## Reading the fields -/

namespace Gives

variable {members : List (Literal × Json)} {settings : List Setting}

theorem isSome (h : Gives members settings) : ∀ m ∈ members, m.1.isSome := by
  induction h with
  | nil => simp
  | setting _ _ ih => simpa using ih
  | unknown _ _ ih => simpa using ih

theorem countName_eq (h : Gives members settings) {name : String} (hname : name ∈ fieldNames) :
    countName members name = (settings.map Setting.name).count name := by
  induction h with
  | nil => rfl
  | @setting s j members settings hgiven hgives ih =>
    simp only [countName, List.countP_cons, List.map_cons, List.count_cons] at ih ⊢
    simp [ih]
  | @unknown k j members settings hk hgives ih =>
    have hne : k ≠ name := fun heq => hk (heq ▸ hname)
    simp only [countName, List.countP_cons] at ih ⊢
    simp [ih, hne]

/-- Settings of other fields leave a field as it is. -/
theorem foldl_replace_of_ne {α : Type} {get : ManagerConfig → α} {name : String}
    (hother : ∀ s : Setting, s.name ≠ name → ∀ c, get (s.replace c) = get c) {settings : List Setting}
    (hs : ∀ s ∈ settings, s.name ≠ name) (c : ManagerConfig) :
    get (settings.foldl Setting.replace c) = get c := by
  induction settings generalizing c with
  | nil => rfl
  | cons s settings ih =>
    obtain ⟨hfirst, hs⟩ := List.forall_mem_cons.1 hs
    rw [List.foldl_cons, ih hs, hother s hfirst]

/-- A field that is read from what gives it, and changed by its own settings only. If it is given, it is read from
there, and else it has its default. -/
theorem field?_eq (h : Gives members settings) {α : Type} {read : Json → Option α} {get : ManagerConfig → α}
    {name : String} (hname : name ∈ fieldNames)
    (hread : ∀ s j, s.name = name → Setting.Given s j → ∀ c, read j = some (get (s.replace c)))
    (hother : ∀ s : Setting, s.name ≠ name → ∀ c, get (s.replace c) = get c)
    (honce : (settings.map Setting.name).Nodup) (c : ManagerConfig) :
    field? read (get c) (member? members name) = some (get (settings.foldl Setting.replace c)) := by
  induction h generalizing c with
  | nil => rfl
  | @setting s j members settings hgiven _ ih =>
    obtain ⟨hfresh, honce⟩ := List.nodup_cons.1 honce
    by_cases hs : s.name = name
    · -- no later setting is of this field
      subst hs
      have hrest : ∀ t ∈ settings, t.name ≠ s.name := by
        intro t ht heq
        exact hfresh (heq ▸ List.mem_map_of_mem ht)
      rw [member?_cons_self, List.foldl_cons, foldl_replace_of_ne hother hrest]
      exact hread s j rfl hgiven c
    · rw [member?_cons_of_ne hs, List.foldl_cons, ← ih honce, hother s hs]
  | @unknown k j members settings hk _ ih =>
    have hne : k ≠ name := fun heq => hk (heq ▸ hname)
    rw [member?_cons_of_ne hne]
    exact ih honce c

theorem flag?_eq (h : Gives members settings) (honce : (settings.map Setting.name).Nodup) (f : Flag) :
    field? truth? (f.get {}) (member? members f.name) = some (f.get (replacing settings)) := by
  refine @field?_eq _ _ h _ _ (fun c => f.get c) _ (Setting.name_mem (.flag f true)) ?read ?other honce {}
  case read =>
    rintro _ _ hname (⟨g, b⟩ | _ | _) c
    · obtain rfl := Flag.name_injective hname
      exact congrArg some (Flag.get_set_self c b g).symm
    · exact absurd hname.symm f.name_ne_timeout
    · exact absurd hname.symm f.name_ne_timeout
  case other =>
    rintro (⟨g, b⟩ | t) hname c
    · exact Flag.get_set_of_ne c b fun heq => hname (heq ▸ rfl)
    · cases f <;> rfl

theorem timeout?_eq (h : Gives members settings) (honce : (settings.map Setting.name).Nodup) :
    field? (nullable? Duration.ofJson?) none (member? members "default_timeout") =
      some (replacing settings).defaultTimeout := by
  refine @field?_eq _ _ h _ _ defaultTimeout _ (Setting.name_mem (.defaultTimeout none)) ?read ?other honce {}
  case read =>
    rintro _ _ hname (⟨g, b⟩ | _ | hj) c
    · exact absurd hname g.name_ne_timeout
    · rfl
    · exact Duration.nullable?_written hj
  case other =>
    rintro (⟨g, b⟩ | t) hname c
    · exact g.timeout_set c b
    · exact absurd rfl hname

end Gives

theorem ofJson?_gives {members : List (Literal × Json)} {settings : List Setting} (h : Gives members settings)
    (honce : (settings.map Setting.name).Nodup) : ofJson? (.object members) = some (replacing settings) := by
  have hfields : Json.fields? fieldNames (.object members) = some (member? members) := by
    apply fields?_object h.isSome
    intro name hname
    rw [h.countName_eq hname]
    exact List.nodup_iff_count.1 honce name
  have hflag := h.flag?_eq honce
  have hunexpected := hflag .failOnUnexpectedRollback
  have hearly := hflag .failEarlyOnGlobalRollbackOnly
  have hglobal := hflag .globalRollbackOnParticipationFailure
  have hcommit := hflag .rollbackOnCommitFailure
  have hvalidate := hflag .validateExistingTransaction
  have hnested := hflag .nestedTransactionAllowed
  simp only [Flag.name, Flag.get] at hunexpected hearly hglobal hcommit hvalidate hnested
  simp [ofJson?, hfields, hunexpected, hearly, hglobal, hcommit, hvalidate, hnested, h.timeout?_eq honce]

/-! ## The written form -/

/-- All fields of a configuration. -/
def settings (c : ManagerConfig) : List Setting :=
  [.flag .failOnUnexpectedRollback c.failOnUnexpectedRollback,
    .flag .failEarlyOnGlobalRollbackOnly c.failEarlyOnGlobalRollbackOnly,
    .flag .globalRollbackOnParticipationFailure c.globalRollbackOnParticipationFailure,
    .flag .rollbackOnCommitFailure c.rollbackOnCommitFailure,
    .flag .validateExistingTransaction c.validateExistingTransaction,
    .flag .nestedTransactionAllowed c.nestedTransactionAllowed, .defaultTimeout c.defaultTimeout]

theorem replacing_settings (c : ManagerConfig) : replacing c.settings = c := rfl

theorem settings_once (c : ManagerConfig) : (c.settings.map Setting.name).Nodup := by
  simp [settings, Setting.name, Flag.name]

theorem given_timeout (t : Option Duration) : (Setting.defaultTimeout t).Given (t.elim .null Duration.toJson) := by
  cases t with
  | none => exact .noTimeout
  | some d => exact .timeout d.written_toJson

theorem ofJson?_toJson (c : ManagerConfig) : ofJson? c.toJson = some c := by
  have hgives := Gives.setting (.flag .failOnUnexpectedRollback c.failOnUnexpectedRollback) <|
    .setting (.flag .failEarlyOnGlobalRollbackOnly c.failEarlyOnGlobalRollbackOnly) <|
    .setting (.flag .globalRollbackOnParticipationFailure c.globalRollbackOnParticipationFailure) <|
    .setting (.flag .rollbackOnCommitFailure c.rollbackOnCommitFailure) <|
    .setting (.flag .validateExistingTransaction c.validateExistingTransaction) <|
    .setting (.flag .nestedTransactionAllowed c.nestedTransactionAllowed) <|
    .setting (given_timeout c.defaultTimeout) .nil
  exact (ofJson?_gives hgives c.settings_once).trans (congrArg some c.replacing_settings)

theorem writable_toJson (c : ManagerConfig) : c.toJson.Writable := by
  have htimeout : (c.defaultTimeout.elim .null Duration.toJson).Writable := by
    cases c.defaultTimeout with
    | none => exact .null
    | some d => exact d.writable_toJson
  apply writable_ofMembers
  intro m hm
  have hvalue := (List.of_mem_zip hm).2
  simp only [flags, List.mem_append, List.mem_map, List.mem_singleton] at hvalue
  rcases hvalue with ⟨b, -, hb⟩ | ht
  · exact hb ▸ .bool b
  · exact ht ▸ htimeout

end Demarcation.ManagerConfig
