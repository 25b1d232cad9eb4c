/-
Logged backends. A backend that writes down every operation that it is asked for, with the answer, shows what a
manager asks for natively, and in which order.
-/
import Demarcation.Proofs.Manager.Mirror

namespace Demarcation

open Session Manager

variable {σ ρ ς α : Type}

/-- An operation that a backend was asked for, with the answer. -/
inductive Exchange (ρ ς : Type)
  | begin (d : Definition) (answer : Except Failure ρ)
  | suspend (r : ρ) (answer : Except Failure Unit)
  | resume (r : ρ) (answer : Except Failure Unit)
  | commit (r : ρ) (answer : Except Failure Unit)
  | rollback (r : ρ) (answer : Except Failure Unit)
  | cleanup (r : ρ) (answer : Except Failure Unit)
  | createSavepoint (r : ρ) (answer : Except Failure ς)
  | rollbackToSavepoint (r : ρ) (sp : ς) (answer : Except Failure Unit)
  | releaseSavepoint (r : ρ) (sp : ς) (answer : Except Failure Unit)

/-- A native state, and what was asked for so far. -/
structure Logged (σ ρ ς : Type) where
  state : σ
  log : List (Exchange ρ ς) := []

namespace Logged

/-- Runs an operation and writes it down. -/
def note (q : Except Failure α → Exchange ρ ς) (op : Native σ α) : Native (Logged σ ρ ς) α := fun t =>
  ((op t.state).1, { state := (op t.state).2, log := t.log ++ [q (op t.state).1] })

theorem log_of_note {q : Except Failure α → Exchange ρ ς} {op : Native σ α} {t t' : Logged σ ρ ς}
    {a : Except Failure α} (hnote : note q op t = (a, t')) : t'.log = t.log ++ [q a] := by
  obtain ⟨rfl, rfl⟩ := Prod.mk.inj hnote
  rfl

end Logged

/-- The backend with what it is asked for written down. -/
def Backend.logged (b : Backend σ ρ ς) : Backend (Logged σ ρ ς) ρ ς where
  key := b.key
  kind := b.kind
  capabilities := b.capabilities
  start d := Logged.note (.begin d) (b.start d)
  suspend r := Logged.note (.suspend r) (b.suspend r)
  resume r := Logged.note (.resume r) (b.resume r)
  commit r := Logged.note (.commit r) (b.commit r)
  rollback r := Logged.note (.rollback r) (b.rollback r)
  cleanup r := Logged.note (.cleanup r) (b.cleanup r)
  createSavepoint r := Logged.note (.createSavepoint r) (b.createSavepoint r)
  rollbackToSavepoint r sp := Logged.note (.rollbackToSavepoint r sp) (b.rollbackToSavepoint r sp)
  releaseSavepoint r sp := Logged.note (.releaseSavepoint r sp) (b.releaseSavepoint r sp)

/-- The manager with what its backend is asked for written down. -/
def Manager.logged (m : Manager σ ρ ς) : Manager (Logged σ ρ ς) ρ ς :=
  { backend := m.backend.logged, config := m.config }

/-- What is there without the log. -/
def unlogged : NativeView (Logged σ ρ ς) σ ρ ρ := ⟨Logged.state, id⟩

/-- Writing down what is asked for changes nothing else. -/
theorem logged_mirrored (m : Manager σ ρ ς) : m.logged.Mirrored unlogged m := by
  have hnote : ∀ {δ : Type} (q : Except Failure δ → Exchange ρ ς) (op : Native σ δ),
      Native.Mirrored Logged.state (Logged.note q op) op := fun _ _ _ => rfl
  refine ⟨⟨rfl, rfl, rfl, fun d t => ?_, fun r => hnote _ _, fun r => hnote _ _, fun r => hnote _ _,
    fun r => hnote _ _, fun r => hnote _ _, fun r => hnote _ _, fun r sp => hnote _ _, fun r sp => hnote _ _⟩, rfl⟩
  show m.backend.start d t.state = ((m.backend.start d t.state).1.map id, (m.backend.start d t.state).2)
  rcases m.backend.start d t.state with ⟨_ | _, _⟩ <;> rfl

/-- The session with nothing asked for yet. -/
def Session.logging (s : Session σ ρ ς) : Session (Logged σ ρ ς) ρ ς := { s with native := { state := s.native } }

theorem logging_seen (s : Session σ ρ ς) : s.logging.seen unlogged = s := by
  have hholders : s.holders.map (Holder.seen (unlogged : NativeView (Logged σ ρ ς) σ ρ ρ)) = s.holders :=
    Array.map_id' s.holders
  unfold Session.logging Session.seen
  dsimp only
  rw [hholders]
  rfl

end Demarcation
