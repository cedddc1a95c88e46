/-
  ArgusManager.Pipeline
  ─────────────────────
  The policy interface and the directive deduplicator (`src/pipeline.rs`).

  A policy is any state machine behind the `PolicyStrategy` trait; `ω` is what
  the world outside answers to one of its calls (for a scripted policy, how
  the VM call and the script load turn out).  Times are seconds, exact.
-/
import ArgusManager.Shared
import ArgusManager.Signal
import Mathlib.Algebra.Order.Field.Rat
import Mathlib.Tactic.Linarith

namespace ArgusManager

/-! ## §1. The policy interface. -/

/-- `types::OperatingMode`, for logging and monitoring. -/
inductive OperatingMode where
  | normal
  | warning
  | critical
  deriving Repr, DecidableEq

/-- A path, as far as `to_str` can tell. -/
inductive Path where
  | utf8 (s : String)
  | nonUtf8 (bytes : List UInt8)
  deriving Repr, DecidableEq

def Path.toStr : Path → Option String
  | .utf8 s => some s
  | .nonUtf8 _ => none

/-- `trait ReloadablePolicy`. -/
structure ReloadablePolicy (σ ω : Type) where
  reloadScript : ω → Path → σ → σ × Except String Unit
  scriptPath : σ → Option Path

/-- `trait PolicyStrategy`, as far as the manager's main loop drives it. -/
structure PolicyStrategy (σ ω : Type) where
  processSignal : ω → SystemSignal → σ → σ × Option EngineDirective
  updateEngineState : EngineMessage → σ → σ
  cancelLastObservation : σ → σ
  asReloadable : Option (ReloadablePolicy σ ω)

/-! ## §2. The deduplicator. -/

/-- The last emitted batch and when it was emitted. -/
structure DirectiveDeduplicator where
  lastCommands : Option (List EngineCommand)
  lastSentAt : Option ℚ
  cooldownSecs : ℚ
  deriving Repr

namespace DirectiveDeduplicator

def withCooldown (cooldownSecs : ℚ) : DirectiveDeduplicator where
  lastCommands := none
  lastSentAt := none
  cooldownSecs := cooldownSecs

/-- `DirectiveDeduplicator::new`: a cooldown of 60 s. -/
def new : DirectiveDeduplicator := withCooldown 60

/-- The commands are those of the last emitted batch. -/
def isDup (d : DirectiveDeduplicator) (directive : EngineDirective) : Bool :=
  match d.lastCommands with
  | none => false
  | some last => last == directive.commands

def cooldownElapsed (d : DirectiveDeduplicator) (nowSecs : ℚ) : Bool :=
  match d.lastSentAt with
  | none => false
  | some t => decide (nowSecs - t ≥ d.cooldownSecs)

/-- `some directive` to emit it, `none` to suppress it. -/
def process (d : DirectiveDeduplicator) (directive : EngineDirective)
    (nowSecs : ℚ) : DirectiveDeduplicator × Option EngineDirective :=
  if d.isDup directive && !d.cooldownElapsed nowSecs then (d, none)
  else
    ({ d with
        lastCommands := some directive.commands
        lastSentAt := some nowSecs }, some directive)

/-- **Everything one input can do.** -/
theorem process_cases (d : DirectiveDeduplicator) (directive : EngineDirective)
    (now : ℚ) :
    (d.process directive now = (d, none)
        ∧ ∃ last, d.lastCommands = some last
          ∧ (last == directive.commands) = true
          ∧ ∀ t, d.lastSentAt = some t → now - t < d.cooldownSecs)
    ∨ (d.process directive now
          = (⟨some directive.commands, some now, d.cooldownSecs⟩,
              some directive)
        ∧ ∀ last, d.lastCommands = some last →
            (last == directive.commands) = true →
            ∃ t, d.lastSentAt = some t ∧ d.cooldownSecs ≤ now - t) := by
  unfold process
  split
  next h =>
    -- a duplicate inside the cooldown
    left
    simp only [Bool.and_eq_true, Bool.not_eq_true'] at h
    obtain ⟨hdup, hcool⟩ := h
    refine ⟨rfl, ?_⟩
    cases hlast : d.lastCommands with
    | none =>
        simp only [isDup, hlast] at hdup
        exact absurd hdup (by simp)
    | some last =>
        simp only [isDup, hlast] at hdup
        refine ⟨last, rfl, hdup, ?_⟩
        intro t ht
        simpa [cooldownElapsed, ht] using hcool
  next h =>
    right
    refine ⟨rfl, ?_⟩
    intro last hlast heq
    have hdup : d.isDup directive = true := by
      simp only [isDup, hlast]
      exact heq
    rw [hdup, Bool.true_and, Bool.not_eq_true', Bool.not_eq_false] at h
    cases ht : d.lastSentAt with
    | none =>
        simp only [cooldownElapsed, ht] at h
        exact absurd h (by simp)
    | some t =>
        simp only [cooldownElapsed, ht, decide_eq_true_eq] at h
        exact ⟨t, rfl, h⟩

end DirectiveDeduplicator

end ArgusManager
