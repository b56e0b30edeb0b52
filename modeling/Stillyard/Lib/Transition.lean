import Mathlib.Logic.Relation
import Mathlib.Tactic.Common

/-!
# Transition systems and their invariants

A run is a finite sequence of steps, so runs are the reflexive transitive
closure of the step relation.  The two rules here package the induction that
every safety result of a development uses: an invariant that holds initially
and is kept by each step holds in every reachable state.  The second rule is the
same for properties that relate a state to every state reached from it later.
-/

namespace Transition

universe u

variable {σ : Type u} {step : σ → σ → Prop}
variable {init : σ → Prop} {state later : σ}

/-- A state reached from an initial one by finitely many steps. -/
def Reachable (init : σ → Prop) (step : σ → σ → Prop) (state : σ) : Prop :=
  ∃ start, init start ∧ Relation.ReflTransGen step start state

theorem Reachable.start (initial : init state) : Reachable init step state :=
  ⟨state, initial, Relation.ReflTransGen.refl⟩

theorem Reachable.next {next : σ} (reached : Reachable init step state) (moves : step state next) :
    Reachable init step next := by
  obtain ⟨start, initial, run⟩ := reached
  exact ⟨start, initial, run.tail moves⟩

theorem Reachable.trans (reached : Reachable init step state)
    (run : Relation.ReflTransGen step state later) : Reachable init step later := by
  obtain ⟨start, initial, before⟩ := reached
  exact ⟨start, initial, before.trans run⟩

/-- What holds initially and survives every step holds in every reachable
state. -/
theorem Reachable.invariant {holds : σ → Prop} (initially : ∀ state, init state → holds state)
    (preserved : ∀ state next, holds state → step state next → holds next)
    (reached : Reachable init step state) : holds state := by
  obtain ⟨start, initial, run⟩ := reached
  induction run with
  | refl => exact initially start initial
  | tail _ moves ih => exact preserved _ _ ih moves

/-- A script whose events are steps is a run. -/
theorem steps_of_script {ι : Type*} {play : σ → ι → Option σ} {script : List ι}
    (ran : script.foldlM play state = some final)
    (steps : ∀ {state event next}, play state event = some next → step state next) :
    Relation.ReflTransGen step state final := by
  induction script generalizing state with
  | nil =>
    cases ran
    exact .refl
  | cons event rest ih =>
    rcases Option.bind_eq_some_iff.mp ran with ⟨middle, played, others⟩
    exact .head (steps played) (ih others)

/-- A relation that is reflexive, and extends along one step, spans whole
runs. -/
theorem run_relates {related : σ → σ → Prop} (reflexive : ∀ state, related state state)
    (extends_ : ∀ {state middle next}, related state middle → step middle next →
      related state next) (run : Relation.ReflTransGen step state later) : related state later := by
  induction run with
  | refl => exact reflexive state
  | tail _ moves ih => exact extends_ ih moves

end Transition
