import Stillyard.Manager.Running
import Stillyard.Store.Backing
import Stillyard.System.Joint

/-!
# Local Grants are backed

Whatever a manager believes to be running has a Grant at the coordinator that was
armed and that no transaction forgets.
-/

namespace Stillyard

open Relational

/-- Local Grants that may run, and shown ones, are backed by the coordinator. -/
structure System.Backing (system : System) : Prop where
  displays : Displays system.coordinator.store
  replies : ∀ entry ∈ system.replies, Displayed system.coordinator.store.grants entry.2.outcome
  journals : ∀ domain, (system.managers domain).Running
  inventory : ∀ domain key grant, (system.managers domain).inventory.get? key = some grant →
    grant.state.mayRun = true → Backed system.coordinator.store.grants key
  grants : ∀ domain key row, (system.managers domain).grants.get? key = some row →
    row.grant.state.mayRun = true → Backed system.coordinator.store.grants key

theorem System.Backing.initial (config : CoordinatorConfig)
    (storeUuid : ExecutionDomainId → Uuid) : (System.initial config storeUuid).Backing where
  displays _ _ found := (nomatch found)
  replies _ member := nomatch member
  journals _ := .start _
  inventory _ _ _ found := (nomatch found)
  grants _ _ _ found := (nomatch found)

section Backing

variable {system : System}

/-- A journal stays as it is, connects, or makes a transaction of its own. -/
theorem SystemStep.journals (step : SystemStep config system next) (domain : ExecutionDomainId) :
    next.managers domain = system.managers domain ∨
      (∃ session participant, (system.managers domain).connect config.encoding session participant =
        .ok (next.managers domain)) ∨
      Manager.Step config.encoding (fun request reply => (request, reply) ∈ system.replies)
        (system.managers domain) (next.managers domain) := by
  cases step with
  | coordinator | reply | welcome | send => exact .inl rfl
  | @connect session participant other _ manager heard own done =>
    by_cases same : domain = other
    · subst same
      exact .inr (.inl ⟨session, participant, by simpa only [Function.update_self] using done⟩)
    · exact .inl (Function.update_of_ne same _ _)
  | @manager manager _ other one =>
    by_cases same : domain = other
    · subst same
      exact .inr (.inr (by simpa only [Function.update_self] using one))
    · exact .inl (Function.update_of_ne same _ _)

/-- The replies tell a manager of backed Grants only. -/
theorem System.Backing.follows (backing : system.Backing) (step : SystemStep config system next)
    (domain : ExecutionDomainId) :
    Manager.Follows
      (fun grant => grant.state.mayRun = true →
        Backed system.coordinator.store.grants grant.candidate.key)
      (fun _ => True) (system.managers domain) (next.managers domain) := by
  have running := backing.journals domain
  have known : ∀ key grant, (system.managers domain).inventory.get? key = some grant →
      grant.state.mayRun = true → Backed system.coordinator.store.grants grant.candidate.key := by
    intro key grant found runs
    rw [(running.inventory key grant found).1]
    exact backing.inventory domain key grant found runs
  obtain same | ⟨session, participant, done⟩ | one := step.journals domain
  · rw [same]
    exact (Manager.Still.refl _).follows running known
  · exact Manager.connect_follows running done
  · have follows := one.follows running fun request reply heard =>
      (backing.replies (request, reply) heard).runs
    have backed : ∀ grant, Manager.Heard (fun request reply => (request, reply) ∈ system.replies)
        (system.managers domain) grant → grant.state.mayRun = true →
          Backed system.coordinator.store.grants grant.candidate.key := by
      rintro grant (⟨request, reply, heard, shown⟩ | ⟨key, found⟩) runs
      · exact (backing.replies (request, reply) heard).backed grant shown runs
      · exact known key grant found runs
    exact ⟨follows.grants.mono backed fun _ => id,
      fun key grant found => (follows.inventory key grant found).imp id (backed grant)⟩

theorem System.Backing.step (sound : System.Sound config system) (backing : system.Backing)
    (step : SystemStep config system next) : next.Backing := by
  obtain ⟨commits, run, _, _⟩ := step.coordinatorRun sound
  have keyed := sound.store.keyed
  have displays := run.displays keyed backing.displays
  have kept : ∀ key, Backed system.coordinator.store.grants key →
      Backed next.coordinator.store.grants key := fun _ backed => run.backed keyed backed
  constructor
  · exact displays
  · intro entry member
    obtain before | answers := step.replies sound entry member
    · exact (backing.replies entry before).mono kept fun _ gone => run.gone keyed gone
    · exact displays _ _ answers.recorded
  · exact fun domain => (backing.follows step domain).running
  · intro domain key grant found runs
    obtain ⟨⟨own, _⟩, backed⟩ := (backing.follows step domain).inventory key grant found
    exact kept key (own ▸ backed runs)
  · intro domain key row found runs
    obtain ⟨old, foundOld, before⟩ | ⟨grant, backed, own, shown⟩ :=
      (backing.follows step domain).grants.running key row found runs
    · exact kept key (backing.grants domain key old foundOld before)
    · exact kept key (own ▸ backed shown)

theorem System.Reached.backing (reached : system.Reached config storeUuid) : system.Backing := by
  obtain ⟨start, rfl, run⟩ := reached
  induction run with
  | refl => exact .initial config storeUuid
  | tail run step backing => exact backing.step (System.Reached.sound ⟨_, rfl, run⟩) step

end Backing

end Stillyard
