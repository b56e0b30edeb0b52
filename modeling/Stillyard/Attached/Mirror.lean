import Stillyard.Attached.Pressure
import Stillyard.System.Backing

/-!
# Leases mirror Grants

A Lease of an attached store stands for a Grant of the coordinator.  It is
inserted for a plan whose Grant is armed, and it is released in the transaction
that applies the coordinator's confirmation.  In between the local record of the
Grant may run, and the coordinator still has the Grant.
-/

namespace Stillyard

open Relational Fallible

namespace AttachedStore

/-- The Leases, the plans and the local Grants of a store agree. -/
structure Bound (domain : ExecutionDomainId) (store : AttachedStore) : Prop where
  home : ∀ lease plan, store.plans.get? lease = some plan →
    plan.candidate.key.leaseId = lease ∧ plan.candidate.key.domainId = domain
  leased : ∀ id row, store.native.leases.get? id = some row → row.state = .granted →
    ∃ plan, store.plans.get? id = some plan ∧ plan.attemptId = row.attemptId ∧
      plan.claims = row.claims ∧ plan.armed = true ∧ plan.committed = true ∧ plan.released = false
  sealed : ∀ lease plan, store.plans.get? lease = some plan →
    (Manager.sealAt store.manager.grants plan.candidate.key).isSome = true →
      plan.releasePending = true
  armed : ∀ lease plan, store.plans.get? lease = some plan → plan.armed = true →
    ∃ row, store.manager.grants.get? plan.candidate.key = some row ∧ row.grant.state.held = true
  settled : ∀ lease plan row, store.plans.get? lease = some plan →
    store.manager.grants.get? plan.candidate.key = some row → row.grant.state = .released →
      store.Unheld lease

/-- What the protocol guarantees to a store. -/
structure Informed (domain : ExecutionDomainId) (replied : Request → Reply → Prop)
    (store : AttachedStore) : Prop where
  running : store.manager.Running
  isLocal : store.manager.Local domain
  coupled : store.Coupled
  runs : ∀ request reply, replied request reply →
    ∀ grant, reply.outcome = .grant grant → grant.state.mayRun = true
  reconciled : ∀ request reply, replied request reply →
    ∀ sequence released, reply.outcome = .reconciled sequence released →
      ∀ key ∈ released, key.domainId = domain →
        (Manager.sealAt store.manager.grants key).isSome = true

section Bound

variable {encoding : Encoding} {replied : Request → Reply → Prop} {domain : ExecutionDomainId}
  {store middle next : AttachedStore}
variable {key : AllocationKey} {id : Uuid} {row : LeaseRow} {affected : Uuid → LeaseRow → Bool}
variable {request : Request} {reply : Reply} {manager : Manager} {session : SessionIdentity}
variable {participant : ParticipantSnapshot}

theorem Bound.install (storeUuid : Uuid) {native : NativeStore}
    (released : ∀ id row, native.leases.get? id = some row → row.state = .released) :
    (install storeUuid native).Bound domain where
  home _ _ found := (nomatch found)
  leased id row found granted := absurd (granted.symm.trans (released id row found)) nofun
  sealed _ _ found := (nomatch found)
  armed _ _ found := (nomatch found)
  settled _ _ _ found := (nomatch found)

/-- The plan of an allocation is unique. -/
theorem Bound.unique (bound : store.Bound domain) (foundLeft : store.plans.get? left = some first)
    (foundRight : store.plans.get? right = some second)
    (same : first.candidate.key = second.candidate.key) : first = second := by
  have lease : left = right := by
    rw [← (bound.home left first foundLeft).1, ← (bound.home right second foundRight).1, same]
  subst lease
  exact Option.some.inj (foundLeft.symm.trans foundRight)

/-- A plan keeps what it binds, and its flags are only raised. -/
structure Raises (old new : PlanRow) : Prop where
  candidate : new.candidate = old.candidate
  attemptId : new.attemptId = old.attemptId
  claims : new.claims = old.claims
  armed : new.armed = old.armed
  committed : old.committed = true → new.committed = true
  releasePending : old.releasePending = true → new.releasePending = true
  released : new.released = old.released

theorem Raises.refl (plan : PlanRow) : Raises plan plan := ⟨rfl, rfl, rfl, rfl, id, id, rfl⟩

/-- Leases keep what they hold, and none is granted anew. -/
def Retains (before after : Table Uuid LeaseRow) : Prop :=
  ∀ id row, after.get? id = some row → ∃ old, before.get? id = some old ∧
    old.attemptId = row.attemptId ∧ old.claims = row.claims ∧
      (row.state = .granted → old.state = .granted)

theorem Retains.refl (leases : Table Uuid LeaseRow) : Retains leases leases :=
  fun _ row found => ⟨row, found, rfl, rfl, id⟩

theorem Unheld.retained (unheld : store.Unheld lease)
    (leases : Retains store.native.leases next.native.leases) : next.Unheld lease := by
  intro row found
  obtain ⟨old, foundOld, _, _, granted⟩ := leases lease row found
  cases state : row.state with
  | released => rfl
  | granted => cases (granted state).symm.trans (unheld old foundOld)

section Keeping

variable (bound : store.Bound domain)
variable {operation : Uuid}

include bound

/-- Raised flags and released Leases. -/
theorem Bound.raise (plans : Table.Evolves (fun _ => Raises) store.plans next.plans)
    (leases : Retains store.native.leases next.native.leases)
    (grants : next.manager.grants = store.manager.grants) : next.Bound domain := by
  constructor
  · intro lease plan found
    obtain ⟨old, foundOld, raises⟩ := plans.origin found
    rw [raises.candidate]
    exact bound.home lease old foundOld
  · intro id row found granted
    obtain ⟨old, foundOld, sameAttempt, sameClaims, before⟩ := leases id row found
    obtain ⟨plan, foundPlan, attempt, claims, armed, committed, live⟩ :=
      bound.leased id old foundOld (before granted)
    obtain ⟨new, foundNew, raises⟩ := plans.lookup foundPlan
    refine ⟨new, foundNew, ?_, ?_, ?_, raises.committed committed, ?_⟩
    · rw [raises.attemptId, attempt, sameAttempt]
    · rw [raises.claims, claims, sameClaims]
    · rw [raises.armed, armed]
    · rw [raises.released, live]
  · intro lease plan found sealed
    obtain ⟨old, foundOld, raises⟩ := plans.origin found
    rw [raises.candidate, grants] at sealed
    exact raises.releasePending (bound.sealed lease old foundOld sealed)
  · intro lease plan found armed
    obtain ⟨old, foundOld, raises⟩ := plans.origin found
    rw [raises.armed] at armed
    rw [raises.candidate, grants]
    exact bound.armed lease old foundOld armed
  · intro lease plan row found stored released
    obtain ⟨old, foundOld, raises⟩ := plans.origin found
    rw [raises.candidate, grants] at stored
    exact (bound.settled lease old row foundOld stored released).retained leases

/-- The same plans, Leases and local Grants. -/
theorem Bound.same (plans : next.plans = store.plans)
    (leases : next.native.leases = store.native.leases)
    (grants : next.manager.grants = store.manager.grants) : next.Bound domain := by
  apply bound.raise _ _ grants
  · rw [plans]
    exact .refl (fun _ => Raises.refl) _
  · rw [leases]
    exact .refl _

/-- Flags of plans are raised. -/
theorem Bound.flags (plans : Table.Evolves (fun _ => Raises) store.plans next.plans)
    (native : next.native = store.native) (manager : next.manager = store.manager) :
    next.Bound domain := by
  apply bound.raise plans
  · rw [native]
    exact .refl _
  · rw [manager]

theorem Bound.quiet (quiet : Quiet encoding replied store next) : next.Bound domain :=
  bound.same quiet.plans (by rw [quiet.native]) quiet.still.grants

/-- Sealing an allocation whose release was asked for. -/
theorem Bound.seals
    (asked : ∀ lease plan, store.plans.get? lease = some plan → plan.candidate.key = key →
      plan.releasePending = true) (done : store.sealRelease encoding operation key = .ok next) :
    next.Bound domain := by
  obtain ⟨manager, sequence, sealing, rfl⟩ := sealRelease_eq_ok done
  have seals := Manager.sealRelease_sealsOnly sealing
  have before : ∀ {other row}, manager.grants.get? other = some row →
      ∃ old, store.manager.grants.get? other = some old ∧ old.grant = row.grant := by
    intro other row found
    have same := seals.grants other
    rw [found, Option.map_some] at same
    exact Option.map_eq_some_iff.mp same.symm
  constructor
  · exact bound.home
  · exact bound.leased
  · intro lease plan found sealed
    by_cases same : plan.candidate.key = key
    · exact asked lease plan found same
    · rw [seals.seals _ same] at sealed
      exact bound.sealed lease plan found sealed
  · intro lease plan found armed
    obtain ⟨old, stored, held⟩ := bound.armed lease plan found armed
    have same := seals.grants plan.candidate.key
    rw [stored, Option.map_some] at same
    obtain ⟨row, foundRow, sameGrant⟩ := Option.map_eq_some_iff.mp same
    exact ⟨row, foundRow, sameGrant ▸ held⟩
  · intro lease plan row found stored released
    obtain ⟨old, foundOld, same⟩ := before stored
    exact bound.settled lease plan old found foundOld (same ▸ released)

theorem Bound.maintains (maintains : Maintains encoding replied operation store next) :
    next.Bound domain := by
  cases maintains with
  | quiet quiet => exact bound.quiet quiet
  | @ready key _ settled _ quiet found sealed =>
    have bound := bound.quiet quiet
    apply bound.seals _ sealed
    obtain ⟨⟨lease, plan⟩, present, rfl⟩ := Option.map_eq_some_iff.mp found
    have checked := List.find?_some present
    simp only [Bool.and_eq_true] at checked
    intro other second foundOther same
    have stored := Table.mem_rows.mp (List.mem_of_find?_eq_some present)
    rw [bound.unique foundOther stored same]
    exact checked.1.1.1
  | @stale key _ settled _ quiet sealed =>
    have bound := bound.quiet quiet
    have abandoned : (settled.abandon key).Bound domain := by
      apply bound.flags
      · apply Table.evolves_modify
        intro lease plan _
        split
        · exact ⟨rfl, rfl, rfl, rfl, id, fun _ => rfl, rfl⟩
        · exact .refl plan
      · rfl
      · rfl
    apply abandoned.seals _ sealed
    intro lease plan found same
    rw [abandon, get?_updatePlans] at found
    obtain ⟨old, _, rfl⟩ := Option.map_eq_some_iff.mp found
    split at same <;> simp_all

theorem Bound.prepares {fresh : PlannedIds} {request : PlanRequest}
    (informed : Informed domain replied store) (unused : store.Unused fresh operation)
    (prepares : Prepares encoding fresh operation request store next) : next.Bound domain := by
  cases prepares with
  | idle => exact bound
  | @reuse lease plan _ liveness found =>
    apply bound.flags
    · apply Table.evolves_modify
      intro other row _
      split
      · exact ⟨rfl, rfl, rfl, rfl, fun _ => rfl, id, rfl⟩
      · exact .refl row
    · rfl
    · rfl
  | @create session configuration sequence _ liveness plans manager opened inserted queued =>
    obtain ⟨absent, rfl⟩ := Table.insert?_eq_some.mp inserted
    have grants := (Manager.enqueue_still rfl queued).grants
    have missing : ∀ {key : AllocationKey}, key.leaseId = fresh.lease →
        store.manager.grants.get? key = none := by
      intro key named
      rw [Table.get?_eq_none]
      exact fun present => unused.grant key present named
    have split : ∀ {lease plan}, (store.plans.set fresh.lease (store.newPlan request fresh
        (candidateFor session configuration request fresh))).get? lease = some plan →
        store.plans.get? lease = some plan ∨ lease = fresh.lease ∧
          plan = store.newPlan request fresh
            (candidateFor session configuration request fresh) := by
      intro lease plan found
      rw [Table.get?_set] at found
      split at found
      next same => exact .inr ⟨same, (Option.some.inj found).symm⟩
      next => exact .inl found
    constructor
    · intro lease plan found
      obtain before | ⟨rfl, rfl⟩ := split found
      · exact bound.home lease plan before
      · exact ⟨rfl, informed.isLocal.session session (informed.coupled.session ▸ opened)⟩
    · intro id row found granted
      obtain ⟨plan, foundPlan, facts⟩ := bound.leased id row found granted
      refine ⟨plan, ?_, facts⟩
      rw [Table.get?_set, if_neg _, foundPlan]
      rintro rfl
      rw [absent] at foundPlan
      cases foundPlan
    · intro lease plan found sealed
      rw [grants] at sealed
      obtain before | ⟨rfl, rfl⟩ := split found
      · exact bound.sealed lease plan before sealed
      · rw [Manager.sealAt, missing rfl] at sealed
        cases sealed
    · intro lease plan found armed
      rw [grants]
      obtain before | ⟨rfl, rfl⟩ := split found
      · exact bound.armed lease plan before armed
      · cases armed
    · intro lease plan row found stored released
      rw [grants] at stored
      obtain before | ⟨rfl, rfl⟩ := split found
      · exact bound.settled lease plan row before stored released
      · rw [missing rfl] at stored
        cases stored

end Keeping

/-- The plan that a Lease is inserted for. -/
structure BacksLease (row : LeaseRow) (plan : PlanRow) : Prop where
  attemptId : plan.attemptId = row.attemptId
  claims : plan.claims = row.claims
  armed : plan.armed = true
  committed : plan.committed = true
  releasePending : plan.releasePending = false
  released : plan.released = false

/-- A Lease is inserted while the store is connected. -/
structure InsertsLease (store : AttachedStore) (id : Uuid) (row : LeaseRow) : Prop where
  connected : store.mode.connected = true
  plan : ∃ plan, store.plans.get? id = some plan ∧ BacksLease row plan

theorem insertLease_eq_ok (done : store.insertLease id row = .ok next) :
    InsertsLease store id row ∧ store.native.leases.get? id = none ∧
      ∃ native, native.leases = store.native.leases.set id row ∧ next = { store with native } := by
  simp only [AttachedStore.insertLease, NativeStore.insertLease, ok_iff] at done
  obtain ⟨_, backed, _, ⟨leases, inserted, rfl⟩, rfl⟩ := done
  simp only [backsLease, Bool.and_eq_true, Option.any_eq_true, decide_eq_true_eq,
    Bool.not_eq_true'] at backed
  obtain ⟨connected, plan, found,
    ⟨⟨⟨⟨⟨attempt, claims⟩, armed⟩, committed⟩, pending⟩, released⟩, _⟩ := backed
  obtain ⟨absent, rfl⟩ := Table.insert?_eq_some.mp inserted
  exact ⟨⟨connected, plan, found, attempt, claims, armed, committed, pending, released⟩, absent, _,
    rfl, rfl⟩

theorem Bound.inserts (bound : store.Bound domain) (informed : Informed domain replied store)
    (done : store.insertLease id row = .ok next) : next.Bound domain := by
  obtain ⟨backed, _, native, inserted, rfl⟩ := insertLease_eq_ok done
  obtain ⟨plan, foundPlan, backing⟩ := backed.plan
  have split : ∀ {other lease}, native.leases.get? other = some lease →
      store.native.leases.get? other = some lease ∨ other = id ∧ lease = row := by
    intro other lease found
    rw [inserted, Table.get?_set] at found
    split at found
    next same => exact .inr ⟨same, (Option.some.inj found).symm⟩
    next => exact .inl found
  refine ⟨bound.home, ?_, bound.sealed, bound.armed, ?_⟩
  · intro other lease found granted
    obtain before | ⟨rfl, rfl⟩ := split found
    · exact bound.leased other lease before granted
    · exact ⟨plan, foundPlan, backing.attemptId, backing.claims, backing.armed, backing.committed,
        backing.released⟩
  · intro lease other local_ found stored released held lookup
    obtain before | ⟨rfl, rfl⟩ := split lookup
    · exact bound.settled lease other local_ found stored released held before
    · -- A released local Grant is sealed, so the release of its plan was asked for.
      obtain rfl := Option.some.inj (foundPlan.symm.trans found)
      have sealed : (Manager.sealAt store.manager.grants plan.candidate.key).isSome = true := by
        rw [Manager.sealAt, stored]
        exact informed.running.settled _ local_ stored released
      have pending := bound.sealed _ plan found sealed
      rw [backing.releasePending] at pending
      cases pending

theorem Releases.retains (releases : Releases affected store next) :
    Retains store.native.leases next.native.leases := by
  intro id row found
  rw [releases.leases] at found
  obtain ⟨old, foundOld, rfl⟩ := Option.map_eq_some_iff.mp found
  refine ⟨old, foundOld, ?_⟩
  unfold releaseRow
  split
  next hit =>
    rw [Bool.and_eq_true, decide_eq_true_eq] at hit
    split <;> simp [hit.1]
  next => exact ⟨rfl, rfl, fun granted => granted⟩

theorem Bound.releases (bound : store.Bound domain) (releases : Releases affected store next) :
    next.Bound domain := by
  apply bound.raise
  · intro lease
    rw [releases.plans]
    cases store.plans.get? lease with
    | none => exact .none
    | some plan =>
      rw [Option.map_some]
      split
      · exact .some ⟨rfl, rfl, rfl, rfl, id, fun _ => rfl, rfl⟩
      · exact .some (.refl plan)
  · exact releases.retains
  · rw [releases.manager]

/-- A reply that covers an allocation of the domain finds it sealed. -/
theorem Informed.sealed_of_covers (informed : Informed domain replied store)
    (heard : replied request reply)
    (journal : store.manager.accept encoding request reply = .ok (manager, true))
    (covers : Covers request reply.outcome manager key) (home : key.domainId = domain) :
    (Manager.sealAt store.manager.grants key).isSome = true := by
  have follows := (Manager.accept_follows informed.running (informed.runs request reply heard)
    journal).grants
  obtain ⟨impossible, _⟩ | ⟨_, applies⟩ := Manager.accept_eq_ok journal
  · cases impossible
  obtain ⟨accepted, outcome, rfl⟩ := applies.applied
  obtain ⟨release, grantId, sequence, asked, rfl, same⟩ | ⟨sequence, released, same, member⟩ |
    ⟨_, row, member, rfl, released⟩ := covers
  · rw [same] at outcome
    obtain ⟨carried, row, command, found, sealed, _⟩ := Manager.acceptReleased_eq_ok outcome
    obtain rfl := Command.release.inj (asked.symm.trans command)
    rw [Manager.sealAt, found, Option.bind_some, sealed]
    rfl
  · exact informed.reconciled request reply heard sequence released same key member home
  · obtain ⟨stored, found⟩ := Table.mem_values.mp member
    have named := follows.keyed stored row found
    have kept := (Manager.acceptOutcome_eq_ok outcome).written.kept informed.isLocal
      (informed.isLocal.session _ applies.session)
    rw [← kept.seals, Manager.sealAt, named, show accepted.grants.get? stored = some row from found]
    exact follows.settled stored row found released

/-- A local Grant that a reply arms a plan for may run. -/
theorem held_of_arms (keyed : Manager.LocalKeyed manager.grants)
    (journal : store.manager.accept encoding request reply = .ok (manager, true))
    (arms : Arms reply.outcome manager candidate) :
    ∃ row, manager.grants.get? candidate.key = some row ∧ row.grant.state.held = true := by
  obtain ⟨grant, same, armed, rfl⟩ | ⟨_, row, member, named, runs⟩ := arms
  · obtain ⟨impossible, _⟩ | ⟨_, applies⟩ := Manager.accept_eq_ok journal
    · cases impossible
    obtain ⟨accepted, outcome, rfl⟩ := applies.applied
    rw [same] at outcome
    obtain ⟨_, _, rfl⟩ := Manager.acceptGrant_eq_ok outcome
    refine ⟨⟨grant, (store.manager.grants.get? grant.candidate.key).bind LocalGrant.sealedRelease⟩,
      ?_, by rw [armed]; rfl⟩
    simp [Manager.recordAnswer, Manager.storeGrant]
  · obtain ⟨stored, found⟩ := Table.mem_values.mp member
    rw [keyed stored row found] at named
    exact ⟨row, named ▸ found, GrantState.held_of_mayRun runs⟩

theorem Bound.accepts (bound : store.Bound domain) (informed : Informed domain replied store)
    (heard : replied request reply)
    (accepts : Accepts encoding replied request reply store next manager accepted) :
    next.Bound domain := by
  have follows := (Manager.accept_follows informed.running (informed.runs request reply heard)
    accepts.journal).grants
  have hears := accepts.follows
  have grants : accepted.manager.grants = manager.grants := hears.still.grants
  have seals : ∀ key,
      Manager.sealAt manager.grants key = Manager.sealAt store.manager.grants key := by
    obtain ⟨impossible, _⟩ | ⟨_, applies⟩ := Manager.accept_eq_ok accepts.journal
    · cases impossible
    obtain ⟨middle, outcome, rfl⟩ := applies.applied
    exact ((Manager.acceptOutcome_eq_ok outcome).written.kept informed.isLocal
      (informed.isLocal.session _ applies.session)).seals
  suffices accepted.Bound domain by
    rw [accepts.next]
    exact this.same rfl rfl rfl
  constructor
  · intro lease plan found
    obtain ⟨old, foundOld, step⟩ := hears.plans.origin found
    rw [step.candidate]
    exact bound.home lease old foundOld
  · intro id row found granted
    obtain ⟨old, foundOld, leaseStep⟩ := hears.leases.origin found
    obtain same | ⟨_, released, _⟩ := leaseStep.state
    · rw [same] at granted
      obtain ⟨plan, foundPlan, attempt, claims, armed, committed, live⟩ :=
        bound.leased id old foundOld granted
      obtain ⟨new, foundNew, step⟩ := hears.plans.lookup foundPlan
      refine ⟨new, foundNew, ?_, ?_, step.stays armed, step.committed.trans committed, ?_⟩
      · rw [step.attemptId, attempt, leaseStep.attemptId]
      · rw [step.claims, claims, leaseStep.claims]
      · -- A plan is released with its Lease, or it never had one.
        cases gone : new.released with
        | false => rfl
        | true =>
          obtain before | waiting | unheld | ⟨covered, pending⟩ :=
            hears.freed id plan new foundPlan foundNew gone
          · exact absurd (before.symm.trans live) nofun
          · exact absurd (committed.symm.trans waiting) nofun
          · exact absurd ((unheld row found).symm.trans (same.trans granted)) nofun
          · have sealed := informed.sealed_of_covers heard accepts.journal covered
              (bound.home id plan foundPlan).2
            exact absurd ((bound.sealed id plan foundPlan sealed).symm.trans pending) nofun
    · exact absurd (granted.symm.trans released) nofun
  · intro lease plan found sealed
    obtain ⟨old, foundOld, step⟩ := hears.plans.origin found
    rw [step.candidate, grants, seals] at sealed
    exact step.releasePending.trans (bound.sealed lease old foundOld sealed)
  · intro lease plan found armed
    obtain ⟨old, foundOld, step⟩ := hears.plans.origin found
    rw [step.candidate, grants]
    obtain before | arms := step.armed armed
    · obtain ⟨row, stored, held⟩ := bound.armed lease old foundOld before
      exact follows.held _ row stored held
    · exact held_of_arms follows.keyed accepts.journal arms
  · intro lease plan row found stored released
    obtain ⟨old, foundOld, step⟩ := hears.plans.origin found
    rw [step.candidate, grants] at stored
    obtain ⟨before, foundBefore, gone⟩ | confirms := follows.released _ row stored released
    · exact (bound.settled lease old before foundOld foundBefore gone).mono hears.leases
    · have member : row ∈ manager.grants.values := Table.mem_values.mpr ⟨_, stored⟩
      have covers : Covers request reply.outcome manager old.candidate.key := by
        obtain confirmed | reconciled | ⟨_, _, page⟩ := confirms
        · exact .inl confirmed
        · exact .inr (.inl reconciled)
        · exact .inr (.inr ⟨by rw [page]; rfl, row, member, follows.keyed _ row stored, released⟩)
      have sealed : (Manager.sealAt store.manager.grants old.candidate.key).isSome = true := by
        rw [← seals, Manager.sealAt, stored]
        exact follows.settled _ row stored released
      exact accepts.clears _ covers lease old foundOld rfl (bound.sealed lease old foundOld sealed)

theorem connect_native (done : store.connect encoding session participant = .ok next) :
    next.native = store.native := by
  simp only [AttachedStore.connect, ok_iff] at done
  obtain ⟨_, _, rfl⟩ := done
  rfl

theorem Bound.connect (bound : store.Bound domain)
    (done : store.connect encoding session participant = .ok next) : next.Bound domain := by
  simp only [AttachedStore.connect, ok_iff, mapError_eq_ok] at done
  obtain ⟨manager, connected, rfl⟩ := done
  apply bound.same
  · rfl
  · rfl
  · rw [(Manager.connect_eq_ok connected).shape]

theorem Bound.step (bound : store.Bound domain) (informed : Informed domain replied store)
    (step : Step encoding replied store next) : next.Bound domain := by
  cases step with
  | offline => exact bound.same rfl rfl rfl
  | page _ due done =>
    obtain ⟨manager, sequence, queued, rfl⟩ := enqueue_eq_ok done
    have still := Manager.enqueue_still (Manager.nextPage_quiet due) queued
    exact bound.same rfl rfl still.grants
  | reconcile computed done =>
    have still := Manager.enqueueAll_still (fun operation member =>
      Manager.reconciliation_quiet computed _ (List.mem_map_of_mem member)) done
    exact bound.same rfl rfl still.grants
  | maintain _ _ done => exact bound.maintains (@maintain_eq_ok encoding replied _ _ _ _ _ done)
  | accept sent heard done =>
    obtain ⟨manager, accepted, accepts⟩ := @acceptReply_eq_ok encoding replied _ _ _ _ _ _ sent done
    exact bound.accepts informed heard accepts
  | prepare unused done => exact bound.prepares informed unused (prepare_eq_ok done)
  | insertLease done => exact bound.inserts informed done
  | releaseLeases done => exact bound.releases (releaseLeases_eq_ok done)
  | pruneLeases released =>
    apply bound.raise
    · exact .refl (fun _ => Raises.refl) _
    · intro id row found
      rw [Table.get?_filter] at found
      exact ⟨row, (Option.filter_eq_some_iff.mp found).1, rfl, rfl, fun granted => granted⟩
    · rfl
  | native same => exact bound.same rfl same rfl
  | ticket done => exact bound.quiet (@enqueue_quiet encoding replied _ _ _ _ rfl rfl done)
  | consume done => exact bound.same rfl rfl (Manager.consumeTicket_marks done).still.grants
  | cleanup done => exact bound.quiet (@recordAttachedCleanup_quiet encoding replied _ _ _ _ _ done)

/-! ## What a step does to the Leases -/

/-- The changes of the Leases. -/
inductive LeaseEffect (encoding : Encoding) (replied : Request → Reply → Prop)
    (store next : AttachedStore) : Prop where
  | same (leases : next.native.leases = store.native.leases)
  | inserted {id : Uuid} {row : LeaseRow} (inserts : InsertsLease store id row)
      (absent : store.native.leases.get? id = none)
      (leases : next.native.leases = store.native.leases.set id row)
  | asked {affected : Uuid → LeaseRow → Bool} (releases : Releases affected store next)
  | pruned {keep : Uuid → LeaseRow → Bool}
      (released : ∀ id row, keep id row = false → row.state = .released)
      (leases : next.native.leases = store.native.leases.filter keep)
  | heard {request : Request} {reply : Reply} {manager : Manager}
      (sent : store.manager.pending = .ok (some request)) (heard : replied request reply)
      (accepts : Accepts encoding replied request reply store next manager accepted)

theorem Step.leases (step : Step encoding replied store next) :
    LeaseEffect encoding replied store next := by
  cases step with
  | offline | reconcile | consume => exact .same rfl
  | page _ _ done | ticket done =>
    obtain ⟨_, _, _, rfl⟩ := enqueue_eq_ok done
    exact .same rfl
  | maintain _ _ done =>
    cases @maintain_eq_ok encoding replied _ _ _ _ _ done with
    | quiet quiet => exact .same (by rw [quiet.native])
    | ready quiet _ sealed | stale quiet sealed =>
      obtain ⟨_, _, _, rfl⟩ := sealRelease_eq_ok sealed
      exact .same (congrArg NativeStore.leases quiet.native)
  | accept sent heard done =>
    obtain ⟨manager, accepted, accepts⟩ := @acceptReply_eq_ok encoding replied _ _ _ _ _ _ sent done
    exact .heard sent heard accepts
  | prepare _ done =>
    cases prepare_eq_ok done with
    | idle | reuse | create => exact .same rfl
  | insertLease done =>
    obtain ⟨inserts, absent, native, leases, rfl⟩ := insertLease_eq_ok done
    exact .inserted inserts absent leases
  | releaseLeases done => exact .asked (releaseLeases_eq_ok done)
  | pruneLeases released => exact .pruned released rfl
  | native leases => exact .same leases
  | cleanup done =>
    exact .same (by rw [(@recordAttachedCleanup_quiet encoding replied _ _ _ _ _ done).native])

/-- A Lease is granted anew by an insertion only. -/
theorem Step.insertsLease (step : Step encoding replied store next)
    (found : next.native.leases.get? id = some row) (granted : row.state = .granted)
    (new : ∀ old, store.native.leases.get? id = some old → old.state ≠ .granted) :
    InsertsLease store id row := by
  cases step.leases with
  | same leases =>
    rw [leases] at found
    exact absurd granted (new row found)
  | inserted inserts _ leases =>
    rw [leases, Table.get?_set_eq_some] at found
    obtain ⟨rfl, rfl⟩ | ⟨_, found⟩ := found
    · exact inserts
    · exact absurd granted (new row found)
  | asked releases =>
    obtain ⟨old, foundOld, _, _, before⟩ := releases.retains id row found
    exact absurd (before granted) (new old foundOld)
  | pruned _ leases =>
    rw [leases, Table.get?_filter] at found
    exact absurd granted (new row (Option.filter_eq_some_iff.mp found).1)
  | heard _ _ accepts =>
    rw [accepts.next] at found
    obtain ⟨old, foundOld, leaseStep⟩ := accepts.follows.leases.origin found
    obtain same | ⟨_, released, _⟩ := leaseStep.state
    · exact absurd (same ▸ granted) (new old foundOld)
    · exact absurd (granted.symm.trans released) nofun

/-- Why a granted Lease becomes released: the store applies a reply that covers the
allocation of its plan, and the release was asked for before. -/
structure ReleasesLease (encoding : Encoding) (replied : Request → Reply → Prop)
    (store next : AttachedStore) (id : Uuid) (plan : PlanRow) (request : Request) (reply : Reply)
    (manager : Manager) : Prop where
  binds : store.plans.get? id = some plan
  named : plan.candidate.key.leaseId = id
  asked : plan.releasePending = true
  sent : store.manager.pending = .ok (some request)
  heard : replied request reply
  journal : store.manager.accept encoding request reply = .ok (manager, true)
  covers : Covers request reply.outcome manager plan.candidate.key
  released : ∃ row, next.native.leases.get? id = some row ∧ row.state = .released

/-- A granted Lease goes away by a reply only. -/
theorem Step.releasesLease (bound : store.Bound domain) (step : Step encoding replied store next)
    (found : store.native.leases.get? id = some row) (granted : row.state = .granted)
    (gone : ∀ new, next.native.leases.get? id = some new → new.state ≠ .granted) :
    ∃ plan request reply manager,
      ReleasesLease encoding replied store next id plan request reply manager := by
  obtain ⟨plan, foundPlan, _, _, _, _, live⟩ := bound.leased id row found granted
  have kept : next.native.leases.get? id = some row → False :=
    fun same => gone row same granted
  cases step.leases with
  | same leases => exact (kept (leases ▸ found)).elim
  | @inserted other _ _ absent leases =>
    have different : id ≠ other := by
      rintro rfl
      cases found.symm.trans absent
    apply (kept _).elim
    rw [leases, Table.get?_set, if_neg different]
    exact found
  | asked releases =>
    have lookup := releases.leases id
    rw [found, Option.map_some] at lookup
    refine absurd ?_ (gone _ lookup)
    rw [releaseRow, foundPlan]
    simp only [Option.any_some, live, Bool.false_eq_true, ↓reduceIte]
    split <;> exact granted
  | @pruned keep released leases =>
    apply (kept _).elim
    rw [leases, Table.get?_filter, found]
    cases keeps : keep id row with
    | true => simp [keeps]
    | false => cases granted.symm.trans (released id row keeps)
  | heard sent heard accepts =>
    obtain ⟨new, foundNew, leaseStep⟩ := accepts.follows.leases.lookup found
    have lookup : next.native.leases.get? id = some new := by
      rw [accepts.next]
      exact foundNew
    obtain same | ⟨_, released, other, foundOther, pending, covers⟩ := leaseStep.state
    · exact absurd (same.trans granted) (gone new lookup)
    · exact ⟨other, _, _, _, foundOther, (bound.home id other foundOther).1, pending, sent, heard,
        accepts.journal, covers, new, lookup, released⟩

end Bound

end AttachedStore

namespace Fleet

variable {fleet : Fleet}

/-- The coordinator releases only what its manager sealed. -/
theorem Reached.informed (reached : fleet.Reached config storeUuid) (domain : ExecutionDomainId) :
    AttachedStore.Informed domain (fun request reply => (request, reply) ∈ fleet.replies)
      (fleet.stores domain) := by
  have sound := reached.system.sound
  have backing := reached.system.backing
  refine ⟨backing.journals domain, sound.isLocal domain, reached.coupled domain, ?_, ?_⟩
  · exact fun request reply heard => (backing.replies (request, reply) heard).runs
  · intro request reply heard sequence released same key member home
    obtain ⟨row, found, gone⟩ :=
      (backing.replies (request, reply) heard).gone sequence released same key member
    obtain ⟨release, _, named, sealed, _⟩ := (sound.store.grants key row found).released gone
    rw [sound.store.keyed.grants key row found] at named
    rw [System.Sealed, Manager.Sealed, named, home] at sealed
    exact Option.isSome_iff_exists.mpr ⟨release, sealed⟩

theorem Reached.bound (reached : fleet.Reached config storeUuid) (domain : ExecutionDomainId) :
    (fleet.stores domain).Bound domain := by
  obtain ⟨start, installed, run⟩ := reached
  induction run with
  | refl =>
    obtain ⟨native, released, rfl⟩ := installed
    exact .install _ (released domain)
  | tail run step bound =>
    have informed := Reached.informed ⟨start, installed, run⟩ domain
    obtain same | ⟨_, _, _, done⟩ | one := step.stores domain
    · rw [same]
      exact bound
    · exact bound.connect done
    · exact bound.step informed one

end Fleet

/-- A connected store plans, arms and leases one Job. -/
def fleetLeases : List Fleet.Event :=
  fleetConnects ++ smallPlans 1 ++ fleetTrip 63 ++
    [.remote (.offers ⟨0, none, fun _ => ⟨50, 51⟩⟩ ⟨[], []⟩), .store 6 (.maintain 1000 64)] ++
    fleetTrip 65 ++ fleetTrip 66 ++
    [.store 6 (.prepare { smallCall 100 with fresh := ⟨1, 2, 3⟩, operation := 4 }),
      .store 6 (.insertLease 3100 ⟨5100, none, .granted, smallJob.claims, false⟩)]

/-- The store asks for the release of its Lease, and the coordinator answers. -/
def fleetReleases : List Fleet.Event :=
  [.store 6 (.releaseLeases 3100), .store 6 (.maintain 1000 67), .remote (.send 6),
    .remote (.exchange soloInput 0)]

/-- The state of a Lease. -/
def AttachedStore.leaseState (store : AttachedStore) (id : Uuid) : Option LeaseState :=
  (store.native.leases.get? id).map LeaseRow.state

/-- In every reached fleet a Lease is granted only for a plan of the same Attempt and
claims that is armed, committed, and neither release-pending nor released, while the
store is connected.  A granted Lease goes away only in a transaction that applies a
reply which covers its allocation, after its release was asked for.  And the Grant
of each granted Lease may run in the journal of its store, while the coordinator has
it armed, uncertain, or released without the store knowing yet. -/
theorem attached_leases_mirror_grants {config : CoordinatorConfig}
    {storeUuid : ExecutionDomainId → Uuid} {fleet : Fleet}
    (reached : fleet.Reached config storeUuid) (domain : ExecutionDomainId) :
    (∀ next id row, Fleet.Step config fleet next →
      (next.stores domain).native.leases.get? id = some row → row.state = .granted →
      (∀ old, (fleet.stores domain).native.leases.get? id = some old → old.state ≠ .granted) →
      AttachedStore.InsertsLease (fleet.stores domain) id row) ∧
    (∀ next id row, Fleet.Step config fleet next →
      (fleet.stores domain).native.leases.get? id = some row → row.state = .granted →
      (∀ new, (next.stores domain).native.leases.get? id = some new → new.state ≠ .granted) →
      ∃ plan request reply manager,
        AttachedStore.ReleasesLease config.encoding
          (fun request reply => (request, reply) ∈ fleet.replies) (fleet.stores domain)
          (next.stores domain) id plan request reply manager) ∧
    ∀ id row, (fleet.stores domain).native.leases.get? id = some row → row.state = .granted →
      ∃ plan known grant, (fleet.stores domain).plans.get? id = some plan ∧
        plan.candidate.key.leaseId = id ∧ plan.attemptId = row.attemptId ∧
        plan.claims = row.claims ∧
        (fleet.stores domain).manager.grants.get? plan.candidate.key = some known ∧
        known.grant.state.mayRun = true ∧
        fleet.coordinator.store.grants.get? plan.candidate.key = some grant ∧
        (grant.snapshot.state = .armed ∨ grant.snapshot.state = .uncertain ∨
          grant.snapshot.state = .released) := by
  have bound := reached.bound domain
  refine ⟨?_, ?_, ?_⟩
  · intro next id row step found granted new
    obtain same | ⟨_, _, _, done⟩ | one := step.stores domain
    · rw [same] at found
      exact absurd granted (new row found)
    · rw [AttachedStore.connect_native done] at found
      exact absurd granted (new row found)
    · exact one.insertsLease found granted new
  · intro next id row step found granted gone
    obtain same | ⟨_, _, _, done⟩ | one := step.stores domain
    · rw [same] at gone
      exact absurd granted (gone row found)
    · rw [AttachedStore.connect_native done] at gone
      exact absurd granted (gone row found)
    · exact one.releasesLease bound found granted gone
  · intro id row found granted
    obtain ⟨plan, foundPlan, attempt, claims, armed, _, _⟩ := bound.leased id row found granted
    obtain ⟨known, stored, held⟩ := bound.armed id plan foundPlan armed
    have runs : known.grant.state.mayRun = true := by
      obtain runs | released := GrantState.held_iff.mp held
      · exact runs
      · have unheld := bound.settled id plan known foundPlan stored released
        exact absurd (granted.symm.trans (unheld row found)) nofun
    obtain ⟨grant, foundGrant, backed⟩ := reached.system.backing.grants domain _ known stored runs
    refine ⟨plan, known, grant, foundPlan, (bound.home id plan foundPlan).1, attempt, claims,
      stored, runs, foundGrant, ?_⟩
    cases state : grant.snapshot.state with
    | armed => exact .inl rfl
    | uncertain => exact .inr (.inl rfl)
    | released => exact .inr (.inr rfl)
    | offered | expired =>
      rw [state] at backed
      cases backed

/-- A Lease that the coordinator has already released, and the reply that releases
it in the store. -/
theorem leasedFleet_mirrors :
    ∃ fleet next : Fleet, fleet.Reached soloConfig (fun _ => 8) ∧
      Fleet.Step soloConfig fleet next ∧
      (fleet.stores 6).leaseState 3100 = some .granted ∧
      (next.stores 6).leaseState 3100 = some .released ∧
      (∃ plan known grant, (fleet.stores 6).plans.get? 3100 = some plan ∧
        (fleet.stores 6).manager.grants.get? plan.candidate.key = some known ∧
        known.grant.state.mayRun = true ∧
        fleet.coordinator.store.grants.get? plan.candidate.key = some grant) ∧
      ∃ plan request reply manager,
        AttachedStore.ReleasesLease soloConfig.encoding
          (fun request reply => (request, reply) ∈ fleet.replies) (fleet.stores 6)
          (next.stores 6) 3100 plan request reply manager := by
  have ran : (smallFleet.run soloConfig (fleetLeases ++ fleetReleases)).any (fun fleet =>
      (fleet.stores 6).leaseState 3100 = some .granted &&
        (fleet.play soloConfig (.store 6 (.accept 1000 68 0))).any fun next =>
          (next.stores 6).leaseState 3100 = some .released) = true := by
    decide +kernel
  obtain ⟨fleet, computed, checked⟩ := (Option.any_eq_true _ _).mp ran
  rw [Bool.and_eq_true, decide_eq_true_eq] at checked
  obtain ⟨next, played, released⟩ := (Option.any_eq_true _ _).mp checked.2
  rw [decide_eq_true_eq] at released
  have reached := Fleet.reached_of_run (fun _ => rfl) computed
  have step := Fleet.step_of_play played
  obtain ⟨_, releases, mirrors⟩ := attached_leases_mirror_grants reached 6
  obtain ⟨row, found, granted⟩ := Option.map_eq_some_iff.mp checked.1
  obtain ⟨plan, known, grant, foundPlan, _, _, _, stored, runs, foundGrant, _⟩ :=
    mirrors 3100 row found granted
  have gone : ∀ new, (next.stores 6).native.leases.get? 3100 = some new → new.state ≠ .granted := by
    intro new lookup held
    rw [AttachedStore.leaseState, lookup, Option.map_some, held] at released
    cases released
  exact ⟨fleet, next, reached, step, checked.1, released,
    ⟨plan, known, grant, foundPlan, stored, runs, foundGrant⟩,
    releases next 3100 row step found granted gone⟩

end Stillyard
