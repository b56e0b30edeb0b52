import Stillyard.Attached.Fleet
import Stillyard.System.Script

/-!
# Scripted fleets

A script for the fleet names the transactions of the attached stores.  The
coordinator's side and the messages are those of the scripts for the system.
-/

namespace Stillyard

open Relational Fallible

namespace AttachedStore

/-- The arguments of one call of `prepare`, with what it draws and reads. -/
structure PlanCall where
  now : Int
  fresh : PlannedIds
  operation : Uuid
  request : PlanRequest

/-- Whether the identifiers of a call are unused. -/
def unused (store : AttachedStore) (ids : PlannedIds) (operation : Uuid) : Bool :=
  ids.lease ∉ store.plans.keys && ids.lease ∉ store.liveness.keys &&
    (store.plans.values.all fun plan => plan.invocationId ≠ ids.invocation) &&
    (store.plans.values.all fun plan => plan.containmentId ≠ ids.containment) &&
    (store.manager.grants.keys.all fun key => key.leaseId ≠ ids.lease) && operation ≠ 0 &&
    (store.manager.outbox.rows.all fun row => row.2.operationId ≠ operation) &&
    operation ∉ store.manager.abandoned.keys

theorem unused_eq_true {store : AttachedStore} (checked : store.unused ids operation = true) :
    store.Unused ids operation := by
  simp only [unused, Bool.and_eq_true, List.all_eq_true, decide_eq_true_eq] at checked
  obtain ⟨⟨⟨⟨⟨⟨⟨plan, live⟩, invocation⟩, containment⟩, grant⟩, nonzero⟩, queued⟩, abandoned⟩ :=
    checked
  exact ⟨plan, live, invocation, containment, grant, nonzero, queued, abandoned⟩

/-- One transaction of an attached store.  Replies are named by their position,
latest first. -/
inductive Move where
  | page (operation : Uuid)
  | reconcile (snapshotId : Uuid) (operations : List Uuid)
  | maintain (now : Int) (operation : Uuid)
  | accept (now : Int) (operation : Uuid) (position : Nat)
  | prepare (call : PlanCall)
  | insertLease (id : Uuid) (row : LeaseRow)
  | releaseLeases (id : Uuid)
  | offline

/-- Call `prepare`. -/
def call (store : AttachedStore) (encoding : Encoding) (call : PlanCall) :
    StoreResult (AttachedStore × Admission) :=
  store.prepare encoding call.now call.fresh call.operation call.request

/-- Make a move. -/
def perform (encoding : Encoding) (replies : List (Request × Reply)) (store : AttachedStore) :
    Move → Option AttachedStore
  | .page operation =>
    if store.manager.oldest = none then
      (Except.toOption store.manager.nextPage).bind fun page => page.bind fun command =>
        Except.toOption (store.enqueue encoding operation command)
    else none
  | .reconcile snapshotId operations =>
    (Except.toOption (store.manager.reconciliation encoding snapshotId)).bind fun commands =>
      if operations.length = commands.length then
        (Except.toOption (store.manager.enqueueAll encoding (operations.zip commands))).map
          fun manager => { store with manager }
      else none
  | .maintain now operation =>
    if store.manager.oldest = none ∧ store.manager.recovery = none then
      (Except.toOption (store.maintain encoding now operation)).map Prod.fst
    else none
  | .accept now operation position => replies[position]?.bind fun entry =>
    if Except.toOption store.manager.pending = some (some entry.1) then
      Except.toOption (store.acceptReply encoding now operation entry.1 entry.2)
    else none
  | .prepare call =>
    if store.unused call.fresh call.operation then
      (Except.toOption (store.call encoding call)).map Prod.fst
    else none
  | .insertLease id row => Except.toOption (store.insertLease id row)
  | .releaseLeases id => Except.toOption (store.releaseLeases fun other _ => other = id)
  | .offline => some store.offline

theorem step_of_perform (done : store.perform encoding replies move = some next) :
    Step encoding (fun request reply => (request, reply) ∈ replies) store next := by
  cases move with
  | page operation =>
    rw [perform] at done
    split at done
    next idle =>
      obtain ⟨page, asked, rest⟩ := Option.bind_eq_some_iff.mp done
      obtain ⟨command, rfl, queued⟩ := Option.bind_eq_some_iff.mp rest
      exact .page idle (toOption_eq_some.mp asked) (toOption_eq_some.mp queued)
    next => cases done
  | reconcile snapshotId operations =>
    obtain ⟨commands, computed, rest⟩ := Option.bind_eq_some_iff.mp done
    split at rest
    next sameLength =>
      obtain ⟨manager, queued, rfl⟩ := Option.map_eq_some_iff.mp rest
      have whole := toOption_eq_some.mp computed
      rw [← List.map_snd_zip (Nat.le_of_eq sameLength.symm)] at whole
      exact .reconcile whole (toOption_eq_some.mp queued)
    next => cases rest
  | maintain now operation =>
    rw [perform] at done
    split at done
    next ready =>
      obtain ⟨⟨_, added⟩, maintained, rfl⟩ := Option.map_eq_some_iff.mp done
      exact .maintain ready.1 ready.2 (toOption_eq_some.mp maintained)
    next => cases done
  | accept now operation position =>
    obtain ⟨entry, listed, rest⟩ := Option.bind_eq_some_iff.mp done
    split at rest
    next sent =>
      exact .accept (toOption_eq_some.mp sent) (List.mem_of_getElem? listed)
        (toOption_eq_some.mp rest)
    next => cases rest
  | prepare call =>
    rw [perform] at done
    split at done
    next checked =>
      obtain ⟨⟨_, admission⟩, prepared, rfl⟩ := Option.map_eq_some_iff.mp done
      exact .prepare (unused_eq_true checked) (toOption_eq_some.mp prepared)
    next => cases done
  | insertLease id row => exact .insertLease (toOption_eq_some.mp done)
  | releaseLeases id => exact .releaseLeases (toOption_eq_some.mp done)
  | offline =>
    obtain rfl := Option.some.inj done
    exact .offline

end AttachedStore

namespace Fleet

/-- One event of a script: the coordinator and the messages, or a store. -/
inductive Event where
  | remote (event : Stillyard.Event)
  | connect (domain : ExecutionDomainId) (position : Nat)
  | store (domain : ExecutionDomainId) (move : AttachedStore.Move)

/-- Events that change no manager. -/
def isRemote : Stillyard.Event → Bool
  | .connect .. | .manager .. => false
  | _ => true

/-- The fleet around a state of the system. -/
def around (fleet : Fleet) (system : System) : Fleet :=
  { fleet with
    coordinator := system.coordinator
    requests := system.requests
    replies := system.replies
    welcomes := system.welcomes }

/-- Make one event happen. -/
def play (config : CoordinatorConfig) (fleet : Fleet) : Event → Option Fleet
  | .remote event =>
    if isRemote event then (fleet.system.play config event).map fleet.around else none
  | .connect domain position => fleet.welcomes[position]?.bind fun welcome =>
    if welcome.1.domainId = domain then
      (Except.toOption ((fleet.stores domain).connect config.encoding welcome.1
        welcome.2)).map fun store =>
          { fleet with
            stores := Function.update fleet.stores domain store
            welcomes := fleet.welcomes.erase welcome }
    else none
  | .store domain move =>
    ((fleet.stores domain).perform config.encoding fleet.replies move).map fun store =>
      { fleet with stores := Function.update fleet.stores domain store }

section Play

variable {config : CoordinatorConfig} {fleet next : Fleet}

private theorem changes_of_remote (remote : isRemote event = true) : event.changes = none := by
  cases event with
  | connect | manager => cases remote
  | _ => rfl

theorem step_of_play (played : fleet.play config event = some next) : Step config fleet next := by
  cases event with
  | remote event =>
    rw [play] at played
    split at played
    next remote =>
      obtain ⟨after, reached, rfl⟩ := Option.map_eq_some_iff.mp played
      exact .remote (System.step_of_play reached)
        (System.managers_of_quiet (changes_of_remote remote) reached)
    next => cases played
  | connect domain position =>
    obtain ⟨welcome, listed, rest⟩ := Option.bind_eq_some_iff.mp played
    split at rest
    next own =>
      obtain ⟨store, done, rfl⟩ := Option.map_eq_some_iff.mp rest
      exact .connect (List.mem_of_getElem? listed) own (toOption_eq_some.mp done)
    next => cases rest
  | store domain move =>
    obtain ⟨store, done, rfl⟩ := Option.map_eq_some_iff.mp played
    exact .store (AttachedStore.step_of_perform done)

end Play

/-- Run a script. -/
def run (config : CoordinatorConfig) (script : List Event) (fleet : Fleet) : Option Fleet :=
  script.foldlM (fun fleet event => fleet.play config event) fleet

/-- A script from newly installed attachments leads to a reached state. -/
theorem reached_of_run (unleased : ∀ domain, (native domain).leases = .empty)
    (ran : (initial config storeUuid native).run config script = some final) :
    final.Reached config storeUuid := by
  have installed : (initial config storeUuid native).Installed config storeUuid := by
    refine ⟨native, ?_, rfl⟩
    intro domain id row found
    rw [unleased domain] at found
    cases found
  exact ⟨_, installed, Transition.steps_of_script ran step_of_play⟩

end Fleet

end Stillyard
