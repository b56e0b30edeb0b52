import Stillyard.Attached.Replies
import Stillyard.Manager.Numbers
import Stillyard.Manager.Running

/-!
# Steps of an attached store

Every transaction of an attached store changes its manager journal by a sequence
of journal steps.  Most of them leave the session, the recovery and the local
Grants alone, which is what `Manager.Still` says.
-/

namespace Stillyard

open Relational Fallible

namespace AttachedStore

/-- No plan and no allocation uses these identifiers. -/
structure Unused (store : AttachedStore) (ids : PlannedIds) (operation : Uuid) : Prop where
  plan : ids.lease ∉ store.plans.keys
  live : ids.lease ∉ store.liveness.keys
  invocation : ∀ plan ∈ store.plans.values, plan.invocationId ≠ ids.invocation
  containment : ∀ plan ∈ store.plans.values, plan.containmentId ≠ ids.containment
  grant : ∀ key ∈ store.manager.grants.keys, key.leaseId ≠ ids.lease
  nonzero : operation ≠ 0
  queued : ∀ row ∈ store.manager.outbox.rows, row.2.operationId ≠ operation
  abandoned : operation ∉ store.manager.abandoned.keys

section

variable (encoding : Encoding) (replied : Request → Reply → Prop)

/-- One transaction of an attached store, or one statement of a native
transaction; `replied` are the replies of the coordinator.  Native transactions
may change everything but the tables of the attachment, and they change Leases
through the triggers only. -/
inductive Step : AttachedStore → AttachedStore → Prop where
  | offline : Step store store.offline
  | page {command : Command}
      (idle : store.manager.oldest = none) (due : store.manager.nextPage = .ok (some command))
      (done : store.enqueue encoding operation command = .ok next) : Step store next
  | reconcile {manager : Manager} (computed : store.manager.reconciliation encoding snapshotId =
        .ok (operations.map Prod.snd))
      (done : store.manager.enqueueAll encoding operations = .ok manager) :
      Step store { store with manager }
  | maintain {added : Bool}
      (idle : store.manager.oldest = none) (recovered : store.manager.recovery = none)
      (done : store.maintain encoding now operation = .ok (next, added)) : Step store next
  | accept {reply : Reply} (sent : store.manager.pending = .ok (some request))
      (heard : replied request reply)
      (done : store.acceptReply encoding now operation request reply = .ok next) : Step store next
  | prepare {fresh : PlannedIds} {admission : Admission}
      (unused : store.Unused fresh operation)
      (done : store.prepare encoding now fresh operation request = .ok (next, admission)) :
      Step store next
  | insertLease {id : Uuid} (done : store.insertLease id row = .ok next) : Step store next
  | releaseLeases {affected : Uuid → LeaseRow → Bool}
      (done : store.releaseLeases affected = .ok next) : Step store next
  | pruneLeases {keep : Uuid → LeaseRow → Bool}
      (released : ∀ id row, keep id row = false → row.state = .released) : Step store
        { store with native := { store.native with leases := store.native.leases.filter keep } }
  | native {native : NativeStore}
      (same : native.leases = store.native.leases) : Step store { store with native }
  | ticket {intent : InvocationIntent}
      (done : store.enqueue encoding operation (.authorizeInvocation key offerNonce intent) =
        .ok next) : Step store next
  | consume
      {manager : Manager} (done : store.manager.consumeTicket ticket = .ok (manager, consumed)) :
      Step store { store with manager }
  | cleanup {never : Option InvocationTicket}
      (done : store.recordAttachedCleanup invocation seal_ never = .ok next) : Step store next

end

/-- A transaction on the manager journal that leaves plans, Leases and Grants
alone. -/
structure Quiet (encoding : Encoding) (replied : Request → Reply → Prop)
    (store next : AttachedStore) : Prop where
  mode : next.mode = store.mode
  plans : next.plans = store.plans
  native : next.native = store.native
  still : store.manager.Still next.manager
  run : Relation.ReflTransGen (Manager.Step encoding replied) store.manager next.manager

section Quiet

variable {encoding : Encoding} {replied : Request → Reply → Prop}
  {store middle next : AttachedStore}
variable {operation : Uuid} {command : Command} {now : Int}

theorem Quiet.refl (store : AttachedStore) : Quiet encoding replied store store :=
  ⟨rfl, rfl, rfl, .refl _, .refl⟩

theorem Quiet.trans (earlier : Quiet encoding replied store middle)
    (later : Quiet encoding replied middle next) : Quiet encoding replied store next :=
  ⟨later.mode.trans earlier.mode, later.plans.trans earlier.plans,
    later.native.trans earlier.native, earlier.still.trans later.still,
    earlier.run.trans later.run⟩

theorem enqueue_eq_ok (done : store.enqueue encoding operation command = .ok next) :
    ∃ manager sequence, store.manager.enqueue encoding operation command =
      .ok (manager, sequence) ∧ next = { store with manager } := by
  simp only [AttachedStore.enqueue, ok_iff, mapError_eq_ok] at done
  obtain ⟨⟨manager, sequence⟩, queued, rfl⟩ := done
  exact ⟨manager, sequence, queued, rfl⟩

theorem enqueue_quiet (work : command.isWork = true) (silent : Manager.reports command = false)
    (done : store.enqueue encoding operation command = .ok next) :
    Quiet encoding replied store next := by
  obtain ⟨manager, sequence, queued, rfl⟩ := enqueue_eq_ok done
  exact ⟨rfl, rfl, rfl, Manager.enqueue_still silent queued, .single (.enqueue work queued)⟩

theorem recordCleanup_quiet (done : store.recordCleanup cleanup = .ok next) :
    Quiet encoding replied store next := by
  simp only [AttachedStore.recordCleanup, ok_iff, mapError_eq_ok] at done
  obtain ⟨manager, recorded, rfl⟩ := done
  exact ⟨rfl, rfl, rfl, (Manager.recordCleanup_marks recorded).still,
    .single (.recordCleanup recorded)⟩

theorem applyCleanups_quiet (done : store.applyCleanups = .ok next) :
    Quiet encoding replied store next := by
  have loop {cleanups : List TicketCleanup} {before after : AttachedStore}
      (folded : cleanups.foldlM recordCleanup before = .ok after) :
      Quiet encoding replied before after := by
    refine foldlM_invariant (Quiet encoding replied before) ?_ (.refl _) folded
    intro state cleanup result _ quiet round
    exact quiet.trans (recordCleanup_quiet round)
  simp only [applyCleanups, bind_eq_ok] at done
  obtain ⟨received, first, second⟩ := done
  exact (loop first).trans (loop second)

theorem recordAttachedCleanup_quiet {invocation : EntityId} {seal_ : String × String}
    {never : Option InvocationTicket}
    (done : store.recordAttachedCleanup invocation seal_ never = .ok next) :
    Quiet encoding replied store next := by
  simp only [recordAttachedCleanup, bind_eq_ok] at done
  obtain ⟨_, _, done⟩ := done
  cases never with
  | none =>
    obtain ⟨noted, same, applied⟩ := bind_eq_ok.mp done
    obtain rfl := Except.ok.inj same
    have rest : Quiet encoding replied _ next := applyCleanups_quiet applied
    apply Quiet.trans _ rest
    exact ⟨rfl, rfl, rfl, .refl _, .refl⟩
  | some ticket =>
    simp only [recordUnused, ok_iff, mapError_eq_ok] at done
    obtain ⟨_, ⟨_, _, manager, recorded, rfl⟩, applied⟩ := done
    have rest : Quiet encoding replied _ next := applyCleanups_quiet applied
    apply Quiet.trans _ rest
    exact ⟨rfl, rfl, rfl, (Manager.recordUnusedCleanup_marks recorded).still,
      .single (.recordUnusedCleanup recorded)⟩

theorem acknowledgeSettled_quiet (done : store.acknowledgeSettled = .ok next) :
    Quiet encoding replied store next := by
  unfold acknowledgeSettled at done
  split at done
  · obtain rfl := pure_eq_ok.mp done
    exact .refl _
  · split at done
    · obtain rfl := pure_eq_ok.mp done
      exact .refl _
    · simp only [ok_iff, mapError_eq_ok] at done
      obtain ⟨manager, acknowledged, rfl⟩ := done
      exact ⟨rfl, rfl, rfl, (Manager.acknowledgeAbandoned_marks acknowledged).still,
        .single (.acknowledgeAbandoned acknowledged)⟩

theorem poll_quiet (done : store.poll encoding now operation lease plan live = .ok next) :
    Quiet encoding replied store next := by
  simp only [poll, ok_iff] at done
  obtain ⟨queued, enqueued, rfl⟩ := done
  have quiet : Quiet encoding replied store queued := by
    split at enqueued <;> exact enqueue_quiet rfl rfl enqueued
  exact quiet.trans ⟨rfl, rfl, rfl, .refl _, .refl⟩

theorem sealRelease_eq_ok (done : store.sealRelease encoding operation key = .ok next) :
    ∃ manager sequence, store.manager.sealRelease encoding key operation =
      .ok (manager, sequence) ∧ next = { store with manager } := by
  simp only [AttachedStore.sealRelease, ok_iff, mapError_eq_ok] at done
  obtain ⟨⟨manager, sequence⟩, sealed, rfl⟩ := done
  exact ⟨manager, sequence, sealed, rfl⟩

/-- The plans of an allocation, with their release asked for. -/
def abandon (store : AttachedStore) (key : AllocationKey) : AttachedStore :=
  store.updatePlans (fun _ plan => plan.candidate.key = key) fun _ plan =>
    { plan with releasePending := true }

/-- What a turn of maintenance does: it queues an operation, or it seals an
allocation whose release was asked for. -/
inductive Maintains (encoding : Encoding) (replied : Request → Reply → Prop) (operation : Uuid) :
    AttachedStore → AttachedStore → Prop where
  | quiet {store next : AttachedStore} (quiet : Quiet encoding replied store next) :
      Maintains encoding replied operation store next
  | ready {store settled next : AttachedStore}
      (quiet : Quiet encoding replied store settled) (found : settled.readyRelease = some key)
      (sealed : settled.sealRelease encoding operation key = .ok next) :
      Maintains encoding replied operation store next
  | stale {store settled next : AttachedStore} (quiet : Quiet encoding replied store settled)
      (sealed : (settled.abandon key).sealRelease encoding operation key = .ok next) :
      Maintains encoding replied operation store next

theorem maintain_eq_ok {added : Bool}
    (done : store.maintain encoding now operation = .ok (next, added)) :
    Maintains encoding replied operation store next := by
  simp only [AttachedStore.maintain, bind_eq_ok] at done
  obtain ⟨settled, acknowledged, done⟩ := done
  have quiet : Quiet encoding replied store settled := acknowledgeSettled_quiet acknowledged
  split at done
  · simp only [ok_iff, Prod.mk.injEq] at done
    obtain ⟨queued, enqueued, rfl, _⟩ := done
    exact .quiet (quiet.trans (enqueue_quiet rfl rfl enqueued))
  · split at done
    next key found =>
      simp only [ok_iff, Prod.mk.injEq] at done
      obtain ⟨sealed, seals, rfl, _⟩ := done
      exact .ready quiet found seals
    next =>
      split at done
      next plan _ _ =>
        simp only [ok_iff, Prod.mk.injEq] at done
        obtain ⟨retired, retires, rfl, _⟩ := done
        unfold retireStale at retires
        split at retires
        · exact .stale quiet retires
        · obtain ⟨_, _, enqueued⟩ := bind_eq_ok.mp retires
          exact .quiet (quiet.trans (enqueue_quiet rfl rfl enqueued))
      next =>
        split at done
        next lease plan live _ =>
          simp only [ok_iff, Prod.mk.injEq] at done
          obtain ⟨polled, polls, rfl, _⟩ := done
          exact .quiet (quiet.trans (poll_quiet polls))
        next =>
          obtain ⟨rfl, _⟩ := Prod.mk.inj (pure_eq_ok.mp done)
          exact .quiet quiet

section

variable (encoding : Encoding) (fresh : PlannedIds) (operation : Uuid) (request : PlanRequest)

/-- What `prepare` does: nothing, or it reuses the plan of a slot, or it inserts a
plan and queues its candidate. -/
inductive Prepares : AttachedStore → AttachedStore → Prop where
  | idle {store : AttachedStore} : Prepares store store
  | reuse {store : AttachedStore} {liveness : Table Uuid LivenessRow}
      (found : store.slotPlan (store.slotOf request) = some (lease, plan)) : Prepares store
        { store with
          liveness
          plans := store.plans.modify fun id other =>
            if plan.armed && id = lease then { other with committed := true } else other }
  | create {sequence : Nat} {store : AttachedStore} {liveness : Table Uuid LivenessRow}
      {plans : Table Uuid PlanRow} {manager : Manager} (opened : store.mode.session = some session)
      (inserted : store.plans.insert? fresh.lease (store.newPlan request fresh
        (candidateFor session configuration request fresh)) = some plans)
      (queued : store.manager.enqueue encoding operation
        (.candidateUpsert (candidateFor session configuration request fresh)) =
          .ok (manager, sequence)) : Prepares store
        { store with
          liveness
          plans
          manager
          native := store.native.recordAttempt request.job request.attempt }

end

theorem prepare_eq_ok {fresh : PlannedIds}
    (done : store.prepare encoding now fresh operation request = .ok (next, admission)) :
    Prepares encoding fresh operation request store next := by
  simp only [AttachedStore.prepare, bind_eq_ok] at done
  obtain ⟨_, _, done⟩ := done
  split at done
  · obtain ⟨rfl, _⟩ := Prod.mk.inj (pure_eq_ok.mp done)
    exact .idle
  · simp only [ok_iff] at done
    obtain ⟨session, opened, configuration, _, done⟩ := done
    split at done
    next lease plan found =>
      simp only [reusePlan, touch, ok_iff, Bool.false_eq_true, ↓reduceIte, Prod.mk.injEq] at done
      obtain ⟨_, _, touched, rfl, rfl, _⟩ := done
      have shape := @Prepares.reuse encoding fresh operation request lease plan store
        (store.liveness.update lease fun row => { row with readyMs := now }) found
      cases armed : plan.armed with
      | true => simpa [armed, updatePlans] using shape
      | false =>
        have same : (store.plans.modify fun id other =>
            if plan.armed && id = lease then { other with committed := true } else other) =
            store.plans := by
          ext1
          simp [armed, Table.modify]
        rw [same] at shape
        simpa [armed] using shape
    next =>
      simp only [createPlan] at done
      split at done
      · obtain ⟨rfl, _⟩ := Prod.mk.inj (pure_eq_ok.mp done)
        exact .idle
      · simp only [insertPlan, touch, ↓reduceIte, ok_iff, Prod.mk.injEq] at done
        obtain ⟨_, ⟨_, _, plans, inserted, rfl⟩, _, ⟨liveness, _, rfl⟩, queued, enqueued, rfl, _⟩ :=
          done
        obtain ⟨manager, sequence, upserted, rfl⟩ := enqueue_eq_ok enqueued
        exact .create opened inserted upserted

end Quiet

/-- What a scheduling transaction reads of these tables for a request. -/
def viewFor (store : AttachedStore) (request : PlanRequest) : AttachmentView where
  connected := store.mode.connected
  plan := (store.slotPlan (store.slotOf request)).map fun row =>
    (⟨row.2.invocationId, row.2.containmentId, row.1⟩, row.2.armed)
  sealed_ := (store.slotPlan (store.slotOf request)).any fun row =>
    row.2.releasePending || row.2.released ||
      store.mode.session.all fun session => store.mode.configuration.all fun configuration =>
        row.2.candidate ≠ candidateFor session configuration request
          ⟨row.2.invocationId, row.2.containmentId, row.1⟩
  full := maxDomainCandidates ≤ store.openPlans

/-- A call of `prepare` that succeeds has the effect on the native tables that a
scheduling transaction computes from its view.  An Attempt that is `new` has no plan. -/
theorem attachedPrepare_of_prepare {store : AttachedStore} (attached : store.native.attached = true)
    (unplanned : new = true → store.slotPlan (store.slotOf request) = none)
    (done : store.prepare encoding now store.native.plannedIds operation request =
      .ok (next, admission)) :
    store.native.attachedPrepare (store.viewFor request) request.job request.attempt new =
      .ok (next.native.drawn (if admission.changed then 3 else 0), admission) := by
  simp only [AttachedStore.prepare, bind_eq_ok] at done
  obtain ⟨_, _, done⟩ := done
  unfold NativeStore.attachedPrepare
  rw [attached]
  split at done
  · next offline =>
    obtain ⟨rfl, rfl⟩ := Prod.mk.inj (pure_eq_ok.mp done)
    simp [viewFor, offline, NativeStore.drawn]
  · next online =>
    simp only [ok_iff] at done
    obtain ⟨session, opened, configuration, configured, done⟩ := done
    split at done
    next lease plan found =>
      have old : new = false := by
        cases new with
        | false => rfl
        | true => simp [unplanned rfl] at found
      simp only [reusePlan, touch, ok_iff, Bool.false_eq_true, ↓reduceIte, Prod.mk.injEq] at done
      obtain ⟨_, unsealed, touched, rfl, rfl, rfl⟩ := done
      simp only [Bool.and_eq_true, decide_eq_true_eq, Bool.not_eq_true'] at unsealed
      cases armed : plan.armed <;>
        simp [viewFor, online, found, old, opened, configured, unsealed, armed, NativeStore.drawn,
          updatePlans]
    next free =>
      simp only [createPlan] at done
      split at done
      · next full =>
        obtain ⟨rfl, rfl⟩ := Prod.mk.inj (pure_eq_ok.mp done)
        simp [viewFor, online, free, full, NativeStore.drawn]
      · next room =>
        simp only [insertPlan, touch, ↓reduceIte, ok_iff, Prod.mk.injEq] at done
        obtain ⟨_, ⟨_, _, plans, _, rfl⟩, _, ⟨liveness, _, rfl⟩, queued, enqueued, rfl, rfl⟩ := done
        obtain ⟨manager, sequence, _, rfl⟩ := enqueue_eq_ok enqueued
        simp [viewFor, online, free, room, NativeStore.drawn_recordAttempt]

end AttachedStore

end Stillyard
