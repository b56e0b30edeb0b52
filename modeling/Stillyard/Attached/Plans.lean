import Stillyard.Manager.Replies
import Stillyard.Native.Prepare

/-!
# Plans of an attached store

An attached store gets its Leases from a coordinator.  A plan binds the Lease
that a Job will hold to the candidate that asks for it.  Two triggers guard the
Leases themselves: one is inserted only for a plan with a committed Armed Grant,
and a release is noted in the plan until the coordinator has confirmed it.
-/

namespace Stillyard

open Relational Fallible

def protocolError : JournalError → StoreError
  | .history detail => .invalidState s!"manager protocol history is unavailable: {detail}"
  | .database detail => .invalidState detail
  | .io detail => .invalidState detail

/-- What a `slot` names: the next Invocation of an Attempt in one role, for a
probe with its Condition. -/
structure Slot where
  attempt : Uuid
  role : InvocationRole
  index : Nat
  condition : Option Uuid
  deriving DecidableEq, Repr

/-- The text in the column `slot`.  A retired slot also names its Lease, so that
the slot can be planned again. -/
inductive SlotName where
  | planned (slot : Slot)
  | retired (slot : Slot) (lease : Uuid)
  deriving DecidableEq, Repr

/-- `'retired:'||slot||':'||lease_id` for a slot that is not retired. -/
def SlotName.retire (lease : Uuid) : SlotName → SlotName
  | .planned slot => .retired slot lease
  | .retired slot old => .retired slot old

/-- A row of `attached_local_plans`, under its Lease.  `allocation_key` is the key
of the candidate. -/
structure PlanRow where
  slot : SlotName
  jobId : Uuid
  attemptId : Uuid
  invocationId : Uuid
  containmentId : Uuid
  candidate : Candidate
  claims : ResolvedClaims
  armed : Bool
  committed : Bool
  releasePending : Bool
  released : Bool
  deriving DecidableEq

/-- A plan that is neither committed nor on its way out. -/
def PlanRow.waiting (plan : PlanRow) : Bool :=
  !plan.committed && !plan.released && !plan.releasePending

/-- The row of `attached_local_mode`. -/
structure LocalMode where
  storeUuid : Uuid
  session : Option SessionIdentity
  configuration : Option String
  connected : Bool
  deriving DecidableEq

/-- A row of `attached_local_liveness`. -/
structure LivenessRow where
  readyMs : Int
  pollMs : Int
  advertisedMs : Int
  deriving DecidableEq, Repr

/-- The tables of an attached store.  `cleanups` is `attached_local_cleanup`, the
boundary and the proof of an Invocation that the executor sealed. -/
structure AttachedStore where
  mode : LocalMode
  plans : Table Uuid PlanRow
  liveness : Table Uuid LivenessRow
  cleanups : Table EntityId (String × String)
  manager : Manager
  native : NativeStore

/-- `install_attached_configuration`, on a store without granted Leases. -/
def AttachedStore.install (storeUuid : Uuid) (native : NativeStore) : AttachedStore where
  mode := ⟨storeUuid, none, none, false⟩
  plans := .empty
  liveness := .empty
  cleanups := .empty
  manager := Manager.initialize storeUuid
  native := { native with attached := true }

namespace AttachedStore

variable (store : AttachedStore)

/-- `UPDATE attached_local_plans … WHERE …`. -/
def updatePlans (affected : Uuid → PlanRow → Bool) (change : Uuid → PlanRow → PlanRow) :
    AttachedStore :=
  { store with
    plans := store.plans.modify fun lease plan =>
      if affected lease plan then change lease plan else plan }

/-- The plan with an allocation key. -/
def planOf (key : AllocationKey) : Option (Uuid × PlanRow) :=
  store.plans.rows.find? fun row => row.2.candidate.key = key

/-- The owner of a candidate is the owner of the Lease. -/
def ownsLease (plan : PlanRow) (invocation : Option Uuid) : Bool :=
  match plan.candidate.owner, invocation with
  | .work .., none => true
  | .probe .., some invocation => invocation = plan.invocationId
  | _, _ => false

/-- The condition of `attached_lease_insert`. -/
def backsLease (id : Uuid) (row : LeaseRow) : Bool :=
  store.mode.connected && (store.plans.get? id).any fun plan =>
    plan.attemptId = row.attemptId && plan.claims = row.claims && plan.armed && plan.committed &&
      !plan.releasePending && !plan.released && ownsLease plan row.invocationId

/-- `INSERT INTO leases`, guarded by `attached_lease_insert`. -/
def insertLease (id : Uuid) (row : LeaseRow) : StoreResult AttachedStore := do
  require (store.backsLease id row)
    (.sqlite "attached Lease has no committed Armed Grant")
  let native ← store.native.insertLease id row
  return { store with native }

/-- The granted Leases that an `UPDATE leases SET state = 'released'` asks for. -/
def releasing (affected : Uuid → LeaseRow → Bool) (id : Uuid) : Bool :=
  (store.native.leases.get? id).any fun row => row.state = .granted && affected id row

/-- The Lease after `attached_lease_release`: without a confirmed release the
update is ignored. -/
def releaseRow (affected : Uuid → LeaseRow → Bool) (id : Uuid) (row : LeaseRow) : LeaseRow :=
  if row.state = .granted && affected id row then
    if (store.plans.get? id).any PlanRow.released then
      { row with state := .released, releasePending := true }
    else { row with releasePending := true }
  else row

/-- `UPDATE leases SET state = 'released' WHERE state = 'granted' AND …`, with
`attached_lease_release` for each of its rows. -/
def releaseLeases (affected : Uuid → LeaseRow → Bool) : StoreResult AttachedStore := do
  require
    (store.native.leases.keys.all fun id =>
      !store.releasing affected id || (store.plans.get? id).isSome)
    (.sqlite "attached Lease lost its Grant binding")
  let noted := store.updatePlans (fun id _ => store.releasing affected id)
    fun _ plan => { plan with releasePending := true }
  return { noted with
    native := { store.native with
      leases := store.native.leases.modify (store.releaseRow affected) } }

/-! ## `attached::prepare` -/

/-- The arguments of `prepare`, with the parts of the specification that a
candidate carries. -/
structure PlanRequest where
  storeUuid : Uuid
  job : Uuid
  attempt : Uuid
  condition : Option Uuid
  priority : Int
  observed : Option Nat
  quiet : Option QuietPolicy
  claims : ResolvedClaims

def PlanRequest.role (request : PlanRequest) : InvocationRole :=
  if request.condition.isSome then .probe else .primary

/-- The next `role_index` of an Attempt in one role. -/
def roleIndex (attempt : Uuid) (role : InvocationRole) : Nat :=
  (store.native.invocations.values.filter fun row =>
    row.attemptId = attempt && row.role = role).foldl
    (fun next row => max next (row.roleIndex + 1)) 0

def slotOf (request : PlanRequest) : Slot where
  attempt := request.attempt
  role := request.role
  index := store.roleIndex request.attempt request.role
  condition := request.condition

/-- The plan of a slot. -/
def slotPlan (slot : Slot) : Option (Uuid × PlanRow) :=
  store.plans.rows.find? fun row => row.2.slot = .planned slot

/-- The candidate of a plan under a session and a configuration. -/
def candidateFor (session : SessionIdentity) (configuration : String) (request : PlanRequest)
    (ids : PlannedIds) : Candidate where
  key := ⟨session.machineId, session.authorityEpoch, session.domainId, request.storeUuid, ids.lease⟩
  owner := if request.condition.isSome then
      .probe ⟨request.storeUuid, request.job⟩ ⟨request.storeUuid, ids.invocation⟩
    else .work ⟨request.storeUuid, request.job⟩ ⟨request.storeUuid, request.attempt⟩
  revision := 1
  priority := request.priority
  claims := ⟨scalarEntries request.claims, request.claims.sharedFences,
    request.claims.exclusiveFences, request.claims.impacts⟩
  configurationSha256 := configuration
  observed := request.observed
  quiet := request.quiet

def touch (now : Int) (lease : Uuid) (first : Bool) : StoreResult AttachedStore := do
  if first then
    let liveness ← orError (store.liveness.insert? lease ⟨now, 0, now⟩) duplicateKey
    return { store with liveness }
  else return { store with
    liveness := store.liveness.update lease fun row => { row with readyMs := now } }

/-- The plans that count against `MAX_DOMAIN_CANDIDATES`. -/
def openPlans : Nat := (store.plans.values.filter fun plan => !plan.released).length

/-- `INSERT INTO attached_local_plans`. -/
def insertPlan (lease : Uuid) (plan : PlanRow) : StoreResult AttachedStore := do
  require
    (store.plans.values.all fun other => other.invocationId ≠ plan.invocationId &&
      other.containmentId ≠ plan.containmentId)
    duplicateKey
  let plans ← orError (store.plans.insert? lease plan) duplicateKey
  return { store with plans }

/-- The plan that `prepare` inserts. -/
def newPlan (request : PlanRequest) (ids : PlannedIds) (candidate : Candidate) : PlanRow where
  slot := .planned (store.slotOf request)
  jobId := request.job
  attemptId := request.attempt
  invocationId := ids.invocation
  containmentId := ids.containment
  candidate
  claims := request.claims
  armed := false
  committed := false
  releasePending := false
  released := false

/-- The end of `prepare` for a slot that has a plan. -/
def reusePlan (now : Int) (candidate : Candidate) (lease : Uuid) (plan : PlanRow) :
    StoreResult (AttachedStore × Admission) := do
  require (plan.candidate = candidate && !plan.releasePending && !plan.released)
    (.invalidState "attached candidate changed or was sealed; reconcile before replanning")
  let touched ← store.touch now lease false
  let kept := if plan.armed then
      touched.updatePlans (fun id _ => id = lease) fun _ plan => { plan with committed := true }
    else touched
  return (kept, ⟨⟨plan.invocationId, plan.containmentId, lease⟩, plan.armed, false, true⟩)

/-- Queue an operation of the manager journal. -/
def enqueue (encoding : Encoding) (operation : Uuid) (command : Command) :
    StoreResult AttachedStore := do
  let result ← (store.manager.enqueue encoding operation command).mapError protocolError
  return { store with manager := result.1 }

/-- The end of `prepare` for a slot without a plan. -/
def createPlan (encoding : Encoding) (now : Int) (operation : Uuid) (request : PlanRequest)
    (ids : PlannedIds) (candidate : Candidate) :
    StoreResult (AttachedStore × Admission) := do
  if maxDomainCandidates ≤ store.openPlans then return (store, ⟨ids, false, false, false⟩)
  else
    let planned ← store.insertPlan ids.lease (store.newPlan request ids candidate)
    let recorded := { planned with
      native := planned.native.recordAttempt request.job request.attempt }
    let touched ← recorded.touch now ids.lease true
    let queued ← touched.enqueue encoding operation (.candidateUpsert candidate)
    return (queued, ⟨ids, false, true, true⟩)

/-- `attached::prepare`; the identifiers that it draws are `fresh` and
`operation`. -/
def prepare (encoding : Encoding) (now : Int) (fresh : PlannedIds) (operation : Uuid)
    (request : PlanRequest) : StoreResult (AttachedStore × Admission) := do
  require (store.mode.storeUuid = request.storeUuid)
    (.invalidState "attached store differs from its installed binding")
  if !store.mode.connected then return (store, ⟨fresh, false, false, false⟩)
  else
    let session ← orError store.mode.session (.invalidState "attached session missing")
    let configuration ← orError store.mode.configuration
      (.invalidState "attached configuration missing")
    match store.slotPlan (store.slotOf request) with
    | some (lease, plan) =>
      let ids : PlannedIds := ⟨plan.invocationId, plan.containmentId, lease⟩
      store.reusePlan now (candidateFor session configuration request ids) lease plan
    | none =>
      let candidate := candidateFor session configuration request fresh
      store.createPlan encoding now operation request fresh candidate

end AttachedStore

end Stillyard
