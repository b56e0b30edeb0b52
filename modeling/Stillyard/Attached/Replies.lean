import Stillyard.Attached.Plans

/-!
# Replies and maintenance of an attached store

`Driver::step` keeps the plans of an attached store in step with the manager
journal.  While nothing is unanswered it adds one maintenance operation, and the
answer to an operation is applied to the journal, the plans and the Leases in one
transaction.
-/

namespace Stillyard

open Relational Fallible

namespace AttachedStore

variable (store : AttachedStore)

def recordCleanup (cleanup : TicketCleanup) : StoreResult AttachedStore := do
  let manager ← (store.manager.recordCleanup cleanup).mapError protocolError
  return { store with manager }

/-- The proofs for received tickets that have none yet. -/
def receivedCleanups : List TicketCleanup :=
  store.manager.tickets.select fun invocation row =>
    if row.cleanup.isNone then
      (store.cleanups.get? invocation).map fun seal_ =>
        ⟨row.ticket.intent.invocationId, row.ticket.intent.releaseSequence, seal_.1, seal_.2,
          row.consumed⟩
    else none

/-- The proofs for start rights whose ticket never arrived. -/
def missingCleanups : List TicketCleanup :=
  (store.manager.grants.values.flatMap fun row => row.grant.tickets).filterMap fun intent =>
    if intent.invocationId ∉ store.manager.tickets.keys ∧
        intent.invocationId ∉ store.manager.recoveredCleanup.keys then
      (store.cleanups.get? intent.invocationId).map fun seal_ =>
        ⟨intent.invocationId, intent.releaseSequence, seal_.1, seal_.2, false⟩
    else none

/-- `cleanup::apply`. -/
def applyCleanups : StoreResult AttachedStore := do
  let received ← store.receivedCleanups.foldlM recordCleanup store
  received.missingCleanups.foldlM recordCleanup received

/-- `manager::release::record_unused_cleanup`. -/
def recordUnused (invocation : EntityId) (seal_ : String × String) (ticket : InvocationTicket) :
    StoreResult AttachedStore := do
  let row ← orError (store.manager.tickets.get? invocation)
    (.sqlite "Query returned no rows")
  let cleanup : TicketCleanup :=
    ⟨invocation, row.ticket.intent.releaseSequence, seal_.1, seal_.2, false⟩
  let manager ← (store.manager.recordUnusedCleanup ticket cleanup).mapError protocolError
  return { store with manager }

/-- `record_attached_cleanup`; `never` is the ticket that the release barrier did
not release. -/
def recordAttachedCleanup (invocation : EntityId) (seal_ : String × String)
    (never : Option InvocationTicket) : StoreResult AttachedStore := do
  let cleanups := (store.cleanups.insert? invocation seal_).getD store.cleanups
  require (cleanups.get? invocation = some seal_)
    (.invalidState "executor cleanup seal changed")
  let sealed := { store with cleanups }
  let noted ← match never with
    | some ticket => sealed.recordUnused invocation seal_ ticket
    | none => .ok sealed
  noted.applyCleanups

/-- Whether the intent of a set-aside command cannot matter any more. -/
def settledIntent : Command → Bool
  | .authorizeInvocation _ _ intent =>
    (store.native.invocations.get? intent.invocationId.entityUuid).any fun row =>
      row.state = .resolved
  | _ => true

/-- `recovery::abandoned`, with the operations that are safe to forget. -/
def settledOperations : List Uuid :=
  (((store.manager.abandoned.rows.insertionSort fun left right =>
    left.2.sequence ≤ right.2.sequence).filter fun row => store.settledIntent row.2.command).map
      Prod.fst).take 256

def acknowledgeSettled : StoreResult AttachedStore := do
  if store.manager.grants.values.any fun row => row.grant.state ≠ .released then return store
  else if store.settledOperations.isEmpty then return store
  else
    let manager ← (store.manager.acknowledgeAbandoned store.settledOperations).mapError
      protocolError
    return { store with manager }

def sealRelease (encoding : Encoding) (operation : Uuid) (key : AllocationKey) :
    StoreResult AttachedStore := do
  let result ← (store.manager.sealRelease encoding key operation).mapError protocolError
  return { store with manager := result.1 }

/-- The first plan whose release was asked for and whose tickets are all proven
clean. -/
def readyRelease : Option AllocationKey :=
  (store.plans.rows.find? fun row =>
    let key := row.2.candidate.key
    row.2.releasePending && !row.2.released &&
      ((store.manager.grants.get? key).any fun grant => grant.sealedRelease.isNone) &&
      store.manager.tickets.values.all fun ticket => ticket.key ≠ key || ticket.cleanup.isSome).map
    fun row => row.2.candidate.key

def readyMillis : Int := 2000

/-- The Job of a plan no longer waits for it, or was not ready for too long. -/
def isStale (now : Int) (plan : PlanRow) (live : LivenessRow) : Bool :=
  plan.waiting && (store.native.jobs.get? plan.jobId).any fun job =>
    job.state ≠ .pending || job.cancelRequested ||
      (job.attemptId.any fun id => id ≠ plan.attemptId) ||
      now < live.readyMs || live.readyMs < now - readyMillis

/-- The plans with their liveness, in the order of a column. -/
def plansBy (column : LivenessRow → Int) (keep : PlanRow → LivenessRow → Bool) :
    List (Uuid × PlanRow × LivenessRow) :=
  (store.plans.rows.filterMap fun row => (store.liveness.get? row.1).bind fun live =>
    if keep row.2 live then some (row.1, row.2, live) else none).insertionSort
      fun left right => column left.2.2 ≤ column right.2.2

/-- The branch of `maintain` for a stale plan. -/
def retireStale (encoding : Encoding) (operation : Uuid) (plan : PlanRow) :
    StoreResult AttachedStore := do
  let key := plan.candidate.key
  if plan.armed then
    (store.updatePlans (fun _ other => other.candidate.key = key) fun _ other =>
      { other with releasePending := true }).sealRelease encoding operation key
  else
    require (plan.candidate.revision + 1 ≤ i64Max)
      (.invalidState "candidate revision exhausted")
    store.enqueue encoding operation (.cancelCandidate key (plan.candidate.revision + 1))

/-- Whether a plan is due for another inspection. -/
def isDue (now : Int) (plan : PlanRow) (live : LivenessRow) : Bool :=
  plan.waiting && !plan.armed && now - readyMillis ≤ live.readyMs && live.readyMs ≤ now &&
    live.pollMs ≤ now - 100

/-- The branch of `maintain` that advertises or inspects a candidate. -/
def poll (encoding : Encoding) (now : Int) (operation : Uuid) (lease : Uuid) (plan : PlanRow)
    (live : LivenessRow) : StoreResult AttachedStore := do
  let refresh : Bool := 10000 ≤ now - live.advertisedMs || now < live.advertisedMs
  let queued ← store.enqueue encoding operation
    (if refresh then .candidateUpsert plan.candidate else .inspect (some plan.candidate.key))
  return { queued with
    liveness := queued.liveness.update lease fun row =>
      { row with
        pollMs := now
        advertisedMs := if refresh then now else row.advertisedMs } }

/-- `maintain`; the result says whether an operation was added. -/
def maintain (encoding : Encoding) (now : Int) (operation : Uuid) :
    StoreResult (AttachedStore × Bool) := do
  let settled ← store.acknowledgeSettled
  if 64 ≤ settled.manager.outbox.keys.length then
    let queued ← settled.enqueue encoding operation (.acknowledge settled.manager.applied)
    return (queued, true)
  else match settled.readyRelease with
    | some key =>
      let sealed ← settled.sealRelease encoding operation key
      return (sealed, true)
    | none => match (settled.plansBy LivenessRow.readyMs (settled.isStale now)).head? with
      | some (_, plan, _) =>
        let retired ← settled.retireStale encoding operation plan
        return (retired, true)
      | none => match (settled.plansBy LivenessRow.pollMs (isDue now)).head? with
        | some (lease, plan, live) =>
          let polled ← settled.poll encoding now operation lease plan live
          return (polled, true)
        | none => return (settled, false)

/-- The plans with an allocation key. -/
def named (key : AllocationKey) (_ : Uuid) (plan : PlanRow) : Bool := plan.candidate.key = key

/-- Leases of plans with this key whose release was asked for and confirmed. -/
def confirmed (key : AllocationKey) (id : Uuid) (_ : LeaseRow) : Bool :=
  (store.plans.get? id).any fun plan =>
    plan.candidate.key = key && plan.releasePending && plan.released

/-- A confirmed release of an allocation. -/
def settleKey (key : AllocationKey) : StoreResult AttachedStore :=
  let settled := store.updatePlans (named key) fun _ plan => { plan with released := true }
  settled.releaseLeases (settled.confirmed key)

/-- The plan that waits for this Grant. -/
def awaits (grant : GrantSnapshot) (_ : Uuid) (plan : PlanRow) : Bool :=
  plan.candidate = grant.candidate && !plan.released && !plan.releasePending

/-- The first match of `accept`. -/
def acceptLocally (request : Request) : Outcome → StoreResult AttachedStore
  | .grant grant =>
    if grant.state = .armed then do
      require
        ((store.plans.rows.filter fun row => awaits grant row.1 row.2).length = 1)
        (.invalidState "Armed Grant has no matching local candidate")
      return store.updatePlans (awaits grant) fun _ plan => { plan with armed := true }
    else .ok store
  | .released .. => match request.command with
    | .release release => store.settleKey release.key
    | _ => .error (.io "internal error: entered unreachable code")
  | .reconciled _ released => released.foldlM settleKey store
  | _ => .ok store

def retireSlot (key : AllocationKey) : AttachedStore :=
  store.updatePlans
    (fun _ plan => plan.candidate.key = key && !plan.committed && !plan.released)
    fun lease plan => { plan with released := true, slot := plan.slot.retire lease }

/-- Retire the slot of a released plan. -/
def retireReleased (key : AllocationKey) : AttachedStore :=
  store.updatePlans (fun _ plan => plan.candidate.key = key && plan.released)
    fun lease plan => { plan with slot := plan.slot.retire lease }

/-- Whether an Offer can still be armed: its Job is pending and was ready a moment
ago. -/
def readyToArm (now : Int) (key : AllocationKey) (grant : GrantSnapshot) : Bool :=
  store.plans.rows.any fun row =>
    row.2.candidate.key = key && row.2.candidate = grant.candidate && !row.2.armed &&
      row.2.waiting &&
      ((store.native.jobs.get? row.2.jobId).any fun job =>
        job.state = .pending && !job.cancelRequested && job.attemptId = some row.2.attemptId) &&
      (store.liveness.get? row.1).any fun live =>
        now - readyMillis ≤ live.readyMs && live.readyMs ≤ now

/-- The key whose candidate a command takes back. -/
def takenBack : Command → Option AllocationKey
  | .cancelCandidate key _ => some key
  | .withdraw key _ => some key
  | _ => none

/-- The arm of `queue::accepted` for an inspected candidate. -/
def acceptInspection (encoding : Encoding) (now : Int) (operation : Uuid) (key : AllocationKey)
    (grants : List GrantSnapshot) (truncated : Bool) : StoreResult AttachedStore := do
  require
    (!truncated && grants.length ≤ 1 && grants.all fun grant => grant.candidate.key = key)
    (.invalidState "candidate inspection returned another allocation")
  (grants.filter fun grant => grant.state = .offered).foldlM
    (fun store grant =>
      if store.readyToArm now key grant then
        store.enqueue encoding operation (.arm key grant.offerNonce)
      else .ok store)
    store

/-- The arm of `queue::accepted` for an accepted cancellation. -/
def acceptCancellation (key : AllocationKey) : StoreResult AttachedStore := do
  let plan ← orError (store.planOf key) (.sqlite "Query returned no rows")
  require (!plan.2.armed)
    (.invalidState "candidate cancellation cannot release an Armed Grant")
  return store.retireSlot key

/-- `queue::accepted`. -/
def acceptQueued (encoding : Encoding) (now : Int) (operation : Uuid) (request : Request) :
    Outcome → StoreResult AttachedStore
  | .inspection grants truncated => match request.command with
    | .inspect (some key) => store.acceptInspection encoding now operation key grants truncated
    | _ => .ok store
  | .accepted _ => match takenBack request.command with
    | some key => store.acceptCancellation key
    | none => .ok store
  | .released .. => match request.command with
    | .release release => .ok (store.retireReleased release.key)
    | _ => .ok store
  | .reconciled _ released => .ok (released.foldl retireReleased store)
  | _ => .ok store

/-- A granted Lease with the plan of an allocation. -/
def retained (key : AllocationKey) : Bool :=
  store.plans.rows.any fun row => row.2.candidate.key = key &&
    (store.native.leases.get? row.1).any fun lease => lease.state = .granted

/-- Leases of plans with this key whose release was asked for. -/
def asked (key : AllocationKey) (id : Uuid) (_ : LeaseRow) : Bool :=
  (store.plans.get? id).any fun plan => plan.candidate.key = key && plan.releasePending

/-- The arm of `synchronize` for a released Grant. -/
def synchronizeReleased (key : AllocationKey) (pending : Bool) (grant : GrantSnapshot) :
    StoreResult AttachedStore := do
  require grant.sealedRelease.isSome (.invalidState "imported Release lost its seal")
  require (!store.retained key || pending)
    (.invalidState "released remote Grant still backs local execution")
  let settled := store.updatePlans (named key) fun _ plan => { plan with released := true }
  let released ← settled.releaseLeases (settled.asked key)
  return released.updatePlans (named key) fun lease plan =>
    { plan with slot := plan.slot.retire lease }

/-- One round of the loop of `synchronize`. -/
def synchronizeGrant (grant : GrantSnapshot) : StoreResult AttachedStore := do
  let key := grant.candidate.key
  let plan ← orError (store.planOf key)
    (.invalidState "imported Grant has no continuous local plan")
  require (plan.2.candidate = grant.candidate)
    (.invalidState "imported Grant differs from its local candidate")
  match grant.state with
  | .armed | .uncertain => do
      require (!plan.2.released)
        (.invalidState "released local plan reappeared as an outstanding Grant")
      return store.updatePlans (fun _ plan => plan.candidate.key = key && !plan.armed)
        fun _ plan => { plan with armed := true }
  | .released => store.synchronizeReleased key plan.2.releasePending grant
  | .offered | .expired => return store

def synchronize : StoreResult AttachedStore :=
  ((store.manager.grants.values.map LocalGrant.grant).filter fun grant =>
    grant.state ≠ .offered).foldlM synchronizeGrant store

/-- Outcomes that complete an inventory or a reconciliation. -/
def completes : Outcome → Bool
  | .inventoryPage _ none _ => true
  | .reconciled .. => true
  | _ => false

def accept (encoding : Encoding) (now : Int) (operation : Uuid) (request : Request)
    (reply : Reply) : StoreResult (AttachedStore × Bool) := do
  let (manager, changed) ← (store.manager.accept encoding request reply).mapError protocolError
  if !changed then return ({ store with manager }, false)
  else
    let applied ← { store with manager }.acceptLocally request reply.outcome
    let queued ← applied.acceptQueued encoding now operation request reply.outcome
    let cleaned ← queued.applyCleanups
    let synchronized ← if completes reply.outcome then cleaned.synchronize else .ok cleaned
    return (synchronized, true)

/-- What `Driver::step` records in the mode after a reply. -/
def LocalMode.hear (mode : LocalMode) : Outcome → LocalMode
  | .inventoryPage _ _ configuration => { mode with configuration := some configuration }
  | .reconciled .. => { mode with connected := true }
  | _ => mode

/-- The last transaction of `Driver::step`. -/
def acceptReply (encoding : Encoding) (now : Int) (operation : Uuid) (request : Request)
    (reply : Reply) : StoreResult AttachedStore := do
  let accepted ← store.accept encoding now operation request reply
  return { accepted.1 with mode := LocalMode.hear accepted.1.mode reply.outcome }

/-! ## Connections -/

/-- The transaction of `Driver::connect`. -/
def connect (encoding : Encoding) (session : SessionIdentity) (participant : ParticipantSnapshot) :
    StoreResult AttachedStore := do
  let manager ← (store.manager.connect encoding session participant).mapError protocolError
  return { store with
    manager
    mode := { store.mode with session := some session, connected := false } }

/-- `attached_offline`. -/
def offline : AttachedStore := { store with mode := { store.mode with connected := false } }

end AttachedStore

end Stillyard
