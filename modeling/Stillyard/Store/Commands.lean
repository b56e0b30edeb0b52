import Stillyard.Store.Ticket

/-!
# Manager commands

`apply_command` with one definition for each command.  A command runs inside a
savepoint: an error undoes all of it.  Text keys of the program's maps are the
allocation keys themselves; their order is the order of the texts.
-/

namespace Stillyard

open Relational Fallible

/-- The text limits on names inside a candidate. -/
def boundedName (name : String) : Bool :=
  !name.isEmpty && name.utf8ByteSize ≤ 1024 && !name.toList.contains (Char.ofNat 0)

/-- The owner of an allocation belongs to the manager's store. -/
def ownerStoreMatches (candidate : Candidate) : Bool :=
  match candidate.owner with
  | .work jobId attemptId =>
    jobId.storeUuid = candidate.key.managerStoreUuid && attemptId.storeUuid = jobId.storeUuid
  | .probe jobId invocationId =>
    jobId.storeUuid = candidate.key.managerStoreUuid && invocationId.storeUuid = jobId.storeUuid

def validateCandidate (config : CoordinatorConfig) (session : SessionIdentity)
    (candidate : Candidate) : StoreResult Unit := do
  owned session candidate.key
  require (config.encoding.candidateBytes candidate ≤ maxFrameBytes / 2)
    (rejected "limit_exceeded" "candidate exceeds the allocation byte budget")
  require (candidate.observed.all config.observedValid)
    (.invalidSpec "observed resource policy is invalid")
  require (candidate.quiet.all config.quietValid)
    (.invalidSpec "quiet policy is invalid")
  require
    (ownerStoreMatches candidate && -3 ≤ candidate.priority && candidate.priority ≤ 3 &&
      candidate.revision ≠ 0 && candidate.revision ≤ i64Max &&
      candidate.configurationSha256 = config.configSha256)
    (rejected "invalid_candidate"
      "candidate owner, priority, revision or configuration is invalid")
  let claims := candidate.claims
  require
    (claims.scalars.rows.length ≤ 256 &&
      claims.sharedFences.length + claims.exclusiveFences.length ≤ 512 &&
      claims.impacts.length ≤ 64 &&
      (claims.scalars.keys ++ claims.sharedFences ++ claims.exclusiveFences ++
        claims.impacts).all boundedName)
    (rejected "limit_exceeded" "candidate vector exceeds shape bounds")

/-- A candidate that counts against the ready budgets. -/
def activeCandidate (store : MachineStore) (now : Int) (key : AllocationKey)
    (row : CandidateRow) : Bool :=
  (row.state = .ready && now < row.expiresMs) ||
    (store.grants.get? key).any fun grant => grant.snapshot.state.outstanding

/-- `active_candidate_counts`: in the domain, and on the machine. -/
def activeCandidateCounts (store : MachineStore) (domain : ExecutionDomainId)
    (except_ : AllocationKey) (now : Int) : Nat × Nat :=
  let active := store.candidates.rows.filter fun row =>
    row.1 ≠ except_ && activeCandidate store now row.1 row.2
  ((active.filter fun row => row.2.domainId = domain).length, active.length)

/-- The checks on the stored row when a candidate is sent again. -/
def checkRevision (prior : CandidateRow) (candidate : Candidate) : StoreResult Unit := do
  require
    (prior.candidate.claims = candidate.claims && prior.candidate.owner = candidate.owner &&
      prior.candidate.priority = candidate.priority &&
      prior.candidate.observed = candidate.observed && prior.candidate.quiet = candidate.quiet)
    (rejected "conflict" "allocation owner, claims and priority are immutable")
  require
    (prior.revision ≤ candidate.revision && prior.state ≠ .canceled && prior.state ≠ .released)
    (rejected "stale" "candidate revision was withdrawn or retired")
  require (candidate.revision ≠ prior.revision || prior.candidate = candidate)
    (rejected "conflict" "candidate revision payload changed")
  require (candidate.revision ≠ prior.revision || prior.state = .ready)
    (rejected "stale" "withdrawn revision cannot become ready again")

/-- `INSERT OR IGNORE INTO machine_queue`. -/
def MachineStore.enqueueOwner (store : MachineStore) (owner : QueueOwner) (acceptedMs : Int)
    (priority : Option Int) : MachineStore :=
  if owner ∈ store.queue.keys then store
  else { store with
    queue := store.queue.set owner ⟨store.queueSequence + 1, acceptedMs, priority⟩
    queueSequence := store.queueSequence + 1 }

/-- `Command::CandidateUpsert`. -/
def applyCandidateUpsert (config : CoordinatorConfig) (session : SessionIdentity)
    (recovering authorityClosed : Bool) (now : Int) (store : MachineStore)
    (candidate : Candidate) : StoreResult (MachineStore × Outcome) := do
  validateCandidate config session candidate
  require (!recovering && !authorityClosed)
    (rejected "history_unknown" "candidate admission requires completed reconciliation")
  let key := candidate.key
  let counts := activeCandidateCounts store key.domainId key now
  require (counts.1 < maxDomainCandidates && counts.2 < maxMachineCandidates)
    (rejected "limit_exceeded" "ready candidate budget exhausted")
  let expiresMs := i64Clamp (now + candidateMillis)
  match store.candidates.get? key with
  | some prior =>
    checkRevision prior candidate
    let row : CandidateRow := { prior with
      candidate, revision := candidate.revision, state := .ready, expiresMs }
    return ({ store with candidates := store.candidates.set key row },
      .accepted candidate.revision)
  | none =>
    let owner := QueueOwner.remote candidate.owner.jobId
    let store := store.enqueueOwner owner now (some candidate.priority)
    require
      ((store.queue.get? owner).any fun row => row.priority = some candidate.priority)
      (rejected "conflict" "retry changed the original accepted priority")
    let row : CandidateRow :=
      ⟨key.domainId, candidate, owner, .ready, expiresMs, candidate.revision, none, none⟩
    return ({ store with candidates := store.candidates.set key row },
      .accepted candidate.revision)

/-- `Command::Withdraw` and `Command::CancelCandidate`: the same but for the
state that the candidate gets. -/
def applyWithdrawal (session : SessionIdentity) (state : CandidateState) (store : MachineStore)
    (key : AllocationKey) (revision : Nat) : StoreResult (MachineStore × Outcome) := do
  owned session key
  let row ← orError
    ((store.candidates.get? key).filter fun row => row.revision < revision ∧ revision ≤ i64Max)
    (rejected "stale" "withdrawal needs a newer candidate revision")
  let withdrawn : CandidateRow := { row with revision, state, reservationDeadlineMs := none }
  let store := { store with candidates := store.candidates.set key withdrawn }
  match (store.grants.get? key).filter fun row => row.snapshot.state = .offered with
  | some offered =>
    let store ← saveGrant store { offered.snapshot with state := .expired } none
    return (store, .accepted revision)
  | none => return (store, .accepted revision)

/-- `Command::Arm`. -/
def applyArm (config : CoordinatorConfig) (session : SessionIdentity)
    (recovering authorityClosed : Bool) (now : Int) (store : MachineStore)
    (key : AllocationKey) (offerNonce : Uuid) : StoreResult (MachineStore × Outcome) := do
  owned session key
  let grant ← loadGrant store key
  require (grant.offerNonce = offerNonce) (rejected "stale" "Offer nonce changed")
  match grant.state with
  | .armed | .uncertain => return (store, .grant grant)
  | .offered =>
    require
      (!recovering && !authorityClosed && now < grant.offerDeadlineUnixMillis &&
        grant.candidate.configurationSha256 = config.configSha256)
      (rejected "stale" "Offer expired or authority/readiness needs reconciliation")
    let row ← orError (store.candidates.get? key) (.sqlite "no candidate row")
    require
      (row.state = .ready && row.revision = grant.candidate.revision && now < row.expiresMs)
      (rejected "stale" "candidate readiness was withdrawn")
    let grant := { grant with state := .armed, armedUnixMillis := some now }
    let store ← saveGrant store grant none
    return (store, .grant grant)
  | .expired | .released =>
    .error (rejected "stale" "allocation is retired or no longer offered")

/-- `Command::ReportUncertain`. -/
def applyReportUncertain (session : SessionIdentity) (store : MachineStore)
    (key : AllocationKey) (offerNonce : Uuid) (reason : String) :
    StoreResult (MachineStore × Outcome) := do
  owned session key
  require (boundedName reason)
    (rejected "invalid_spec" "uncertainty needs a bounded reason")
  let grant ← loadGrant store key
  require (grant.offerNonce = offerNonce && grant.state.mayRun)
    (rejected "stale" "uncertainty requires an outstanding Armed allocation")
  let grant := { grant with state := .uncertain, uncertaintyReason := some reason }
  let store ← saveGrant store grant none
  return (store, .grant grant)

/-- `Command::AuthorizeInvocation`. -/
def applyAuthorizeInvocation (config : CoordinatorConfig) (request : Request)
    (recovering authorityClosed : Bool) (readiness : Readiness) (nativeDebits : List ResolvedClaims)
    (store : MachineStore) (key : AllocationKey) (offerNonce : Uuid) (intent : InvocationIntent) :
    StoreResult (MachineStore × Outcome) := do
  owned request.session key
  let grant ← loadGrant store key
  require
    (!recovering && !authorityClosed && grant.state = .armed && grant.offerNonce = offerNonce &&
      grant.candidate.configurationSha256 = config.configSha256)
    (rejected "stale" "Invocation authorization needs a current reconciled Armed Grant")
  authorize config request store grant intent readiness nativeDebits

/-- One round of the proof check of `apply_release`. -/
def coverTicket (grant : GrantSnapshot) (release : SealedRelease) (covered : List EntityId)
    (ticket : InvocationIntent) : StoreResult (List EntityId) := do
  let proof ← orError
    (release.tickets.find? fun proof =>
      proof.invocationId = ticket.invocationId && proof.releaseSequence = ticket.releaseSequence)
    (rejected "cleanup_incomplete" "issued Invocation ticket has no sealed proof")
  require
    (!covered.contains proof.invocationId && proof.boundarySha256 = ticket.boundarySha256 &&
      isDigest proof.proofSha256 &&
      !((grant.tickets.filterMap InvocationIntent.previousCleanup).any fun prior =>
        prior.invocationId = proof.invocationId && prior ≠ proof))
    (rejected "cleanup_incomplete" "cleanup proof identity is invalid or duplicated")
  return proof.invocationId :: covered

def applyRelease (session : SessionIdentity) (now : Int) (store : MachineStore)
    (release : SealedRelease) : StoreResult (MachineStore × GrantSnapshot) := do
  owned session release.key
  let grant ← loadGrant store release.key
  require (grant.sealedRelease.all fun old => old = release)
    (rejected "conflict" "a sealed release cannot change its payload")
  require (grant.offerNonce = release.offerNonce && release.sealedSequence ≠ 0)
    (rejected "conflict" "release seal does not name the allocated Offer")
  require (grant.state.mayRun || grant.state = .released)
    (rejected "stale" "release does not cover a potentially used Grant")
  require (release.tickets.length = grant.tickets.length)
    (rejected "cleanup_incomplete" "release does not cover every issued ticket")
  let _ ← grant.tickets.foldlM (coverTicket grant release) []
  let grant := { grant with
    state := .released
    releasedUnixMillis := some (grant.releasedUnixMillis.getD now)
    sealedRelease := some release }
  let store ← saveGrant store grant none
  let store := { store with candidates := store.candidates.update release.key fun row =>
    { row with state := .released, reservationDeadlineMs := none } }
  return (store, grant)

/-- `Command::Release`. -/
def applyReleaseCommand (session : SessionIdentity) (now : Int) (store : MachineStore)
    (release : SealedRelease) : StoreResult (MachineStore × Outcome) := do
  let (store, grant) ← applyRelease session now store release
  return (store, .released grant.grantId release.sealedSequence)

def compactOperations (store : MachineStore) (domain : ExecutionDomainId) (floor : Nat) :
    MachineStore :=
  { store with
    operations := store.operations.filter fun key _ => !(key.1 = domain && key.2 ≤ floor)
    domains := store.domains.update domain fun row =>
      { row with retiredSequenceFloor := max row.retiredSequenceFloor floor } }

/-- `Command::Acknowledge`. -/
def applyAcknowledge (domain : ExecutionDomainId) (store : MachineStore)
    (throughSequence : Nat) : StoreResult (MachineStore × Outcome) := do
  let row ← orError (store.domains.get? domain) (.sqlite "no domain row")
  require
    (throughSequence ≤ row.acceptedSequence && row.retiredSequenceFloor ≤ throughSequence)
    (rejected "stale" "acknowledgement is outside the continuous accepted interval")
  return (compactOperations store domain throughSequence, .acknowledged throughSequence)

/-- The order of the keys' texts. -/
def AllocationKey.le (left right : AllocationKey) : Bool := !right.lt left

/-- The rows that `inventory_page` reads, in key order. -/
def inventoryRows (store : MachineStore) (domain : ExecutionDomainId)
    (exact_ after : Option AllocationKey) (outstandingOnly : Bool) : List GrantSnapshot :=
  let rows := store.grants.rows.filter fun row =>
    ((store.candidates.get? row.1).any fun candidate => candidate.domainId = domain) &&
      exact_.all (fun key => row.1 = key) && after.all (fun key => key.lt row.1) &&
      (!outstandingOnly || row.2.snapshot.state.outstanding)
  (rows.insertionSort fun left right => left.1.le right.1).map fun row => row.2.snapshot

/-- The loop of `inventory_page`. -/
def fillPage (grantBytes : GrantSnapshot → Nat) (limit : Nat) :
    List GrantSnapshot → List GrantSnapshot → Nat → StoreResult (List GrantSnapshot × Bool)
  | [], grants, _ => .ok (grants, false)
  | grant :: rest, grants, bytes =>
    let total := bytes + grantBytes grant + 1
    if grants.length = limit ∨ maxFrameBytes - 4096 < total then
      if grants.isEmpty then
        .error (rejected "limit_exceeded"
          "single allocation exceeds the inventory page byte budget")
      else .ok (grants, true)
    else fillPage grantBytes limit rest (grants ++ [grant]) total

def inventoryPage (config : CoordinatorConfig) (store : MachineStore)
    (domain : ExecutionDomainId) (exact_ after : Option AllocationKey) (limit : Nat)
    (outstandingOnly : Bool) : StoreResult (List GrantSnapshot × Bool) := do
  require (limit ≠ 0 && limit ≤ 256)
    (rejected "limit_exceeded" "inventory page size must be 1..256")
  let rows := inventoryRows store domain exact_ after outstandingOnly
  fillPage config.encoding.grantBytes limit (rows.take (limit + 1)) [] 0

/-- `Command::InspectPage`. -/
def applyInspectPage (config : CoordinatorConfig) (session : SessionIdentity)
    (store : MachineStore) (after : Option AllocationKey) (limit : Nat) :
    StoreResult (MachineStore × Outcome) := do
  after.forM (owned session)
  let (grants, truncated) ← inventoryPage config store session.domainId none after limit true
  let next := if truncated then grants.getLast?.map fun grant => grant.candidate.key else none
  return (store, .inventoryPage grants next config.configSha256)

/-- `Command::Inspect`. -/
def applyInspect (config : CoordinatorConfig) (session : SessionIdentity) (store : MachineStore)
    (key : Option AllocationKey) : StoreResult (MachineStore × Outcome) := do
  key.forM (owned session)
  let (grants, truncated) ← inventoryPage config store session.domainId key none 256 false
  return (store, .inspection grants truncated)

/-! ## Reconciliation -/

/-- `Command::ReconcileBegin`. -/
def applyReconcileBegin (config : CoordinatorConfig) (domain : ExecutionDomainId)
    (store : MachineStore) (command : Command) (snapshotId : Uuid)
    (beginSequence endSequence pageCount : Nat) (configurationSha256 : String) :
    StoreResult (MachineStore × Outcome) := do
  let row ← orError (store.domains.get? domain) (.sqlite "no domain row")
  require
    (snapshotId ≠ 0 && pageCount ≤ maxDomainCandidates && beginSequence ≤ endSequence &&
      endSequence = row.acceptedSequence && beginSequence = 0 &&
      configurationSha256 = config.configSha256)
    (rejected "history_unknown"
      "snapshot sequence, configuration or page bounds are discontinuous")
  return ({ store with
      reconciles := store.reconciles.set domain
        ⟨snapshotId, command, List.replicate pageCount none⟩
      domains := store.domains.update domain fun row =>
        { row with reconciliationRequired := true } },
    .accepted endSequence)

/-- The begun reconciliation with this snapshot identity. -/
def begunReconcile (store : MachineStore) (domain : ExecutionDomainId) (snapshotId : Uuid) :
    StoreResult ReconcileRow :=
  orError ((store.reconciles.get? domain).filter fun row => row.snapshotId = snapshotId)
    (rejected "stale" "snapshot not begun")

/-- `Command::ReconcilePage`. -/
def applyReconcilePage (config : CoordinatorConfig) (session : SessionIdentity)
    (store : MachineStore) (snapshotId : Uuid) (index : Nat)
    (allocations : List ReconcileAllocation) : StoreResult (MachineStore × Outcome) := do
  let row ← begunReconcile store session.domainId snapshotId
  require
    (allocations.length ≤ maxReconcilePage && index < row.pages.length &&
      (row.pages.take index).all Option.isSome)
    (rejected "history_unknown" "snapshot page is oversized or out of order")
  allocations.forM fun allocation => owned session allocation.key
  require ((row.pages[index]?.join).all fun old => old = allocations)
    (rejected "conflict" "snapshot page changed")
  let pages := row.pages.set index (some allocations)
  require
    (((pages.filterMap id).map List.length).sum ≤ maxDomainCandidates &&
      config.encoding.pagesBytes pages ≤ maxReconcileBytes)
    (rejected "limit_exceeded" "reconciliation inventory exceeds durable count/byte bounds")
  return ({ store with reconciles := store.reconciles.set session.domainId { row with pages } },
    .accepted index)

/-- The outstanding Grants of a domain. -/
def outstandingGrants (store : MachineStore) (domain : ExecutionDomainId) :
    List (AllocationKey × GrantSnapshot) :=
  store.grants.select fun key row =>
    if ((store.candidates.get? key).any fun candidate => candidate.domainId = domain) &&
        row.snapshot.state.outstanding then
      some (key, row.snapshot)
    else none

/-- Every outstanding Grant has to be in the snapshot with all its tickets. -/
def coverGrant (inventory : List ReconcileAllocation) (key : AllocationKey)
    (grant : GrantSnapshot) : StoreResult Unit := do
  let recorded ← orError (inventory.find? fun record => record.key = key)
    (rejected "history_unknown" "snapshot omitted an outstanding allocation")
  require (recorded.offerNonce = grant.offerNonce && recorded.tickets = grant.tickets)
    (rejected "history_unknown" "snapshot does not cover all issued start rights")

/-- One round of the last loop of `Command::ReconcileCommit`. -/
def reconcileRecord (session : SessionIdentity) (now : Int)
    (state : MachineStore × List AllocationKey) (record : ReconcileAllocation) :
    StoreResult (MachineStore × List AllocationKey) := do
  if record.key ∉ state.1.grants.keys then
    require
      (record.offerNonce = 0 && record.tickets.isEmpty && record.sealedRelease.isNone)
      (rejected "history_unknown" "manager has start rights absent from coordinator history")
    return state
  else
    let grant ← loadGrant state.1 record.key
    require (record.offerNonce = grant.offerNonce && record.tickets = grant.tickets)
      (rejected "history_unknown"
        "snapshot changed a retained allocation identity or ticket inventory")
    match record.sealedRelease with
    | none => return state
    | some release =>
      require (release.key = record.key && release.offerNonce = record.offerNonce)
        (rejected "conflict" "snapshot seal belongs to another allocation")
      let (store, _) ← applyRelease session now state.1 release
      return (store, state.2 ++ [record.key])

/-- `Command::ReconcileCommit`. -/
def applyReconcileCommit (session : SessionIdentity) (now : Int) (store : MachineStore)
    (snapshotId : Uuid) : StoreResult (MachineStore × Outcome) := do
  let row ← begunReconcile store session.domainId snapshotId
  match row.manifest with
  | .reconcileBegin _ _ endSequence _ digest _ =>
    let pages ← orError (row.pages.mapM id)
      (rejected "history_unknown" "snapshot has missing pages")
    require (pages = digest) (rejected "history_unknown" "snapshot digest mismatch")
    let inventory := pages.flatten
    require (inventory.map ReconcileAllocation.key).Nodup
      (rejected "conflict" "duplicate allocation in snapshot")
    (outstandingGrants store session.domainId).forM fun grant =>
      coverGrant inventory grant.1 grant.2
    let sorted := inventory.insertionSort fun left right => left.key.le right.key
    let (store, released) ← sorted.foldlM (reconcileRecord session now) (store, [])
    return ({ store with
        domains := store.domains.update session.domainId fun row =>
          { row with reconciliationRequired := false }
        reconciles := store.reconciles.erase session.domainId },
      .reconciled endSequence released)
  | _ => .error (.invalidState "invalid reconciliation manifest")

/-! ## All commands -/

def applyCommand (config : CoordinatorConfig) (request : Request)
    (recovering authorityClosed : Bool) (now : Int) (readiness : Readiness)
    (nativeDebits : List ResolvedClaims) (store : MachineStore) :
    StoreResult (MachineStore × Outcome) :=
  let session := request.session
  match request.command with
  | .acknowledge throughSequence => applyAcknowledge session.domainId store throughSequence
  | .authorizeInvocation key offerNonce intent =>
    applyAuthorizeInvocation config request recovering authorityClosed readiness nativeDebits
      store key offerNonce intent
  | .arm key offerNonce =>
    applyArm config session recovering authorityClosed now store key offerNonce
  | .release release => applyReleaseCommand session now store release
  | .reportUncertain key offerNonce reason =>
    applyReportUncertain session store key offerNonce reason
  | .candidateUpsert candidate =>
    applyCandidateUpsert config session recovering authorityClosed now store candidate
  | .withdraw key revision => applyWithdrawal session .withdrawn store key revision
  | .cancelCandidate key revision => applyWithdrawal session .canceled store key revision
  | .inspectPage after limit => applyInspectPage config session store after limit
  | .inspect key => applyInspect config session store key
  | .reconcileBegin snapshotId beginSequence endSequence pageCount _ configurationSha256 =>
    applyReconcileBegin config session.domainId store request.command snapshotId beginSequence
      endSequence pageCount configurationSha256
  | .reconcilePage snapshotId index allocations =>
    applyReconcilePage config session store snapshotId index allocations
  | .reconcileCommit snapshotId => applyReconcileCommit session now store snapshotId

end Stillyard
