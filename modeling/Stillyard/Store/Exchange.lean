import Stillyard.Store.Commands

/-!
# Exchanging operations with managers

`machine_exchange` answers one request: a known operation is answered from the
history, the next one is applied and recorded.  Operations that change start
rights are first published as an intent in the authority journal, then committed
in SQLite, then finished in the journal; `reconcilePending` completes an intent
that an interruption left behind.  Where the interruption strikes is an input.
-/

namespace Stillyard

open Relational Fallible

/-- A coordinator's durable state. -/
structure Coordinator where
  store : MachineStore
  journal : Journal

def Coordinator.initial (config : CoordinatorConfig) : Coordinator :=
  ⟨MachineStore.initial config, Journal.initial config⟩

/-- The result of a call: the durable state it leaves, the operations whose
effects it committed in SQLite, and its answer. -/
structure CallResult (α : Type) where
  coordinator : Coordinator
  commits : List (Request × Outcome)
  answer : StoreResult α

/-- A call that commits no operation. -/
def CallResult.without {α : Type} (coordinator : Coordinator) (answer : StoreResult α) :
    CallResult α :=
  ⟨coordinator, [], answer⟩

/-- Continue a call unless it failed. -/
def CallResult.andThen {α : Type} (first : CallResult Unit) (rest : Coordinator → CallResult α) :
    CallResult α :=
  match first.answer with
  | .error error => ⟨first.coordinator, first.commits, .error error⟩
  | .ok _ =>
    let second := rest first.coordinator
    ⟨second.coordinator, first.commits ++ second.commits, second.answer⟩

/-- Reasons in the journal that close admission. -/
def Journal.blocked (journal : Journal) : Bool := journal.pending.isSome || journal.pendingReset

/-- One round of the loop of `proposed_machine_commit`. -/
def proposePermission (retired : List AllocationKey) (permissions : Table EntityId GrantSnapshot)
    (grant : GrantSnapshot) : StoreResult (Table EntityId GrantSnapshot) :=
  if grant.state = .released then .ok permissions
  else if grant.candidate.key ∈ retired then
    .error (.io "retired allocation cannot acquire new start rights")
  else if permissions.values.any fun old =>
      old.candidate.key = grant.candidate.key &&
        (old.grantId ≠ grant.grantId || old.offerNonce ≠ grant.offerNonce) then
    .error (.io "allocation already owns another potentially used Grant")
  else .ok (permissions.set grant.grantId grant)

def proposedMachineCommit (journal : Journal) (intent : MachineCommitIntent) :
    StoreResult Journal := do
  let anchor ← orError (journal.anchors.get? intent.request.session.domainId)
    (.io "machine commit participant anchor is absent")
  require (anchor.session = some intent.request.session)
    (.io "machine commit session was fenced")
  match journal.pending with
  | some pending =>
    require (pending = intent) (.io "another machine commit requires reconciliation")
    return journal
  | none =>
    let permissions ← intent.grants.foldlM (proposePermission journal.retiredAllocations)
      journal.permissions
    return { journal with permissions, pending := some intent }

/-- The journal entries that a finished release removes and retires. -/
def retireGrants (journal : Journal) (grants : List GrantSnapshot) : Journal :=
  grants.foldl
    (fun journal grant =>
      if grant.state = .released then
        { journal with
          retiredAllocations := grant.candidate.key :: journal.retiredAllocations
          permissions := journal.permissions.erase grant.grantId }
      else journal)
    journal

/-- The retired floor of a participant after an operation is finished. -/
def finishedFloor (intent : MachineCommitIntent) (anchor : ParticipantAnchor) :
    StoreResult Nat :=
  match intent.outcome with
  | .acknowledged throughSequence =>
    if throughSequence < intent.request.requestSequence then
      .ok (max anchor.retiredSequenceFloor throughSequence)
    else .error (.io "invalid journaled acknowledgement")
  | _ => .ok anchor.retiredSequenceFloor

def finishMachineCommit (journal : Journal) (operationId : Uuid) : StoreResult Journal :=
  match journal.pending with
  | none => .ok journal
  | some intent => do
      require (intent.request.operationId = operationId)
        (.io "machine commit identity changed")
      let domain := intent.request.session.domainId
      let anchor ← orError (journal.anchors.get? domain)
        (.io "machine commit participant anchor missing")
      let floor ← finishedFloor intent anchor
      let finished : ParticipantAnchor := { anchor with
        acceptedSequence := max anchor.acceptedSequence intent.request.requestSequence
        retiredSequenceFloor := floor }
      return { retireGrants journal intent.grants with
        pending := none
        anchors := journal.anchors.set domain finished }

def checkpointMachineSequence (journal : Journal) (domain : ExecutionDomainId) (sequence : Nat) :
    Journal :=
  { journal with anchors := journal.anchors.update domain fun anchor =>
    { anchor with acceptedSequence := max anchor.acceptedSequence sequence } }

/-- `compact_machine_retirements`: retirements with a Released row in SQL need
no second record. -/
def compactMachineRetirements (coordinator : Coordinator) : Coordinator :=
  if coordinator.journal.blocked then coordinator
  else { coordinator with journal := { coordinator.journal with
    retiredAllocations := coordinator.journal.retiredAllocations.filter fun key =>
      !((coordinator.store.grants.get? key).any fun row => row.snapshot.state = .released) } }

/-! ## Completing an interrupted commit -/

/-- Record an operation as the last accepted one. -/
def recordOperation (store : MachineStore) (request : Request) (outcome : Outcome) : MachineStore :=
  let domain := request.session.domainId
  { store with
    operations := store.operations.set (domain, request.requestSequence)
      ⟨request.operationId, request.command, outcome⟩
    domains := store.domains.update domain fun row =>
      { row with acceptedSequence := request.requestSequence }
    revision := store.revision + 1 }

/-- Whether the intent contradicts the operation history. -/
def inconsistentIntent (store : MachineStore) (intent : MachineCommitIntent) : Bool :=
  let request := intent.request
  let accepted := (store.domains.get? request.session.domainId).map DomainRow.acceptedSequence
  match store.operations.get? (request.session.domainId, request.requestSequence) with
  | some row =>
    row.operationId ≠ request.operationId || row.payload ≠ request.command ||
      row.response ≠ intent.outcome || accepted ≠ some request.requestSequence
  | none => accepted.map (· + 1) ≠ some request.requestSequence

/-- One Grant of an intent that is not in SQL yet. -/
def restoreGrant (store : MachineStore) (grant : GrantSnapshot) :
    StoreResult MachineStore := do
  let store ← saveGrant store grant none
  if grant.state = .released then
    return { store with candidates := store.candidates.update grant.candidate.key fun row =>
      { row with state := .released, reservationDeadlineMs := none } }
  else return store

/-- What an intent does besides saving its Grants. -/
def restoreHistory (store : MachineStore) (intent : MachineCommitIntent) : MachineStore :=
  let domain := intent.request.session.domainId
  match intent.outcome with
  | .acknowledged throughSequence => compactOperations store domain throughSequence
  | .reconciled _ _ => { store with
      domains := store.domains.update domain fun row =>
        { row with reconciliationRequired := false }
      reconciles := store.reconciles.erase domain }
  | _ => store

/-- The SQL part of `reconcile_pending_machine_commit`: `none` where the journal
records a reset. -/
def restoreIntent (store : MachineStore) (intent : MachineCommitIntent) :
    StoreResult (Option MachineStore) := do
  let sequence := (intent.request.session.domainId, intent.request.requestSequence)
  if inconsistentIntent store intent then return none
  else if intent.grants.any fun grant => grant.candidate.key ∉ store.grants.keys then return none
  else match store.operations.get? sequence with
    | some _ =>
      let persisted ← intent.grants.mapM fun grant => loadGrant store grant.candidate.key
      return if persisted = intent.grants then some store else none
    | none =>
      let restored ← intent.grants.foldlM restoreGrant store
      return some (recordOperation (restoreHistory restored intent) intent.request
        intent.outcome)

/-- The operation that restoring an intent commits: none if SQL had it. -/
def restoredOperation (store : MachineStore) (intent : MachineCommitIntent) :
    List (Request × Outcome) :=
  let request := intent.request
  match store.operations.get? (request.session.domainId, request.requestSequence) with
  | some _ => []
  | none => [(request, intent.outcome)]

/-- `reconcile_pending_machine_commit`, which may itself be interrupted between
its SQL commit and the journal. -/
def reconcilePending (interrupted : Bool) (coordinator : Coordinator) : CallResult Unit :=
  match coordinator.journal.pending with
  | none => .without coordinator (.ok ())
  | some intent =>
    if coordinator.journal.pendingReset then .without coordinator (.ok ())
    else match restoreIntent coordinator.store intent with
      | .error error => .without coordinator (.error error)
      | .ok none => .without
          ⟨coordinator.store, { coordinator.journal with pendingReset := true }⟩ (.ok ())
      | .ok (some store) =>
        let commits := restoredOperation coordinator.store intent
        if interrupted then
          ⟨⟨store, coordinator.journal⟩, commits, .error (.io "interrupted")⟩
        else match finishMachineCommit coordinator.journal intent.request.operationId with
          | .error error => ⟨⟨store, coordinator.journal⟩, commits, .error error⟩
          | .ok journal => ⟨⟨store, journal⟩, commits, .ok ()⟩

/-! ## The exchange -/

/-- Where an interruption strikes. -/
inductive Fault where
  | none
  | inRecovery
  | beforeJournal
  | afterJournal
  | afterSql
  | afterFinish
  deriving DecidableEq, Repr

/-- What an exchange takes from its surroundings: the clock, other reasons that
close the authority, the host observation, the debits of native Leases, and
whether the journal can hold one more intent. -/
structure ExchangeInput where
  now : Int
  authorityClosed : Bool
  readiness : Readiness
  nativeDebits : List ResolvedClaims
  publication : StoreResult Unit
  fault : Fault

/-- `rejection`: refusals are answers, other errors are not. -/
def rejection : StoreError → StoreResult Outcome
  | .operationRejected code detail => .ok (.rejected code detail)
  | .invalidSpec detail => .ok (.rejected "invalid_spec" detail)
  | other => .error other

/-- `commit_grants`: the Grants whose start rights an outcome changes. -/
def commitGrants (store : MachineStore) (request : Request) :
    Outcome → StoreResult (List GrantSnapshot)
  | .grant grant => .ok (if grant.state.mayRun then [grant] else [])
  | .released grantId _ => match request.command with
    | .release release => do
        let grant ← loadGrant store release.key
        require (grant.grantId = grantId)
          (.invalidState "release Grant identity changed")
        return [grant]
    | _ => .error (.invalidState "release outcome has no allocation")
  | .ticket ticket => do
      let grant ← loadGrant store ticket.key
      return [grant]
  | .reconciled _ released => released.mapM (loadGrant store)
  | _ => .ok []

/-- An outcome that is published in the journal before it is committed. -/
def journaled (grants : List GrantSnapshot) (outcome : Outcome) : Bool :=
  !grants.isEmpty || match outcome with
    | .acknowledged _ => true
    | _ => false

/-- The checks of `machine_exchange` before its transaction. -/
def admitRequest (config : CoordinatorConfig) (coordinator : Coordinator) (request : Request) :
    StoreResult DomainRow := do
  let session := request.session
  require request.validate (.io "invalid machine request identity or payload hash")
  require (config.encoding.requestBytes request ≤ maxFrameBytes)
    (.io "machine frame exceeds length bounds")
  let registration ← orError
    (config.participants.find? fun registration => registration.domainId = session.domainId)
    (rejected "unauthorized" "paired executor not found")
  require (registration.role = .executor)
    (rejected "unauthorized" "runtime-adapter role cannot issue executor operations")
  require
    ((coordinator.journal.anchors.get? session.domainId).bind ParticipantAnchor.session =
      some session)
    (rejected "stale" "session was fenced by the durable pairing anchor")
  require
    (session.authorityEpoch = config.authorityEpoch &&
      session.machineId = config.domains.machineId)
    (rejected "stale" "machine authority changed")
  let participant ← orError (coordinator.store.domains.get? session.domainId)
    (rejected "not_found" "participant is not registered")
  require
    (participant.connectionEpoch = session.connectionEpoch &&
      participant.managerStoreUuid = session.managerStoreUuid &&
      participant.executorIncarnation = some session.executorIncarnation)
    (rejected "stale" "participant connection or store was fenced")
  return participant

/-- The retained operation with the request's sequence or operation identity. -/
def priorOperation (store : MachineStore) (request : Request) : Option (Nat × OperationRow) :=
  (store.operations.rows.find? fun row =>
    row.1.1 = request.session.domainId &&
      (row.1.2 = request.requestSequence || row.2.operationId = request.operationId)).map
    fun row => (row.1.2, row.2)

/-- The command inside its savepoint, with the checks that its reply can be
delivered and its permissions published. -/
def tryCommand (config : CoordinatorConfig) (input : ExchangeInput) (request : Request)
    (participant : DomainRow) (journal : Journal) (store : MachineStore) :
    StoreResult (MachineStore × Outcome) := do
  let (next, outcome) ← applyCommand config request participant.reconciliationRequired
    (input.authorityClosed || journal.blocked) store.scheduleMs input.readiness
    input.nativeDebits store
  let preview : Reply :=
    ⟨request.session, request.requestSequence, request.operationId, u64Bound - 1, outcome⟩
  require (config.encoding.replyBytes preview ≤ maxFrameBytes)
    (rejected "limit_exceeded" "machine response exceeds the wire byte budget")
  let grants ← commitGrants next request outcome
  if journaled grants outcome then
    let _ ← proposedMachineCommit journal ⟨request, outcome, grants⟩
    input.publication
    return (next, outcome)
  else return (next, outcome)

/-- Whether a request is the next operation of its domain. -/
def admitNext (store : MachineStore) (request : Request) (participant : DomainRow) :
    StoreResult Unit := do
  require (participant.retiredSequenceFloor < request.requestSequence)
    (rejected "history_unknown" "operation is below the retired sequence floor")
  require
    (participant.acceptedSequence + 1 = request.requestSequence &&
      request.requestSequence ≤ i64Max)
    (rejected "stale" "request sequence is not the next durable operation")
  let pending := (store.operations.keys.filter fun key => key.1 = request.session.domainId).length
  let acknowledges := match request.command with
    | .acknowledge _ => true
    | _ => false
  require (pending < 16384 || acknowledges)
    (rejected "limit_exceeded"
      "operation history requires bilateral acknowledgement before compaction")

/-- The savepoint around a command: a refused command leaves only its refusal. -/
def savepoint (config : CoordinatorConfig) (input : ExchangeInput) (request : Request)
    (participant : DomainRow) (journal : Journal) (store : MachineStore) :
    StoreResult (MachineStore × Outcome) :=
  match tryCommand config input request participant journal store with
  | .ok result => .ok result
  | .error error => (rejection error).map fun outcome => (store, outcome)

/-- A new operation: apply it, or record why it was refused. -/
def newOperation (config : CoordinatorConfig) (input : ExchangeInput) (request : Request)
    (participant : DomainRow) (coordinator : Coordinator) :
    StoreResult (MachineStore × Outcome) := do
  admitNext coordinator.store request participant
  let begun := { coordinator.store with
    scheduleMs := max input.now coordinator.store.scheduleMs }
  let (applied, outcome) ← savepoint config input request participant coordinator.journal begun
  return (recordOperation applied request outcome, outcome)

/-- What the transaction of `machine_exchange` is about to commit. -/
structure Prepared where
  next : MachineStore
  outcome : Outcome
  grants : List GrantSnapshot
  isNew : Bool

/-- The transaction of `machine_exchange`, up to its commit. -/
def exchangeTransaction (config : CoordinatorConfig) (input : ExchangeInput) (request : Request)
    (participant : DomainRow) (coordinator : Coordinator) : StoreResult Prepared := do
  match priorOperation coordinator.store request with
  | some (sequence, row) =>
    require
      (sequence = request.requestSequence && row.operationId = request.operationId &&
        row.payload = request.command)
      (rejected "conflict" "operation or sequence has another payload")
    return ⟨coordinator.store, row.response, [], false⟩
  | none =>
    let (next, outcome) ← newOperation config input request participant coordinator
    let grants ← commitGrants next request outcome
    return ⟨next, outcome, grants, true⟩

/-- `machine_exchange` after its transaction: publish, commit, finish. -/
def commitExchange (input : ExchangeInput) (request : Request) (coordinator : Coordinator)
    (prepared : Prepared) : CallResult Reply :=
  let commits := if prepared.isNew then [(request, prepared.outcome)] else []
  let reply : Reply :=
    ⟨request.session, request.requestSequence, request.operationId, prepared.next.revision,
      prepared.outcome⟩
  let checkpoint (journal : Journal) : Journal :=
    checkpointMachineSequence journal request.session.domainId request.requestSequence
  if input.fault = .beforeJournal then .without coordinator (.error (.io "interrupted"))
  else if journaled prepared.grants prepared.outcome then
    match proposedMachineCommit coordinator.journal
        ⟨request, prepared.outcome, prepared.grants⟩ with
    | .error error => .without coordinator (.error error)
    | .ok published =>
      if input.fault = .afterJournal then
        .without ⟨coordinator.store, published⟩ (.error (.io "interrupted"))
      else if input.fault = .afterSql then
        ⟨⟨prepared.next, published⟩, commits, .error (.io "interrupted")⟩
      else match finishMachineCommit published request.operationId with
        | .error error => ⟨⟨prepared.next, published⟩, commits, .error error⟩
        | .ok finished =>
          if input.fault = .afterFinish then
            ⟨⟨prepared.next, finished⟩, commits, .error (.io "interrupted")⟩
          else ⟨⟨prepared.next, checkpoint finished⟩, commits, .ok reply⟩
  else if input.fault = .none then
    ⟨⟨prepared.next, checkpoint coordinator.journal⟩, commits, .ok reply⟩
  else ⟨⟨prepared.next, coordinator.journal⟩, commits, .error (.io "interrupted")⟩

/-- `machine_exchange` after the pending commit was completed. -/
def exchangeRequest (config : CoordinatorConfig) (input : ExchangeInput) (request : Request)
    (reconciled : Coordinator) : CallResult Reply :=
  let coordinator := compactMachineRetirements reconciled
  match admitRequest config coordinator request with
  | .error error => .without coordinator (.error error)
  | .ok participant =>
    match exchangeTransaction config input request participant coordinator with
    | .error error => .without coordinator (.error error)
    | .ok prepared => commitExchange input request coordinator prepared

def machineExchange (config : CoordinatorConfig) (input : ExchangeInput) (request : Request)
    (coordinator : Coordinator) : CallResult Reply :=
  (reconcilePending (input.fault = .inRecovery) coordinator).andThen
    (exchangeRequest config input request)

end Stillyard
