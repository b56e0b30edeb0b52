import Stillyard.Store.Exchange

/-!
# Sessions

A manager connects in two calls: the coordinator reserves a connection epoch and
issues a challenge, and the answer to the challenge installs the session.  The
session is accepted in the authority journal before it is written to SQLite, so
an interruption between the two leaves a session that no request matches.
-/

namespace Stillyard

open Relational Fallible

structure ConnectHello where
  installationNonce : Uuid
  managerStoreUuid : Uuid
  executorIncarnation : Uuid
  executorNonce : Nat
  deriving DecidableEq, Repr

/-- What a connection call takes from its surroundings, with the place where it
is interrupted.  It writes the journal before SQL. -/
structure ConnectInput where
  now : Int
  coordinatorNonce : Nat
  fault : Fault
  deriving DecidableEq, Repr

/-- `reserve_machine_connection`: the journal with the reserved epoch. -/
def reserveMachineConnection (journal : Journal) (domain : ExecutionDomainId) (sqlEpoch : Nat) :
    StoreResult (Journal × Nat) := do
  let anchor ← orError (journal.anchors.get? domain) (.io "participant anchor missing")
  let epoch := max anchor.nextConnectionEpoch sqlEpoch + 1
  require (epoch ≤ i64Max) (.io "connection epoch exhausted")
  let reserved : ParticipantAnchor := { anchor with nextConnectionEpoch := epoch }
  return ({ journal with anchors := journal.anchors.set domain reserved }, epoch)

/-- The part of `machine_connect_begin` before its writes. -/
def admitHello (config : CoordinatorConfig) (coordinator : Coordinator) (hello : ConnectHello) :
    StoreResult (ExecutionDomainId × DomainRow) := do
  require (hello.executorIncarnation ≠ 0 && hello.executorNonce ≠ 0)
    (rejected "unsupported" "executor protocol or incarnation is not supported")
  let registration ← orError
    (config.participants.find? fun registration =>
      registration.installationNonce = hello.installationNonce)
    (rejected "history_unknown" "continuous pairing anchor not found")
  let participant ← orError (coordinator.store.domains.get? registration.domainId)
    (rejected "not_found" "participant is not registered")
  require
    (participant.managerStoreUuid = hello.managerStoreUuid &&
      registration.managerStoreUuid = hello.managerStoreUuid)
    (rejected "history_unknown"
      "manager store changed; its outstanding rights require inventory reconciliation")
  return (registration.domainId, participant)

/-- `machine_connect_begin` after the pending commit was completed. -/
def connectBegin (config : CoordinatorConfig) (input : ConnectInput) (hello : ConnectHello)
    (coordinator : Coordinator) : CallResult ConnectChallenge :=
  match admitHello config coordinator hello with
  | .error error => .without coordinator (.error error)
  | .ok (domain, participant) =>
    match reserveMachineConnection coordinator.journal domain participant.connectionEpoch with
    | .error error => .without coordinator (.error error)
    | .ok (journal, epoch) =>
      let session : SessionIdentity :=
        { machineId := config.domains.machineId
          authorityEpoch := config.authorityEpoch
          domainId := domain
          managerStoreUuid := hello.managerStoreUuid
          executorIncarnation := hello.executorIncarnation
          connectionEpoch := epoch }
      let challenge : ConnectChallenge :=
        ⟨session, input.coordinatorNonce, hello.executorNonce⟩
      if input.fault = .beforeJournal then .without coordinator (.error (.io "interrupted"))
      else if input.fault ≠ .none then
        .without ⟨coordinator.store, journal⟩ (.error (.io "interrupted"))
      else
        let challenges := coordinator.store.challenges.set domain
          (challenge, i64Clamp (input.now + 30000))
        .without ⟨{ coordinator.store with challenges }, journal⟩ (.ok challenge)

def machineConnectBegin (config : CoordinatorConfig) (input : ConnectInput) (hello : ConnectHello)
    (coordinator : Coordinator) : CallResult ConnectChallenge :=
  (reconcilePending (input.fault = .inRecovery) coordinator).andThen
    (connectBegin config input hello)

def acceptMachineSession (config : CoordinatorConfig) (journal : Journal)
    (session : SessionIdentity) : StoreResult Journal := do
  let anchor ← orError (journal.anchors.get? session.domainId)
    (.io "participant anchor missing")
  if anchor.session = some session then return journal
  else
    let registration ← orError
      (config.participants.find? fun registration => registration.domainId = session.domainId)
      (.io "participant anchor missing")
    require
      (anchor.nextConnectionEpoch = session.connectionEpoch &&
        registration.managerStoreUuid = session.managerStoreUuid &&
        config.authorityEpoch = session.authorityEpoch &&
        config.domains.machineId = session.machineId &&
        anchor.session.all fun old => old.connectionEpoch < session.connectionEpoch)
      (.io "session identity or durable connection epoch changed")
    let accepted : ParticipantAnchor := { anchor with session := some session }
    return { journal with anchors := journal.anchors.set session.domainId accepted }

/-- The tables of a domain whose session was replaced: reconciliation is
required, and its reservations are gone. -/
def installSession (store : MachineStore) (session : SessionIdentity) : MachineStore :=
  let domain := session.domainId
  { store with
    domains := store.domains.update domain fun row => { row with
      connectionEpoch := session.connectionEpoch
      executorIncarnation := some session.executorIncarnation
      reconciliationRequired := true }
    challenges := store.challenges.erase domain
    reconciles := store.reconciles.erase domain
    candidates := store.candidates.modify fun _ row =>
      if row.domainId = domain then { row with reservationDeadlineMs := none } else row
    reservations := store.reservations.filter fun key _ =>
      !((store.candidates.get? key).any fun row => row.domainId = domain) }

def machineParticipant (store : MachineStore) (domain : ExecutionDomainId) :
    StoreResult ParticipantSnapshot := do
  let row ← orError (store.domains.get? domain)
    (rejected "not_found" "participant is not registered")
  return ⟨domain, row.managerStoreUuid, row.connectionEpoch, row.executorIncarnation,
    row.reconciliationRequired, row.retiredSequenceFloor, row.acceptedSequence⟩

/-- The checks of `machine_connect_finish` on the issued challenge. -/
def admitChallenge (config : CoordinatorConfig) (now : Int) (coordinator : Coordinator)
    (challenge : ConnectChallenge) : StoreResult Unit := do
  let _ ← orError
    (config.participants.find? fun registration =>
      registration.domainId = challenge.session.domainId)
    (rejected "history_unknown" "pairing anchor missing or changed")
  let pending ← orError
    (coordinator.store.challenges.get? challenge.session.domainId)
    (rejected "stale" "challenge was consumed or replaced")
  require (pending.1 = challenge && now < pending.2)
    (rejected "stale" "challenge was consumed, expired or replaced")

/-- `machine_connect_finish` after the pending commit was completed. -/
def connectFinish (config : CoordinatorConfig) (input : ConnectInput) (challenge : ConnectChallenge)
    (coordinator : Coordinator) : CallResult ParticipantSnapshot :=
  match admitChallenge config input.now coordinator challenge with
  | .error error => .without coordinator (.error error)
  | .ok _ =>
    match acceptMachineSession config coordinator.journal challenge.session with
    | .error error => .without coordinator (.error error)
    | .ok journal =>
      let session := challenge.session
      let current := (coordinator.store.domains.get? session.domainId).any fun row =>
        row.connectionEpoch < session.connectionEpoch &&
          row.managerStoreUuid = session.managerStoreUuid
      if input.fault = .beforeJournal then .without coordinator (.error (.io "interrupted"))
      else if input.fault ≠ .none then
        .without ⟨coordinator.store, journal⟩ (.error (.io "interrupted"))
      else if current then
        let store := installSession coordinator.store session
        .without ⟨store, journal⟩ (machineParticipant store session.domainId)
      else .without ⟨coordinator.store, journal⟩
        (.error (rejected "stale" "connection epoch or manager store changed"))

/-- `machine_connect_finish` for a challenge answered with the pairing secret. -/
def machineConnectFinish (config : CoordinatorConfig) (input : ConnectInput)
    (challenge : ConnectChallenge) (coordinator : Coordinator) : CallResult ParticipantSnapshot :=
  (reconcilePending (input.fault = .inRecovery) coordinator).andThen
    (connectFinish config input challenge)

end Stillyard
