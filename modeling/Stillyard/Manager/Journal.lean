import Stillyard.Machine.Wire

/-!
# Manager journal

The durable side of a paired manager: an ordered outbox of operations, local
copies of its Grants with their seals, and the start tickets it received.  Every
function runs inside a transaction of the caller, so an error leaves the journal
as it was.
-/

namespace Stillyard

open Relational Fallible

inductive JournalError where
  | history (detail : String)
  | database (detail : String)
  | io (detail : String)
  deriving DecidableEq, Repr

def invalid (detail : String) : JournalError := .history detail

/-- A query for one row that found none. -/
def noRow : JournalError := .database "Query returned no rows"

/-- An insert under a primary key that is taken. -/
def duplicateRow : JournalError := .database "UNIQUE constraint failed"

/-- A row of `attached_outbox`, under its sequence.  The stored digest is the
command. -/
structure OutboxRow where
  operationId : Uuid
  command : Command
  outcome : Option Outcome
  deriving DecidableEq

/-- A row of `attached_abandoned`, under its operation. -/
structure AbandonedRow where
  sequence : Nat
  command : Command
  deriving DecidableEq

/-- A row of `attached_grants`. -/
structure LocalGrant where
  grant : GrantSnapshot
  sealedRelease : Option SealedRelease
  deriving DecidableEq

/-- A row of `attached_tickets`, under its Invocation. -/
structure LocalTicket where
  key : AllocationKey
  ticket : InvocationTicket
  consumed : Bool
  cleanup : Option TicketCleanup
  deriving DecidableEq

/-- `Recovery`, the value of `attached_meta` under `recovery`. -/
structure Recovery where
  after : Option AllocationKey
  complete : Bool
  configuration : Option String
  deriving DecidableEq

/-- The tables of the manager journal. -/
structure Manager where
  storeUuid : Uuid
  session : Option SessionIdentity
  nextSequence : Nat
  applied : Nat
  retiredFloor : Nat
  outbox : Table Nat OutboxRow
  abandoned : Table Uuid AbandonedRow
  inventory : Table AllocationKey GrantSnapshot
  recoveredCleanup : Table EntityId TicketCleanup
  grants : Table AllocationKey LocalGrant
  tickets : Table EntityId LocalTicket
  recovery : Option Recovery

/-- `initialize` on an empty database. -/
def Manager.initialize (storeUuid : Uuid) : Manager where
  storeUuid
  session := none
  nextSequence := 1
  applied := 0
  retiredFloor := 0
  outbox := .empty
  abandoned := .empty
  inventory := .empty
  recoveredCleanup := .empty
  grants := .empty
  tickets := .empty
  recovery := none

/-- The journal before any call. -/
abbrev Manager.initial (storeUuid : Uuid) : Manager := Manager.initialize storeUuid

namespace Manager

def active (manager : Manager) : Bool := manager.recovery.isSome

def requireComplete (manager : Manager) : Except JournalError Unit :=
  require (manager.recovery.all Recovery.complete)
    (invalid "cannot seal before complete recovery inventory")

def bind (manager : Manager) (session : SessionIdentity) (participant : ParticipantSnapshot) :
    Except JournalError Manager := do
  require (!manager.active)
    (invalid "resume inventory recovery before normal binding")
  require
    (manager.storeUuid = session.managerStoreUuid &&
      participant.managerStoreUuid = session.managerStoreUuid &&
      participant.domainId = session.domainId &&
      participant.connectionEpoch = session.connectionEpoch &&
      participant.executorIncarnation = some session.executorIncarnation &&
      manager.applied ≤ participant.acceptedSequence &&
      participant.acceptedSequence < manager.nextSequence &&
      participant.retiredSequenceFloor ≤ manager.applied &&
      manager.retiredFloor ≤ participant.retiredSequenceFloor)
    (invalid "peer watermark/session differs from durable manager history")
  require
    (manager.session.all fun prior =>
      prior.machineId = session.machineId && prior.domainId = session.domainId &&
        prior.authorityEpoch = session.authorityEpoch &&
        prior.connectionEpoch ≤ session.connectionEpoch &&
        (prior.connectionEpoch ≠ session.connectionEpoch || prior = session))
    (invalid "authority change requires inventory reconciliation")
  return { manager with session := some session }

/-- `recovery::begin`: unanswered operations are set aside, and the watermarks
become those of the coordinator. -/
def beginRecovery (encoding : Encoding) (manager : Manager) (session : SessionIdentity)
    (peer : ParticipantSnapshot) : Except JournalError Manager := do
  let prior ← orError manager.session
    (invalid "recovery requires continuous paired manager history")
  require
    (manager.storeUuid = session.managerStoreUuid && prior.machineId = session.machineId &&
      prior.domainId = session.domainId && prior.managerStoreUuid = session.managerStoreUuid &&
      prior.connectionEpoch ≤ session.connectionEpoch &&
      (prior.connectionEpoch ≠ session.connectionEpoch || prior = session) &&
      peer.managerStoreUuid = session.managerStoreUuid && peer.domainId = session.domainId &&
      peer.connectionEpoch = session.connectionEpoch &&
      peer.executorIncarnation = some session.executorIncarnation &&
      peer.reconciliationRequired && manager.applied ≤ peer.acceptedSequence &&
      peer.acceptedSequence < manager.nextSequence &&
      manager.retiredFloor ≤ peer.retiredSequenceFloor &&
      peer.retiredSequenceFloor ≤ peer.acceptedSequence)
    (invalid "recovery handshake does not cover continuous manager history")
  let unanswered := manager.outbox.filter fun _ row => row.outcome.isNone
  let bytes := (manager.abandoned.values.map fun row => encoding.commandBytes row.command).sum +
    (unanswered.values.map fun row => encoding.commandBytes row.command).sum
  require
    (manager.abandoned.keys.length + unanswered.keys.length ≤ 16384 && bytes ≤ maxReconcileBytes)
    (invalid "unresolved lifecycle intents exceed recovery budget")
  -- `INSERT OR IGNORE`: an operation that was set aside before stays as it is.
  let setAside := fun (abandoned : Table Uuid AbandonedRow) (row : Nat × OutboxRow) =>
    (abandoned.insert? row.2.operationId ⟨row.1, row.2.command⟩).getD abandoned
  return { manager with
    abandoned := unanswered.rows.foldl setAside manager.abandoned
    outbox := manager.outbox.filter fun _ row => row.outcome.isSome
    session := some session
    nextSequence := peer.acceptedSequence + 1
    applied := peer.acceptedSequence
    retiredFloor := peer.retiredSequenceFloor
    inventory := .empty
    recovery := some ⟨none, false, none⟩ }

/-- The first connection of a journal binds it to its peer. -/
def bindFirst (manager : Manager) (session : SessionIdentity)
    (participant : ParticipantSnapshot) : Except JournalError Manager :=
  match manager.session with
  | none => manager.bind session participant
  | some _ => .ok manager

/-- The transaction of `Driver::connect`. -/
def connect (encoding : Encoding) (manager : Manager) (session : SessionIdentity)
    (participant : ParticipantSnapshot) : Except JournalError Manager := do
  let bound ← manager.bindFirst session participant
  bound.beginRecovery encoding session participant

/-! ## Operations -/

def allow (manager : Manager) (command : Command) : Except JournalError Unit :=
  match manager.recovery with
  | none => .ok ()
  | some recovery =>
    require
      (match command with
      | .inspectPage after _ => !recovery.complete && after = recovery.after
      | .reconcileBegin .. | .reconcilePage .. | .reconcileCommit .. => recovery.complete
      | .acknowledge _ => true
      | _ => false)
      (invalid "new work is fenced until full inventory reconciliation completes")

/-- The part of `enqueue` that keeps a sealed allocation from new starts. -/
def requireUnsealed (manager : Manager) : Command → Except JournalError Unit
  | .authorizeInvocation key _ _ => do
      let row ← orError (manager.grants.get? key) noRow
      require row.sealedRelease.isNone
        (invalid "allocation was already sealed against future starts")
  | _ => .ok ()

/-- The byte size of the outbox, with room for the answers that are missing. -/
def outboxBytes (encoding : Encoding) (manager : Manager) : Nat :=
  (manager.outbox.values.map fun row =>
    encoding.commandBytes row.command + (row.outcome.map encoding.outcomeBytes).getD 1048576).sum

/-- The capacity check of `enqueue`. -/
def outboxHasRoom (encoding : Encoding) (manager : Manager) (command : Command) : Bool :=
  let acknowledges := match command with
    | .acknowledge _ => true
    | _ => false
  let bytes := encoding.commandBytes command
  manager.nextSequence < i64Max &&
    manager.outbox.keys.length < (if acknowledges then 16384 else 16383) &&
    bytes ≤ maxFrameBytes &&
    manager.outboxBytes encoding + bytes + maxFrameBytes ≤
      (if acknowledges then 16 * 1024 * 1024 else 15 * 1024 * 1024)

/-- The local effect of `Command::ReportUncertain`. -/
def reportLocally (manager : Manager) : Command → Except JournalError Manager
  | .reportUncertain key offerNonce reason => do
      let row ← orError (manager.grants.get? key) noRow
      require
        (row.sealedRelease.isNone && row.grant.offerNonce = offerNonce && row.grant.state.mayRun &&
          reason ≠ "" && reason.utf8ByteSize ≤ 1024 && !reason.toList.contains '\x00')
        (invalid "uncertainty requires an outstanding local Grant and bounded reason")
      let grant := { row.grant with state := .uncertain, uncertaintyReason := some reason }
      let doubted : LocalGrant := { row with grant }
      return { manager with grants := manager.grants.set key doubted }
  | _ => .ok manager

def enqueue (encoding : Encoding) (manager : Manager) (operation : Uuid) (command : Command) :
    Except JournalError (Manager × Nat) := do
  require (operation ≠ 0) (invalid "nil operation id")
  match manager.outbox.rows.find? fun row => row.2.operationId = operation with
  | some (sequence, row) =>
    require (row.command = command) (invalid "operation payload changed")
    return (manager, sequence)
  | none =>
    require (operation ∉ manager.abandoned.keys)
      (invalid "operation was superseded by recovery; reconcile its local lifecycle")
    manager.allow command
    manager.requireUnsealed command
    require (manager.outboxHasRoom encoding command)
      (invalid "outbox capacity reached; retain obligations and compact acknowledged replies")
    let manager ← manager.reportLocally command
    let sequence := manager.nextSequence
    let outbox ← orError
      (manager.outbox.insert? sequence ⟨operation, command, none⟩) duplicateRow
    return ({ manager with outbox, nextSequence := sequence + 1 }, sequence)

/-- The earliest unanswered operation. -/
def oldest (manager : Manager) : Option (Nat × OutboxRow) :=
  ((manager.outbox.rows.filter fun row => row.2.outcome.isNone).insertionSort
    fun left right => left.1 ≤ right.1).head?

def pending (manager : Manager) : Except JournalError (Option Request) := do
  let session ← orError manager.session (invalid "peer is not authenticated")
  return manager.oldest.map fun row => ⟨session, row.1, row.2.operationId, row.2.command⟩

/-- Whether a cleanup proof covers a start right. -/
def cleanupCovers (cleanup : TicketCleanup) (intent : InvocationIntent) : Bool :=
  cleanup.releaseSequence = intent.releaseSequence &&
    cleanup.boundarySha256 = intent.boundarySha256 && isDigest cleanup.proofSha256

/-- `consume_ticket`; the result says whether this call consumed the ticket. -/
def consumeTicket (manager : Manager) (ticket : InvocationTicket) :
    Except JournalError (Manager × Bool) := do
  require (!manager.active) (invalid "start is fenced during inventory recovery")
  require (manager.session = some ticket.session) (invalid "ticket session was fenced")
  let row ← orError (manager.tickets.get? ticket.intent.invocationId) noRow
  let joined ← orError (manager.grants.get? row.key) noRow
  let named ← orError (manager.grants.get? ticket.key) noRow
  require
    (named.grant.state = .armed && row.ticket = ticket && joined.sealedRelease.isNone &&
      row.cleanup.isNone)
    (invalid "ticket is sealed or changed")
  let spent : LocalTicket := { row with consumed := true }
  if row.consumed then return (manager, false)
  else return ({ manager with
      tickets := manager.tickets.set ticket.intent.invocationId spent }, true)

/-- `record_cleanup` for a ticket that recovery imported without its reply. -/
def recordRecoveredCleanup (manager : Manager) (cleanup : TicketCleanup) :
    Except JournalError Manager := do
  let intents := manager.grants.values.flatMap fun row => row.grant.tickets
  let intent ← orError
    (intents.find? fun intent => intent.invocationId = cleanup.invocationId)
    (invalid "cleanup has no recovered ticket obligation")
  require (!cleanup.userCodeReleased && cleanupCovers cleanup intent)
    (invalid "cleanup does not cover the recovered unused ticket")
  require
    ((manager.recoveredCleanup.get? cleanup.invocationId).all fun old => old = cleanup)
    (invalid "recovered cleanup proof changed")
  return { manager with
    recoveredCleanup := manager.recoveredCleanup.set cleanup.invocationId cleanup }

def recordCleanup (manager : Manager) (cleanup : TicketCleanup) : Except JournalError Manager :=
  match manager.tickets.get? cleanup.invocationId with
  | none => manager.recordRecoveredCleanup cleanup
  | some row => do
      require
        (cleanupCovers cleanup row.ticket.intent && cleanup.userCodeReleased = row.consumed &&
          row.cleanup.all fun old => old = cleanup)
        (invalid "cleanup does not cover the immutable local start intent")
      let cleaned : LocalTicket := { row with cleanup := some cleanup }
      return { manager with tickets := manager.tickets.set cleanup.invocationId cleaned }

/-- `record_unused_cleanup`, for a ticket that the release barrier consumed and
did not release. -/
def recordUnusedCleanup (manager : Manager) (ticket : InvocationTicket)
    (cleanup : TicketCleanup) : Except JournalError Manager := do
  let row ← orError (manager.tickets.get? cleanup.invocationId) noRow
  require
    (row.ticket = ticket && row.consumed && !cleanup.userCodeReleased &&
      cleanup.invocationId = ticket.intent.invocationId && cleanupCovers cleanup ticket.intent &&
      row.cleanup.all fun old => old = cleanup)
    (invalid "unused cleanup does not match the committed never-released ticket")
  let cleaned : LocalTicket := { row with cleanup := some cleanup }
  return { manager with tickets := manager.tickets.set cleanup.invocationId cleaned }

/-- The proofs that `seal_release` collects: those of the received tickets, then
those of tickets that recovery imported. -/
def collectProofs (manager : Manager) (key : AllocationKey) (grant : GrantSnapshot) :
    Except JournalError (List TicketCleanup) := do
  let received := (manager.tickets.rows.filter fun row => row.2.key = key).insertionSort
    fun left right => ((compare left.1.storeUuid right.1.storeUuid).then
      (compare left.1.entityUuid right.1.entityUuid)).isLE
  let proofs ← received.mapM fun row =>
    orError row.2.cleanup (invalid "ticket boundary is not proven empty")
  grant.tickets.foldlM
    (fun proofs intent =>
      if proofs.any fun proof => proof.invocationId = intent.invocationId then .ok proofs
      else (orError (manager.recoveredCleanup.get? intent.invocationId)
        (invalid "recovered ticket boundary is not proven empty")).map fun proof =>
          proofs ++ [proof])
    proofs

/-- Whether an operation asks for a start right of this allocation. -/
def asksForTicket (key : AllocationKey) : Command → Bool
  | .authorizeInvocation asked _ _ => asked = key
  | _ => false

/-- The end of `seal_release`: outside recovery the seal is sent at once. -/
def sendSeal (encoding : Encoding) (manager : Manager) (operation : Uuid)
    (release : SealedRelease) : Except JournalError (Manager × Nat) :=
  if manager.active then .ok (manager, release.sealedSequence)
  else manager.enqueue encoding operation (.release release)

/-- The journal with a sealed allocation. -/
def withSeal (manager : Manager) (row : LocalGrant) (release : SealedRelease) : Manager :=
  let sealed : LocalGrant := { row with sealedRelease := some release }
  { manager with grants := manager.grants.set release.key sealed }

def sealRelease (encoding : Encoding) (manager : Manager) (key : AllocationKey)
    (operation : Uuid) : Except JournalError (Manager × Nat) := do
  manager.requireComplete
  require
    (!manager.outbox.values.any fun row => row.outcome.isNone && asksForTicket key row.command)
    (invalid "unanswered ticket request prevents release sealing")
  let row ← orError (manager.grants.get? key) noRow
  match row.sealedRelease with
  | some release => manager.sendSeal encoding operation release
  | none =>
    let proofs ← manager.collectProofs key row.grant
    let release : SealedRelease := ⟨key, row.grant.offerNonce, manager.nextSequence, proofs⟩
    (manager.withSeal row release).sendSeal encoding operation release

end Manager

end Stillyard
