import Stillyard.Machine.Wire

/-!
# Coordinator tables

The coordinator keeps its protocol data in the same SQLite store as native
admission, and the start permissions it hands out also in an external authority
journal.  A transaction is a function from the tables it starts from; an error
rolls it back, so it carries no tables.

Columns that only repeat a part of the stored record are not kept twice: the
state and the deadline of a Grant are those of its snapshot.
-/

namespace Stillyard

open Relational

variable {registrations : List PairingRegistration}

/-- `StoreError`, without the wrapped library errors. -/
inductive StoreError where
  | notFound (detail : String)
  | idempotencyConflict (existingPayloadHash requestedPayloadHash : String)
  | rejected (detail : String)
  | operationRejected (code detail : String)
  | blockedByAncestor (detail : String)
  | managedWaitRejected (code detail : String)
  | invalidSpec (detail : String)
  | invalidState (detail : String)
  | io (detail : String)
  | sqlite (detail : String)
  deriving DecidableEq, Repr

abbrev StoreResult := Except StoreError

def rejected (code detail : String) : StoreError := .operationRejected code detail

structure AuthorityDomains where
  machineId : Uuid
  machineScope : ExecutionDomainId
  nativeDomain : ExecutionDomainId
  deriving DecidableEq, Repr

inductive ParticipantRole where
  | executor
  | runtimeAdapter
  deriving DecidableEq, Repr

/-- `PairingRegistration`, with the installation fields the coordinator uses. -/
structure PairingRegistration where
  domainId : ExecutionDomainId
  installationNonce : Uuid
  role : ParticipantRole
  managerStoreUuid : Uuid
  parentDomain : ExecutionDomainId
  budgets : Table String Nat
  aliases : Table String String
  deriving DecidableEq

/-- What is fixed while a coordinator runs: its identity, the host
configuration, and the committed pairings.  The validity of an observation
policy and the byte sizes of messages belong to other parts of the program. -/
structure CoordinatorConfig where
  storeUuid : Uuid
  authorityEpoch : Uuid
  domains : AuthorityDomains
  participants : List PairingRegistration
  capacities : ResourceCapacities
  impactIncompatibilities : Table String (List String)
  configSha256 : String
  quietMaxSampleGapMillis : Nat
  observedValid : Nat → Bool
  quietValid : QuietPolicy → Bool
  encoding : Encoding

/-- `machine_queue.owner`: `native:` or `remote:` and a Job. -/
inductive QueueOwner where
  | native (job : Uuid)
  | remote (job : EntityId)
  deriving DecidableEq, Repr

/-- A row of `machine_queue`. -/
structure QueueRow where
  sequence : Nat
  acceptedMs : Int
  priority : Option Int
  deriving DecidableEq, Repr

/-- A row of `machine_domains`.  The digest `registration_sha256` is the
registration. -/
structure DomainRow where
  registration : PairingRegistration
  managerStoreUuid : Uuid
  connectionEpoch : Nat
  executorIncarnation : Option Uuid
  reconciliationRequired : Bool
  retiredSequenceFloor : Nat
  acceptedSequence : Nat
  deriving DecidableEq

/-- A row of `machine_operations`.  The stored payload digest is the command. -/
structure OperationRow where
  operationId : Uuid
  payload : Command
  response : Outcome
  deriving DecidableEq

/-- `machine_candidates.state`. -/
inductive CandidateState where
  | ready
  | withdrawn
  | canceled
  | released
  deriving DecidableEq, Repr

/-- A row of `machine_candidates`. -/
structure CandidateRow where
  domainId : ExecutionDomainId
  candidate : Candidate
  queueOwner : QueueOwner
  state : CandidateState
  expiresMs : Int
  revision : Nat
  reservationDeadlineMs : Option Int
  notBeforeMs : Option Int
  deriving DecidableEq

/-- A row of `machine_grants`. -/
structure GrantRow where
  snapshot : GrantSnapshot
  physical : ResolvedClaims
  deriving DecidableEq

/-- A row of `machine_reconciles`: the `ReconcileBegin` command and the pages
received so far. -/
structure ReconcileRow where
  snapshotId : Uuid
  manifest : Command
  pages : List (Option (List ReconcileAllocation))
  deriving DecidableEq

/-- `QuietProgress`, a row of `machine_readiness`. -/
structure QuietProgress where
  consumed : Nat
  generation : Option Uuid
  evaluated : Option Nat
  first : Option Nat
  last : Option Nat
  deriving DecidableEq, Repr

/-- A row of `machine_ticket_identities`, under the Invocation. -/
structure TicketIdentity where
  containmentId : EntityId
  key : AllocationKey
  intent : InvocationIntent
  deriving DecidableEq

/-- `ConnectChallenge`: the session it proposes and the two nonces. -/
structure ConnectChallenge where
  session : SessionIdentity
  coordinatorNonce : Nat
  executorNonce : Nat
  deriving DecidableEq, Repr

/-- The coordinator's tables. -/
structure MachineStore where
  queue : Table QueueOwner QueueRow
  /-- The last `machine_queue.sequence` that was handed out. -/
  queueSequence : Nat
  domains : Table ExecutionDomainId DomainRow
  challenges : Table ExecutionDomainId (ConnectChallenge × Int)
  operations : Table (ExecutionDomainId × Nat) OperationRow
  candidates : Table AllocationKey CandidateRow
  grants : Table AllocationKey GrantRow
  reconciles : Table ExecutionDomainId ReconcileRow
  readiness : Table AllocationKey QuietProgress
  ticketIdentities : Table EntityId TicketIdentity
  reservations : Table AllocationKey ResolvedClaims
  scheduleMs : Int
  revision : Nat

/-! ## The authority journal -/

structure MachineCommitIntent where
  request : Request
  outcome : Outcome
  grants : List GrantSnapshot
  deriving DecidableEq

structure ParticipantAnchor where
  registration : PairingRegistration
  committed : Bool
  nextConnectionEpoch : Nat
  session : Option SessionIdentity
  acceptedSequence : Nat
  retiredSequenceFloor : Nat
  deriving DecidableEq

/-- The part of the authority registry that machine operations use.  A retired
allocation is recorded by its key instead of the key's digest. -/
structure Journal where
  anchors : Table ExecutionDomainId ParticipantAnchor
  permissions : Table EntityId GrantSnapshot
  retiredAllocations : List AllocationKey
  pending : Option MachineCommitIntent
  pendingReset : Bool

/-- The domain row that `pair_machine_domain` inserts. -/
def DomainRow.paired (registration : PairingRegistration) : DomainRow where
  registration
  managerStoreUuid := registration.managerStoreUuid
  connectionEpoch := 0
  executorIncarnation := none
  reconciliationRequired := true
  retiredSequenceFloor := 0
  acceptedSequence := 0

/-- One row for every registration. -/
def tableOf {α : Type*} (registrations : List PairingRegistration)
    (row : PairingRegistration → α) : Table ExecutionDomainId α :=
  registrations.foldl (fun table registration => table.set registration.domainId (row registration))
    .empty

theorem get?_tableOf (found : (tableOf registrations row).get? domain = some value) :
    ∃ registration ∈ registrations, registration.domainId = domain ∧ row registration = value := by
  induction registrations using List.reverseRecOn with
  | nil => cases found
  | append_singleton earlier last ih =>
    rw [tableOf, List.foldl_concat, Table.get?_set_eq_some] at found
    obtain ⟨rfl, rfl⟩ | ⟨_, found⟩ := found
    · exact ⟨last, List.mem_append_right _ (List.mem_singleton_self _), rfl, rfl⟩
    · rcases ih found with ⟨registration, member, same, value⟩
      exact ⟨registration, List.mem_append_left _ member, same, value⟩

/-- The tables after all pairings and before any session. -/
def MachineStore.initial (config : CoordinatorConfig) : MachineStore where
  queue := .empty
  queueSequence := 0
  domains := tableOf config.participants DomainRow.paired
  challenges := .empty
  operations := .empty
  candidates := .empty
  grants := .empty
  reconciles := .empty
  readiness := .empty
  ticketIdentities := .empty
  reservations := .empty
  scheduleMs := 0
  revision := 0

/-- The journal after all pairings and before any session. -/
def Journal.initial (config : CoordinatorConfig) : Journal where
  anchors := tableOf config.participants fun registration =>
    ⟨registration, true, 0, none, 0, 0⟩
  permissions := .empty
  retiredAllocations := []
  pending := none
  pendingReset := false

end Stillyard
