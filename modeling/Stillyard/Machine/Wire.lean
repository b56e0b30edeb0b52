import Stillyard.Admission.Topology

/-!
# Machine-coordination messages

The records that a coordinator and its paired managers exchange and store.  A
SHA-256 digest of a payload is represented by the payload itself, which is the
collision-freeness that the protocol relies on; digests that a manager reports
about its platform boundary stay strings.  Request authentication is not
represented: a request that reaches the coordinator's transaction was signed by
the paired manager.

JSON sizes matter to the protocol only through byte budgets, so the encoder is a
parameter with the sizes it produces.
-/

namespace Stillyard

open Relational

variable {state : GrantState}

/-- An identity scoped to the store that created it (`JobId`, `AttemptId`,
`InvocationId`, `ContainmentId`, `GrantId`). -/
structure EntityId where
  storeUuid : Uuid
  entityUuid : Uuid
  deriving DecidableEq, Repr

structure AllocationKey where
  machineId : Uuid
  authorityEpoch : Uuid
  domainId : ExecutionDomainId
  managerStoreUuid : Uuid
  leaseId : Uuid
  deriving DecidableEq, Repr

/-- Order of the keys' JSON texts.  All fields are fixed-length UUID texts in
declaration order, so the order is lexicographic. -/
def AllocationKey.lt (left right : AllocationKey) : Bool :=
  (compare left.machineId right.machineId).then
    ((compare left.authorityEpoch right.authorityEpoch).then
      ((compare left.domainId right.domainId).then
        ((compare left.managerStoreUuid right.managerStoreUuid).then
          (compare left.leaseId right.leaseId)))) == .lt

structure SessionIdentity where
  machineId : Uuid
  authorityEpoch : Uuid
  domainId : ExecutionDomainId
  managerStoreUuid : Uuid
  executorIncarnation : Uuid
  connectionEpoch : Nat
  deriving DecidableEq, Repr

def SessionIdentity.owns (session : SessionIdentity) (key : AllocationKey) : Bool :=
  session.machineId = key.machineId && session.authorityEpoch = key.authorityEpoch &&
    session.domainId = key.domainId && session.managerStoreUuid = key.managerStoreUuid

theorem owns_domainId {session : SessionIdentity} (owns : session.owns key = true) :
    key.domainId = session.domainId := by
  simp only [SessionIdentity.owns, Bool.and_eq_true, decide_eq_true_eq] at owns
  exact owns.1.2.symm

/-- `Claims` as sent on the wire. -/
structure Claims where
  scalars : Table String Nat
  sharedFences : List String
  exclusiveFences : List String
  impacts : List String
  deriving DecidableEq

inductive AllocationOwner where
  | work (jobId attemptId : EntityId)
  | probe (jobId invocationId : EntityId)
  deriving DecidableEq, Repr

/-- The Job that owns an allocation. -/
def AllocationOwner.jobId : AllocationOwner → EntityId
  | .work jobId _ => jobId
  | .probe jobId _ => jobId

/-- `QuietPolicy`, the part that the coordinator reads. -/
structure QuietPolicy where
  stableSeconds : Nat
  waitBudgetSeconds : Nat
  deriving DecidableEq, Repr

/-- `Candidate`.  The observed-resource policy is compared and handed to the
host observation, never inspected, so it is kept as an opaque number. -/
structure Candidate where
  key : AllocationKey
  owner : AllocationOwner
  revision : Nat
  priority : Int
  claims : Claims
  configurationSha256 : String
  observed : Option Nat
  quiet : Option QuietPolicy
  deriving DecidableEq

inductive InvocationRole where
  | primary
  | probe
  | postcondition
  deriving DecidableEq, Repr

structure TicketCleanup where
  invocationId : EntityId
  releaseSequence : Nat
  boundarySha256 : String
  proofSha256 : String
  userCodeReleased : Bool
  deriving DecidableEq, Repr

structure InvocationIntent where
  invocationId : EntityId
  containmentId : EntityId
  role : InvocationRole
  roleIndex : Nat
  releaseSequence : Nat
  executableSha256 : String
  boundarySha256 : String
  readinessChallenge : Uuid
  previousCleanup : Option TicketCleanup
  deriving DecidableEq, Repr

structure SealedRelease where
  key : AllocationKey
  offerNonce : Uuid
  sealedSequence : Nat
  tickets : List TicketCleanup
  deriving DecidableEq, Repr

inductive GrantState where
  | offered
  | expired
  | armed
  | uncertain
  | released
  deriving DecidableEq, Repr

/-- The states that are debited: `offered`, `armed` and `uncertain`. -/
def GrantState.outstanding : GrantState → Bool
  | .offered | .armed | .uncertain => true
  | .expired | .released => false

/-- The states of a potentially used Grant: `armed` and `uncertain`. -/
def GrantState.mayRun : GrantState → Bool
  | .armed | .uncertain => true
  | .offered | .expired | .released => false

/-- The states of a Grant that was armed at some time. -/
def GrantState.held : GrantState → Bool
  | .armed | .uncertain | .released => true
  | .offered | .expired => false

theorem GrantState.held_iff : state.held = true ↔ state.mayRun = true ∨ state = .released := by
  cases state <;> decide

theorem GrantState.held_of_mayRun (mayRun : state.mayRun = true) : state.held = true :=
  held_iff.mpr (.inl mayRun)

structure GrantSnapshot where
  queueAcceptedUnixMillis : Int
  queueSequence : Nat
  uncertaintyReason : Option String
  riskClearance : Option Uuid
  grantId : EntityId
  candidate : Candidate
  offerNonce : Uuid
  state : GrantState
  offeredUnixMillis : Int
  offerDeadlineUnixMillis : Int
  armedUnixMillis : Option Int
  releasedUnixMillis : Option Int
  tickets : List InvocationIntent
  sealedRelease : Option SealedRelease
  deriving DecidableEq

structure InvocationTicket where
  grantId : EntityId
  key : AllocationKey
  offerNonce : Uuid
  intent : InvocationIntent
  configurationSha256 : String
  issuedUnixMillis : Int
  hostObservationGeneration : Uuid
  hostSampleUnixMillis : Int
  session : SessionIdentity
  deriving DecidableEq, Repr

structure ReconcileAllocation where
  key : AllocationKey
  offerNonce : Uuid
  tickets : List InvocationIntent
  sealedRelease : Option SealedRelease
  deriving DecidableEq, Repr

/-- `Command`.  The digest of a reconciliation manifest is the list of pages. -/
inductive Command where
  | reportUncertain (key : AllocationKey) (offerNonce : Uuid) (reason : String)
  | inspectPage (after : Option AllocationKey) (limit : Nat)
  | acknowledge (throughSequence : Nat)
  | candidateUpsert (candidate : Candidate)
  | withdraw (key : AllocationKey) (revision : Nat)
  | arm (key : AllocationKey) (offerNonce : Uuid)
  | authorizeInvocation (key : AllocationKey) (offerNonce : Uuid) (intent : InvocationIntent)
  | cancelCandidate (key : AllocationKey) (revision : Nat)
  | release (release : SealedRelease)
  | inspect (key : Option AllocationKey)
  | reconcileBegin (snapshotId : Uuid) (beginSequence endSequence pageCount : Nat)
      (digest : List (List ReconcileAllocation)) (configurationSha256 : String)
  | reconcilePage (snapshotId : Uuid) (index : Nat) (allocations : List ReconcileAllocation)
  | reconcileCommit (snapshotId : Uuid)
  deriving DecidableEq

/-- The seals inside a command. -/
def Command.Carries : Command → SealedRelease → Prop
  | .release carried, sought => carried = sought
  | .reconcilePage _ _ allocations, sought =>
    ∃ record ∈ allocations, record.sealedRelease = some sought
  | _, _ => False

inductive Outcome where
  | inventoryPage (grants : List GrantSnapshot) (next : Option AllocationKey)
      (configurationSha256 : String)
  | acknowledged (throughSequence : Nat)
  | accepted (revision : Nat)
  | grant (grant : GrantSnapshot)
  | ticket (ticket : InvocationTicket)
  | released (grantId : EntityId) (sealedSequence : Nat)
  | inspection (grants : List GrantSnapshot) (truncated : Bool)
  | reconciled (endSequence : Nat) (released : List AllocationKey)
  | rejected (code detail : String)
  deriving DecidableEq

/-- The Grants that an answer brings into a manager's journal. -/
def Outcome.shows : Outcome → List GrantSnapshot
  | .grant shown => [shown]
  | .inventoryPage listed _ _ => listed
  | _ => []

/-- `Request` without version and authentication. -/
structure Request where
  session : SessionIdentity
  requestSequence : Nat
  operationId : Uuid
  command : Command
  deriving DecidableEq

structure Reply where
  session : SessionIdentity
  requestSequence : Nat
  operationId : Uuid
  coordinatorRevision : Nat
  outcome : Outcome
  deriving DecidableEq

/-- `ParticipantSnapshot` for the paired domain. -/
structure ParticipantSnapshot where
  domainId : ExecutionDomainId
  managerStoreUuid : Uuid
  connectionEpoch : Nat
  executorIncarnation : Option Uuid
  reconciliationRequired : Bool
  retiredSequenceFloor : Nat
  acceptedSequence : Nat
  deriving DecidableEq, Repr

/-! ## Bounds of the wire format -/

def maxFrameBytes : Nat := 1024 * 1024

def maxDomainCandidates : Nat := 4096

def maxMachineCandidates : Nat := 65536

def maxReconcilePage : Nat := 256

def maxReconcileBytes : Nat := 16 * 1024 * 1024

def offerMillis : Int := 5000

def candidateMillis : Int := 30000

/-- `i64::MAX`, the largest sequence number SQLite stores. -/
def i64Max : Nat := 2 ^ 63 - 1

/-- Byte sizes of the JSON texts.  The revision is the only part of a reply that
changes between the size check and the delivery.  It is a `u64`, and the largest
one has the longest text. -/
structure Encoding where
  candidateBytes : Candidate → Nat
  grantBytes : GrantSnapshot → Nat
  commandBytes : Command → Nat
  outcomeBytes : Outcome → Nat
  requestBytes : Request → Nat
  replyBytes : Reply → Nat
  pageBytes : List ReconcileAllocation → Nat
  pagesBytes : List (Option (List ReconcileAllocation)) → Nat
  replyBytes_le : ∀ reply : Reply,
    replyBytes reply ≤ replyBytes { reply with coordinatorRevision := u64Bound - 1 }

/-- `is_digest`: 64 ASCII hexadecimal digits. -/
def isDigest (value : String) : Bool :=
  value.utf8ByteSize = 64 && value.toList.all fun char =>
    ('0' ≤ char && char ≤ '9') || ('a' ≤ char && char ≤ 'f') || ('A' ≤ char && char ≤ 'F')

def Request.validate (request : Request) : Bool :=
  request.requestSequence ≠ 0 && request.operationId ≠ 0 && request.session.connectionEpoch ≠ 0 &&
    request.session.machineId ≠ 0 && request.session.authorityEpoch ≠ 0 &&
    request.session.domainId ≠ 0 && request.session.managerStoreUuid ≠ 0 &&
    request.session.executorIncarnation ≠ 0 &&
    match request.command with
    | .reconcilePage _ _ allocations => allocations.length ≤ maxReconcilePage
    | _ => true

end Stillyard
