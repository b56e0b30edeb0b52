import Stillyard.Store.Ticket

/-!
# Native tables

The tables in which a daemon keeps its own Jobs: Jobs, their Attempts, the
Invocations of an Attempt with one Containment each, readiness Conditions with
their observations, Leases, and scalar reservations.

Identifiers are drawn from one supply, so a new row never takes the identifier
of an earlier one, deleted or not.  Columns that are only shown to clients are
left out.
-/

namespace Stillyard

open Relational

inductive JobState where
  | pending
  | active
  | final
  deriving DecidableEq, Repr

inductive JobOutcome where
  | succeeded
  | failed
  | timedOut
  | interrupted
  | canceled
  | skipped
  deriving DecidableEq, Repr

/-- `attempts.state`. -/
inductive AttemptState where
  | planned
  | admitting
  | starting
  | running
  | settled
  deriving DecidableEq, Repr

/-- The text under which a state is stored. -/
def AttemptState.text : AttemptState → String
  | .planned => "planned"
  | .admitting => "admitting"
  | .starting => "starting"
  | .running => "running"
  | .settled => "settled"

inductive AttemptVerdict where
  | succeeded
  | processFailed
  | startFailed
  | timedOut
  | interrupted
  | safetyFailed
  | postconditionRetryable
  | postconditionFailed
  | canceled
  deriving DecidableEq, Repr

/-- `invocations.state`. -/
inductive InvocationState where
  | prepared
  | started
  | exited
  | resolved
  deriving DecidableEq, Repr

inductive ContainmentState where
  | creating
  | live
  | uncertain
  | empty
  | cleared
  deriving DecidableEq, Repr

/-- The states of a boundary that a runner still owns. -/
def ContainmentState.owned : ContainmentState → Bool
  | .creating | .live => true
  | .uncertain | .empty | .cleared => false

inductive ConditionState where
  | waiting
  | satisfied
  | failed
  deriving DecidableEq, Repr

/-- `leases.state`. -/
inductive LeaseState where
  | granted
  | released
  deriving DecidableEq, Repr

/-! ## Specifications -/

inductive ConditionDeadline where
  | none
  | relative (seconds : Nat)
  | absolute (unixMillis : Int)
  deriving DecidableEq, Repr

inductive ConditionDeadlineOutcome where
  | failed
  | canceled
  deriving DecidableEq, Repr

/-- `deadline_outcome_string`. -/
def ConditionDeadlineOutcome.text : ConditionDeadlineOutcome → String
  | .failed => "failed"
  | .canceled => "canceled"

/-- The verdict and the outcome with which an expired deadline ends a Job. -/
def ConditionDeadlineOutcome.ends : ConditionDeadlineOutcome → AttemptVerdict × JobOutcome
  | .canceled => (.canceled, .canceled)
  | .failed => (.safetyFailed, .failed)

inductive PathConditionState where
  | absent
  | present
  deriving DecidableEq, Repr

/-- `ResourceClaims`, as a specification states them. -/
structure ResourceClaims where
  cpuUnits : Option Nat
  ramMb : Option Nat
  cargoSlots : Option Nat
  gpuSlots : Option Nat
  custom : Table String Nat
  sharedFences : List String
  exclusiveFences : List String
  impacts : List String
  deriving DecidableEq, Repr

/-- `ResourceClaims::default()`. -/
def ResourceClaims.default : ResourceClaims := ⟨none, none, none, none, .empty, [], [], []⟩

/-- Does the name claim memory of a GPU? -/
def isVram (name : String) : Bool := (stripVram name).isSome

/-- `resource_claims_require_host_observation`. -/
def ResourceClaims.requireHostObservation (resources : ResourceClaims) : Bool :=
  resources.ramMb.isSome || resources.gpuSlots.isSome || resources.custom.keys.any isVram

/-- `ProbeCondition`, the part the store uses. -/
structure ProbeCondition where
  resources : ResourceClaims
  timeoutSeconds : Nat
  intervalSeconds : Nat
  acceptedExitCodes : List Int
  deriving DecidableEq, Repr

inductive ConditionPredicate where
  | pathExists (path : String)
  | pathAbsent (path : String)
  | pathTransition (path : String) (start target : PathConditionState)
  | notBefore (unixMillis : Int)
  | probe (probe : ProbeCondition)
  deriving DecidableEq, Repr

/-- Is this a probe predicate? -/
def ConditionPredicate.isProbe : ConditionPredicate → Bool
  | .probe _ => true
  | _ => false

/-- Is this a path transition? -/
def ConditionPredicate.isTransition : ConditionPredicate → Bool
  | .pathTransition .. => true
  | _ => false

structure ConditionSpec where
  predicate : ConditionPredicate
  deadline : ConditionDeadline
  onDeadline : ConditionDeadlineOutcome
  deriving DecidableEq, Repr

structure RetryPolicy where
  maxAttempts : Nat
  backoffSeconds : Nat
  retryable : List AttemptVerdict
  deriving DecidableEq, Repr

structure Label where
  key : String
  value : String
  deriving DecidableEq, Repr

structure ResourceClaimLimits where
  cpuUnits : Option Nat
  ramMb : Option Nat
  cargoSlots : Option Nat
  gpuSlots : Option Nat
  custom : Table String Nat
  deriving DecidableEq, Repr

/-- `ChildSubmissionPolicy`, with the roots of its `fences`. -/
structure ChildSubmissionPolicy where
  minPriority : Int
  maxPriority : Int
  maxClaims : ResourceClaimLimits
  allowedImpacts : List String
  requiredLabels : List Label
  sharedRoots : List String
  exclusiveRoots : List String
  allowObserved : Bool
  allowQuiet : Bool
  allowDelegation : Bool
  deriving DecidableEq, Repr

/-- `JobSpec`, the part the store uses.  Of the observed policy only its presence
is used, and of the postconditions only the number. -/
structure JobSpec where
  priority : Int
  fileStdin : Bool
  resources : ResourceClaims
  observed : Bool
  labels : List Label
  childSubmissionPolicy : Option ChildSubmissionPolicy
  conditions : List ConditionSpec
  retry : RetryPolicy
  postconditions : Nat
  timeoutSeconds : Option Nat
  quiet : Option QuietPolicy
  deriving DecidableEq, Repr

def JobSpec.requiresHostObservation (spec : JobSpec) : Bool :=
  spec.resources.requireHostObservation ||
    (spec.conditions.any fun condition => match condition.predicate with
      | .probe probe => probe.resources.requireHostObservation
      | _ => false) ||
    spec.observed || spec.quiet.isSome

/-- A Job whose start waits for a release decision. -/
def JobSpec.guarded (spec : JobSpec) : Bool := spec.quiet.isSome || !spec.conditions.isEmpty

/-- Seconds as milliseconds, with the saturation of the program's types. -/
def secondsToMillis (seconds : Nat) : Int := min (seconds * 1000 : Nat) (i64Max : Nat)

/-- A time that lies some seconds later. -/
def afterSeconds (now : Int) (seconds : Nat) : Int := i64Clamp (now + secondsToMillis seconds)

def resolveDeadline (deadline : ConditionDeadline) (acceptedMs : Int) : Option Int :=
  match deadline with
  | .none => none
  | .relative seconds => some (afterSeconds acceptedMs seconds)
  | .absolute unixMillis => some unixMillis

/-! ## Rows -/

/-- A row of `jobs`. -/
structure JobRow where
  state : JobState
  outcome : Option JobOutcome
  reasonCode : Option String
  spec : JobSpec
  claims : ResolvedClaims
  stdinHash : Option String
  stdinLen : Option Nat
  attemptId : Option Uuid
  invocationId : Option Uuid
  containmentId : Option Uuid
  rootExitCode : Option Int
  acceptedMs : Int
  startedMs : Option Int
  finishedMs : Option Int
  stdoutLen : Nat
  stderrLen : Nat
  cancelRequested : Bool
  retryNotBeforeMs : Option Int
  reservationNotBeforeMs : Option Int
  batchMember : Option String
  batchIndex : Nat

inductive DependencyKind where
  | success
  | failure
  | terminal
  deriving DecidableEq, Repr

/-- A row of `dependencies`. -/
structure Dependency where
  predecessorId : Uuid
  successorId : Uuid
  kind : DependencyKind
  deriving DecidableEq, Repr

inductive InvocationVerdict where
  | succeeded
  | processFailed
  | startFailed
  | timedOut
  | interrupted
  | safetyFailed
  | canceled
  deriving DecidableEq, Repr

inductive TerminationReason where
  | exited
  | startFailed
  | timeout
  | interrupt
  | safetyFailure
  | cancel
  deriving DecidableEq, Repr

/-- `PrimaryInvocationResult`.  Its schema version is always 1 and its
Containment always empty. -/
structure PrimaryInvocationResult where
  jobId : Uuid
  attemptId : Uuid
  invocationId : Uuid
  verdict : InvocationVerdict
  rootExitCode : Option Int
  termination : TerminationReason
  startedUnixMillis : Option Int
  exitedUnixMillis : Option Int
  resolvedUnixMillis : Int
  deriving DecidableEq, Repr

/-- A row of `attempts`. -/
structure AttemptRow where
  jobId : Uuid
  state : AttemptState
  attemptIndex : Nat
  verdict : Option AttemptVerdict
  safetyReason : Option String
  startedMs : Option Int
  deadlineMs : Option Int
  finishedMs : Option Int
  primaryResult : Option PrimaryInvocationResult
  deriving DecidableEq, Repr

/-- A row of `admissions`. -/
structure AdmissionRow where
  wallDeadlineMs : Int
  quietConsumedMs : Nat
  lastEvalMonotonicMs : Option Nat
  lastEvalGeneration : Option Uuid
  quietGeneration : Option Uuid
  quietFirstMonotonicMs : Option Nat
  quietLastMonotonicMs : Option Nat
  deferralCount : Nat
  retryNotBeforeMs : Option Int
  lastBlockers : List Blocker
  reservationGeneration : Option Uuid
  preResumeDeferReason : Option String
  deriving DecidableEq, Repr

/-- A row of `invocations`. -/
structure InvocationRow where
  attemptId : Uuid
  role : InvocationRole
  roleIndex : Nat
  conditionId : Option Uuid
  state : InvocationState
  rootExitCode : Option Int
  startedMs : Option Int
  exitedMs : Option Int
  finishedMs : Option Int
  deriving DecidableEq, Repr

/-- A row of `containments`. -/
structure ContainmentRow where
  invocationId : Uuid
  state : ContainmentState
  hostId : Option String
  bootId : Option String
  daemonGeneration : Option Uuid
  version : Nat
  incidentSequence : Option Nat
  deriving DecidableEq, Repr

/-- A row of `conditions`. -/
structure ConditionRow where
  jobId : Uuid
  conditionIndex : Nat
  state : ConditionState
  spec : ConditionSpec
  deadlineMs : Option Int
  transitionArmed : Bool
  nextProbeMs : Option Int
  probeInvocationId : Option Uuid
  deriving DecidableEq, Repr

/-- `ConditionObservationValue`, with its source. -/
inductive ObservationValue where
  | path (present : Bool)
  | invalidated (reason : String)
  | time (reached : Bool)
  | probe (exitCode : Option Int) (timedOut accepted : Bool)
  deriving DecidableEq, Repr

/-- A row of `observations`. -/
structure ObservationRow where
  conditionId : Uuid
  observedMonotonicMs : Nat
  daemonGeneration : Uuid
  freshUntilMs : Int
  value : ObservationValue
  deriving DecidableEq, Repr

/-- A row of `leases`: the Lease of an Attempt's work, or of one probe.
`releasePending` is the column of the Lease's plan in an attached store: its
release was asked for, and the coordinator has not confirmed it. -/
structure LeaseRow where
  attemptId : Uuid
  invocationId : Option Uuid
  state : LeaseState
  claims : ResolvedClaims
  releasePending : Bool

/-- A row of `reservations`, under its Job. -/
structure ReservationRow where
  claims : ResolvedClaims
  createdMs : Int
  holdDeadlineMs : Int

inductive ProcessIdentity where
  | linux (hostId bootId : String) (pid startTicks pidNamespaceInode uid : Nat)
  | windows (hostId bootId : String) (pid creationFiletime100ns : Nat)
  | unknown (platform : String)
  deriving DecidableEq, Repr

/-- The native tables.  Of the retained events only those that name an
Invocation are kept as rows, with their sequence numbers. -/
structure NativeStore where
  /-- The next identifier that has not been used. -/
  nextUuid : Uuid
  /-- Does `attached_local_mode` have its row?  The store then belongs to an
  executor that gets its Leases from a coordinator. -/
  attached : Bool
  jobs : Table Uuid JobRow
  dependencies : List Dependency
  attempts : Table Uuid AttemptRow
  admissions : Table Uuid AdmissionRow
  invocations : Table Uuid InvocationRow
  containments : Table Uuid ContainmentRow
  conditions : Table Uuid ConditionRow
  observations : Table Uuid ObservationRow
  probeLogGc : Table Uuid Uuid
  leases : Table Uuid LeaseRow
  reservations : Table Uuid ReservationRow
  processIdentities : Table Uuid ProcessIdentity
  eventSequence : Nat
  invocationEvents : List (Nat × Uuid)

/-- The tables of a new store. -/
def NativeStore.initial : NativeStore where
  nextUuid := 1
  attached := false
  jobs := .empty
  dependencies := []
  attempts := .empty
  admissions := .empty
  invocations := .empty
  containments := .empty
  conditions := .empty
  observations := .empty
  probeLogGc := .empty
  leases := .empty
  reservations := .empty
  processIdentities := .empty
  eventSequence := 0
  invocationEvents := []

end Stillyard
