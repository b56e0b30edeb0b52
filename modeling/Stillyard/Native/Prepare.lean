import Stillyard.Native.Reservations

/-!
# Preparation of work and probes

A scheduling pass runs one transaction per pending Job.  It expires deadlines,
checks dependencies, refreshes the Conditions, and then either grants the Job a
Lease with a prepared Invocation, reserves scalars for it, or leaves it waiting.
A Job that waits for its Conditions may get a probe instead.

The transaction is committed on some exits and rolled back on others.  A
rollback is modelled by returning the store it started from.
-/

namespace Stillyard

open Relational Fallible

/-- What a running daemon was configured with. -/
structure DaemonConfig where
  capacities : ResourceCapacities
  impactIncompatibilities : Table String (List String)
  hostId : Option String
  bootId : Option String
  daemonGeneration : Uuid
  conditionRescanIntervalMillis : Nat
  admissionWallClockLimitSeconds : Nat
  quietMaxSampleGapMillis : Nat
  preReleaseMaxDeferrals : Nat
  preReleaseBackoffMillis : Nat
  /-- `ResolvedClaims::resolve` of the resources of a probe. -/
  resolve : ResourceClaims → StoreResult ResolvedClaims

/-- `evaluate_admission` of a captured sample. -/
abbrev Observation := JobSpec → List ResolvedClaims → AdmissionContext

structure PlannedIds where
  invocation : Uuid
  containment : Uuid
  lease : Uuid

/-- What `attached::prepare` reads from the tables of the attachment. -/
structure AttachmentView where
  connected : Bool
  /-- The plan of the slot, with whether its Grant is armed. -/
  plan : Option (PlannedIds × Bool)
  /-- The plan has another candidate, or its release was asked for. -/
  sealed_ : Bool
  /-- There are `MAX_DOMAIN_CANDIDATES` unreleased plans. -/
  full : Bool

structure Admission where
  ids : PlannedIds
  ready : Bool
  changed : Bool
  persist : Bool

/-- What one scheduling transaction reads from outside its own tables.  The
clock is read twice, and an observation may have become too old. -/
structure PassInput where
  now : Int
  refreshNow : Int
  evaluations : ConditionEvaluations
  remote : RemoteView
  attachment : AttachmentView
  observation : Option (StoreResult Observation)
  logDirectory : StoreResult Unit

/-- `PreparedJob`, the identities with which a runner calls the store. -/
structure PreparedJob where
  jobId : Uuid
  attemptId : Uuid
  invocationId : Uuid
  containmentId : Uuid
  spec : JobSpec
  role : InvocationRole
  conditionId : Option Uuid
  attemptDeadlineUnixMillis : Option Int
  deriving DecidableEq, Repr

inductive PrepareJob where
  | ready (job : PreparedJob)
  | blocked
  | stateChanged
  deriving DecidableEq, Repr

/-- Where the first part of a scheduling transaction leads. -/
inductive Stage where
  /-- The pass ends with this result. -/
  | exit (result : PrepareJob)
  /-- The Conditions block the Job; a probe of them may be due. -/
  | probe
  /-- Nothing so far blocks the Job. -/
  | clear
  deriving DecidableEq, Repr

/-- The refresh of a pass. -/
def PassInput.refresh (pass : PassInput) (config : DaemonConfig) (force : Bool) :
    ConditionRefreshContext where
  daemonGeneration := config.daemonGeneration
  now := if force then pass.refreshNow else pass.now
  freshnessMillis := config.conditionRescanIntervalMillis
  force
  evaluations := pass.evaluations

def maxStdinBytes : Nat := 64 * 1024 * 1024

def stagedInput (row : JobRow) : StoreResult (Option (String × Nat)) :=
  match row.stdinHash, row.stdinLen with
  | some sha256, some length => .ok (some (sha256, length))
  | none, none => .ok none
  | _, _ => .error (.invalidState "job has a partial staged stdin reference")

def validateInputRef (sha256 : String) (length : Nat) : StoreResult Unit :=
  require
    (length ≤ maxStdinBytes && sha256.utf8ByteSize = 64 &&
      sha256.toList.all fun char => char.isDigit || ('a' ≤ char && char ≤ 'f'))
    (.invalidSpec
      s!"staged stdin must be at most {maxStdinBytes} bytes with a lowercase SHA-256")

def validateInputShape (spec : JobSpec) (stdin : Option (String × Nat)) : StoreResult Unit :=
  match spec.fileStdin, stdin with
  | false, none => .ok ()
  | true, some (sha256, length) => validateInputRef sha256 length
  | false, some _ => .error (.invalidSpec "EOF stdin must not carry a staged input")
  | true, none => .error (.invalidSpec "file stdin requires one committed staged input")

/-- The checks of a granted Job's input and log directory. -/
def PassInput.checkInputs (pass : PassInput) (row : JobRow) : StoreResult Unit := do
  let stdin ← stagedInput row
  validateInputShape row.spec stdin
  pass.logDirectory

/-- Does a finished predecessor satisfy the dependency? -/
def DependencyKind.satisfied (kind : DependencyKind) (outcome : Option JobOutcome) : Bool :=
  match kind with
  | .success => outcome = some .succeeded
  | .failure => outcome = some .failed
  | .terminal => true

namespace NativeStore

variable (store : NativeStore)

/-- The pending Job whose retry is due. -/
def pendingJob (job : Uuid) (now : Int) : Option JobRow :=
  (store.jobs.get? job).filter fun row => row.state = .pending && row.retryNotBeforeMs.getD 0 ≤ now

/-- The dependencies of a Job with the rows of their predecessors, in the order
of the batch. -/
def predecessors (job : Uuid) : List (DependencyKind × JobRow) :=
  ((store.dependencies.filter fun dependency => dependency.successorId = job).filterMap
    fun dependency => (store.jobs.get? dependency.predecessorId).map fun row =>
      (dependency.kind, row)).insertionSort fun left right =>
        left.2.batchIndex ≤ right.2.batchIndex

/-- `dependency_blockers_tx`: the unfinished predecessors, and whether a
finished one makes the Job impossible. -/
def dependencyBlockers (job : Uuid) : List Blocker × Bool :=
  let rows := store.predecessors job
  (rows.filterMap fun entry =>
      if entry.2.state ≠ .final then
        some ⟨"dependency_pending", entry.2.batchMember.getD "predecessor"⟩
      else none,
    rows.any fun entry => entry.2.state = .final && !entry.1.satisfied entry.2.outcome)

/-- The Job can never run. -/
def skipJob (job : Uuid) (now : Int) : NativeStore :=
  store.updateJobsState (fun id row => id = job && row.state = .pending) fun row =>
    { row with state := .final, outcome := some .skipped, finishedMs := some now }

/-- In an observed admission the waiting Attempt is settled first. -/
def skipObservedJob (job : Uuid) (attempt : Option Uuid) (now : Int) : NativeStore :=
  (store.updateAttempts (fun id row => attempt = some id && waitingAttempt row) fun row =>
    { row with
      state := .settled
      verdict := some .safetyFailed
      safetyReason := some "dependency_impossible"
      finishedMs := some now }).skipJob job now

/-- Commit the loss of a reservation, or roll back. -/
def dropReservationOrRollBack (base : NativeStore) (job : Uuid) : NativeStore × Stage :=
  if (store.reservations.get? job).isSome then
    (store.releaseReservation job, .exit .stateChanged)
  else (base, .exit .blocked)

/-- The exits while Conditions block the Job. -/
def blockedByConditions (base : NativeStore) (job : Uuid) (changed : Bool) : NativeStore × Stage :=
  if (store.reservations.get? job).isSome then
    (store.releaseReservation job, .exit .stateChanged)
  else if changed then (store, .probe)
  else (base, .probe)

/-- The refresh of the Conditions and its exits. -/
def refreshStage (config : DaemonConfig) (pass : PassInput) (job : Uuid) :
    StoreResult (NativeStore × Stage) :=
  (store.refreshConditions job (pass.refresh config false)).map fun (next, refresh) =>
    if refresh.deadlineExpired then (next, .exit .stateChanged)
    else if refresh.blockers ≠ [] then next.blockedByConditions store job refresh.stateChanged
    else (next, .clear)

/-- The first part of a scheduling transaction: deadlines, dependencies and
Conditions. -/
def readinessStage (config : DaemonConfig) (pass : PassInput) (job : Uuid)
    (skip : NativeStore → NativeStore) : StoreResult (NativeStore × Stage) := do
  match ← store.expireConditionDeadline job pass.now with
  | (next, some _) => return (next, .exit .stateChanged)
  | (_, none) =>
    let (blockers, impossible) := store.dependencyBlockers job
    if impossible then return (skip store, .exit .stateChanged)
    else if blockers ≠ [] then return store.dropReservationOrRollBack store job
    else store.refreshStage config pass job

/-! ## Granting -/

/-- The index of the next Attempt of a Job. -/
def nextAttemptIndex (job : Uuid) : Nat :=
  ((store.attempts.values.filter fun row => row.jobId = job).map AttemptRow.attemptIndex).foldl
    max 0 + 1

/-- The index of the next Invocation of an Attempt. -/
def nextRoleIndex (attempt : Uuid) : Nat :=
  (store.invocations.values.filter fun row => row.attemptId = attempt).foldl
    (fun next row => max next (row.roleIndex + 1)) 0

/-- Insert a planned Attempt of the Job. -/
def planAttempt (job : Uuid) : StoreResult (NativeStore × Uuid) :=
  ((store.drawn 1).insertAttempt store.nextUuid
    { jobId := job
      state := .planned
      attemptIndex := store.nextAttemptIndex job
      verdict := none
      safetyReason := none
      startedMs := none
      deadlineMs := none
      finishedMs := none
      primaryResult := none }).map fun next => (next, store.nextUuid)

/-- The Attempt that a pending Job prepares work for. -/
def requireWaitingAttempt (attempt : Uuid) (what : String) : StoreResult Unit := do
  let row ← orError (store.attempts.get? attempt) queryReturnedNoRows
  require (waitingAttempt row)
    (.invalidState (what ++ " planned/admitting Attempt, found " ++ row.state.text))

/-- The Attempt of the Job, or a new planned one. -/
def currentAttempt (job : Uuid) (attempt : Option Uuid) (what : String) :
    StoreResult (NativeStore × Uuid) :=
  match attempt with
  | some attempt => (store.requireWaitingAttempt attempt what).map fun _ => (store, attempt)
  | none => store.planAttempt job

def ensureAdmittingRow (attempt : Uuid) (now : Int) (wallLimitSeconds : Nat) : NativeStore :=
  let row : AdmissionRow :=
    { wallDeadlineMs := afterSeconds now wallLimitSeconds
      quietConsumedMs := 0
      lastEvalMonotonicMs := none
      lastEvalGeneration := none
      quietGeneration := none
      quietFirstMonotonicMs := none
      quietLastMonotonicMs := none
      deferralCount := 0
      retryNotBeforeMs := none
      lastBlockers := []
      reservationGeneration := none
      preResumeDeferReason := none }
  { store with admissions := (store.admissions.insert? attempt row).getD store.admissions }

/-- The identifiers that are planned next. -/
def plannedIds : PlannedIds := ⟨store.nextUuid, store.nextUuid + 1, store.nextUuid + 2⟩

/-- A pending Job remembers the Attempt that work is prepared for. -/
def recordAttempt (job attempt : Uuid) : NativeStore :=
  store.updateJobs (fun id row => id = job && row.state = .pending) fun row =>
    { row with attemptId := some attempt }

theorem drawn_recordAttempt (job attempt : Uuid) :
    (store.drawn count).recordAttempt job attempt = (store.recordAttempt job attempt).drawn count :=
  rfl

/-- `attached::prepare`.  An unattached store is always ready.  The slot of a plan
names its Attempt, so there is no plan yet for an Attempt that is `new`. -/
def attachedPrepare (attachment : AttachmentView) (job attempt : Uuid) (new : Bool) :
    StoreResult (NativeStore × Admission) :=
  if !store.attached then .ok (store.drawn 3, ⟨store.plannedIds, true, false, false⟩)
  else if !attachment.connected then .ok (store, ⟨store.plannedIds, false, false, false⟩)
  else match if new then none else attachment.plan with
    | some (ids, armed) =>
      if attachment.sealed_ then .error (.invalidState
        "attached candidate changed or was sealed; reconcile before replanning")
      else .ok (store, ⟨ids, armed, false, true⟩)
    | none =>
      if attachment.full then .ok (store, ⟨store.plannedIds, false, false, false⟩)
      else .ok ((store.drawn 3).recordAttempt job attempt, ⟨store.plannedIds, false, true, true⟩)

/-- The result of an admission that is not ready, committed or rolled back. -/
def awaitAdmission (base : NativeStore) (admission : Admission) : NativeStore × PrepareJob :=
  (if admission.persist then store else base,
    if admission.changed then .stateChanged else .blocked)

/-- Insert a prepared Invocation with its Containment. -/
def insertPrepared (config : DaemonConfig) (ids : PlannedIds) (attempt : Uuid)
    (role : InvocationRole) (condition : Option Uuid) : StoreResult NativeStore := do
  let inserted ← store.insertInvocation ids.invocation
    { attemptId := attempt
      role
      roleIndex := store.nextRoleIndex attempt
      conditionId := condition
      state := .prepared
      rootExitCode := none
      startedMs := none
      exitedMs := none
      finishedMs := none }
  inserted.insertContainment ids.containment
    { invocationId := ids.invocation
      state := .creating
      hostId := config.hostId
      bootId := config.bootId
      daemonGeneration := some config.daemonGeneration
      version := 1
      incidentSequence := none }

/-- The deadline of an Attempt that starts at once. -/
def attemptDeadline (spec : JobSpec) (started : Option Int) : Option Int :=
  started.bind fun started => spec.timeoutSeconds.map (afterSeconds started)

/-- The Job becomes active with its new Invocation. -/
def activateJob (job attempt : Uuid) (ids : PlannedIds) : NativeStore :=
  store.updateJobsState (fun id row => id = job && row.state = .pending) fun row =>
    { row with
      state := .active
      attemptId := some attempt
      invocationId := some ids.invocation
      containmentId := some ids.containment
      stdoutLen := 0
      stderrLen := 0
      retryNotBeforeMs := none
      reservationNotBeforeMs := none }

/-- The Attempt of an activated Job. -/
def startAttempt (attempt : Uuid) (from_ : AttemptRow → Bool) (started deadline : Option Int) :
    NativeStore :=
  store.updateAttempts (fun id row => id = attempt && from_ row) fun row =>
    { row with state := .starting, startedMs := started, deadlineMs := deadline }

/-- The prepared primary Invocation. -/
def preparedPrimary (job attempt : Uuid) (spec : JobSpec) (ids : PlannedIds)
    (deadline : Option Int) : PreparedJob where
  jobId := job
  attemptId := attempt
  invocationId := ids.invocation
  containmentId := ids.containment
  spec
  role := .primary
  conditionId := none
  attemptDeadlineUnixMillis := deadline

/-- Activate the Job, with its Attempt, a primary Invocation and the Lease. -/
def grantPrimary (config : DaemonConfig) (pass : PassInput) (job : Uuid) (row : JobRow)
    (attempt : Uuid) (ids : PlannedIds) : StoreResult (NativeStore × PreparedJob) := do
  let started := if row.spec.conditions.isEmpty then some pass.now else none
  let deadline := attemptDeadline row.spec started
  let active := store.activateJob job attempt ids
  let admitted := if row.spec.conditions.isEmpty then active
    else active.ensureAdmittingRow attempt pass.now config.admissionWallClockLimitSeconds
  let starting := admitted.startAttempt attempt waitingAttempt started deadline
  let prepared ← starting.insertPrepared config ids attempt .primary none
  let leased ← prepared.insertLease ids.lease ⟨attempt, none, .granted, row.claims, false⟩
  return (leased, preparedPrimary job attempt row.spec ids deadline)

/-! ## `prepare_job_inner` -/

/-- The grant of a Job whose scalars fit. -/
def grantStage (base : NativeStore) (config : DaemonConfig) (pass : PassInput) (job : Uuid)
    (row : JobRow) : StoreResult (NativeStore × Stage) := do
  pass.checkInputs row
  let (planned, attempt) ← store.currentAttempt job row.attemptId "primary preparation requires"
  let (admitted, admission) ← planned.attachedPrepare pass.attachment job attempt
    row.attemptId.isNone
  if !admission.ready then
    let awaited := admitted.awaitAdmission base admission
    return (awaited.1, .exit awaited.2)
  else
    let (granted, prepared) ← admitted.grantPrimary config pass job row attempt admission.ids
    return (granted, .exit (.ready prepared))

/-- The exits of the scalar disposition; `held` is the store that stays when
the Job has to wait. -/
def dispositionStage (held : NativeStore)
    (grant : NativeStore → StoreResult (NativeStore × Stage)) :
    NativeStore × ScalarDisposition → StoreResult (NativeStore × Stage)
  | (next, .grant) => grant next
  | (next, .created) => .ok (next, .exit .stateChanged)
  | (next, .stateChanged) => .ok (next, .exit .stateChanged)
  | (_, .hold) => .ok (held, .exit .blocked)

/-- The transaction after the Conditions were found satisfied: fences and
impacts, a forced refresh, the scalars, and the grant. -/
def admissionStage (base : NativeStore) (config : DaemonConfig) (pass : PassInput) (job : Uuid)
    (row : JobRow) : StoreResult (NativeStore × Stage) := do
  let active := store.activeClaims pass.remote
  if row.claims.nonScalarBlockers active config.impactIncompatibilities ≠ [] then
    return store.dropReservationOrRollBack base job
  else
    let (refreshed, final) ← store.refreshConditions job (pass.refresh config true)
    if final.deadlineExpired || !final.blockers.isEmpty then
      return (refreshed.releaseReservation job, .exit .stateChanged)
    else
      let disposed ← refreshed.scalarDisposition pass.remote config.capacities job row.claims
        active pass.now
      dispositionStage base (fun next => next.grantStage base config pass job row) disposed

/-- Continue a clear transaction. -/
def continueWhenClear (next : NativeStore → StoreResult (NativeStore × Stage)) :
    NativeStore × Stage → StoreResult (NativeStore × Stage)
  | (store, .clear) => next store
  | ended => .ok ended

/-- The transaction of `prepare_job_inner`. -/
def prepareJob (config : DaemonConfig) (pass : PassInput) (job : Uuid) :
    StoreResult (NativeStore × Stage) :=
  match store.pendingJob job pass.now with
  | none => .ok (store, .exit .blocked)
  | some row => do
      let readied ← store.readinessStage config pass job fun store => store.skipJob job pass.now
      continueWhenClear (fun next => next.admissionStage store config pass job row) readied

end NativeStore

end Stillyard
