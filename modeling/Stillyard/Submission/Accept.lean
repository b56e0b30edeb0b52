import Stillyard.Native.Prepare
import Stillyard.Submission.Policy

/-!
# Acceptance of submissions

A submission is first received: one transaction retains its payload under the
scope and the client's key.  A second transaction then either creates all Jobs
of the submission and accepts it, or a single statement rejects it for good.

What the tables do not hold is an input of the call: the configuration of the
daemon, its clocks, the file system, the staged inputs, the checks of a
specification, and the check of a managed wait.
-/

namespace Stillyard

open Relational Fallible

/-- `StagedInputRef`: the hash and the length of a staged input. -/
abbrev StagedInputRef := String × Nat

structure BatchDependency where
  job : String
  kind : DependencyKind
  deriving DecidableEq, Repr

structure BatchMember where
  name : String
  spec : JobSpec
  dependencies : List BatchDependency
  deriving DecidableEq

/-- What a client submits: one Job, or a batch of them. -/
inductive Payload where
  | job (spec : JobSpec) (stdin : Option StagedInputRef)
  | batch (members : List BatchMember) (stdins : Table String StagedInputRef)
  deriving DecidableEq

/-- `submissions.kind`. -/
def Payload.isBatch : Payload → Bool
  | .job .. => false
  | .batch .. => true

inductive SubmissionState where
  | received
  | accepted
  | rejected
  deriving DecidableEq, Repr

/-- The text under which a state is stored. -/
def SubmissionState.text : SubmissionState → String
  | .received => "received"
  | .accepted => "accepted"
  | .rejected => "rejected"

/-- A row of `submissions`. -/
structure SubmissionRow where
  scope : Option (Uuid × Uuid)
  idempotencyKey : Uuid
  payloadHash : String
  state : SubmissionState
  payload : Payload
  parentJobId : Option Uuid
  parentAttemptId : Option Uuid
  parentInvocationId : Option Uuid
  waitIntent : Bool
  createdMs : Int
  jobId : Option Uuid
  batchId : Option Uuid
  rejectCode : Option String
  rejectDetail : Option String
  daemonGeneration : Option Uuid
  deriving DecidableEq

/-- The columns of `invocations` that the daemon's own process wrote. -/
structure InvocationProcess where
  rootPid : Option Nat
  daemonGeneration : Option Uuid
  deriving DecidableEq, Repr

/-- The tables that submissions read and write. -/
structure SubmissionStore where
  storeUuid : Uuid
  native : NativeStore
  /-- Further columns of the Jobs in `native`. -/
  origins : Table Uuid JobOrigin
  /-- Further columns of the Invocations in `native`. -/
  processes : Table Uuid InvocationProcess
  submissions : Table Uuid SubmissionRow
  /-- `batches`, with the submission of each. -/
  batches : Table Uuid Uuid

/-- What one call reads from outside the tables. -/
structure SubmissionCall where
  daemon : DaemonConfig
  /-- `validate` of the specifications, also against the host configuration. -/
  validate : Payload → StoreResult Unit
  /-- `payload::job_hash` and `payload::batch_hash`. -/
  payloadHash : Payload → StoreResult String
  /-- Is a same-store history repair pending? -/
  repairPending : Bool
  /-- `verify_file` of a staged input. -/
  verifyFile : StagedInputRef → StoreResult Unit
  createdMs : Int
  acceptedMs : Int
  /-- The file system when claims and policies are resolved. -/
  resolving : FileView
  /-- The file system when the policies of the ancestors are checked. -/
  checking : FileView
  /-- The path states of each member's Conditions. -/
  evaluations : Nat → ConditionEvaluations
  /-- `validate_managed_wait_targets`. -/
  waitTargets : SubmissionStore → ManagedParent → List Uuid → StoreResult Unit
  /-- Can the receipt of a Job be put together? -/
  receipt : Uuid → StoreResult Unit

/-- `StoreError::to_string`. -/
def StoreError.text : StoreError → String
  | .notFound detail => "not found: " ++ detail
  | .idempotencyConflict existing requested => "idempotency conflict: existing payload " ++
      existing ++ ", requested payload " ++ requested
  | .rejected detail => "submission rejected: " ++ detail
  | .operationRejected code detail => "operation rejected (" ++ code ++ "): " ++ detail
  | .blockedByAncestor detail => "managed wait blocked by an ancestor: " ++ detail
  | .managedWaitRejected code detail => "managed wait rejected (" ++ code ++ "): " ++ detail
  | .invalidSpec detail => "invalid specification: " ++ detail
  | .invalidState detail => "invalid durable state: " ++ detail
  | .io detail => "I/O: " ++ detail
  | .sqlite detail => "SQLite: " ++ detail

def rejectionDecision : StoreError → String × String
  | .blockedByAncestor detail => ("blocked_by_ancestor", detail)
  | .managedWaitRejected code detail => (code, detail)
  | .operationRejected code detail => (code, detail)
  | error => ("rejected", error.text)

def retainedRejection (code detail : Option String) : StoreError :=
  let code := code.getD "rejected"
  let detail := detail.getD "the retained submission decision is rejected"
  if code = "blocked_by_ancestor" then .blockedByAncestor detail
  else if code = "resource_capacity" then .managedWaitRejected code detail
  else if "child_".toList.isPrefixOf code.toList then .operationRejected code detail
  else .rejected detail

/-- How an acceptance ends without Jobs: with a durable rejection, or with an
error that changes nothing. -/
inductive Refusal where
  | reject (code detail : String) (error : StoreError)
  | fail (error : StoreError)

/-- `reject_received_for_error`, with the error that the caller gets. -/
def Refusal.rejectFor (decided error : StoreError) : Refusal :=
  .reject (rejectionDecision decided).1 (rejectionDecision decided).2 error

namespace SubmissionStore

variable (store : SubmissionStore)

/-- Is this the live primary Invocation of the Job, started by this daemon? -/
def currentParent (daemonGeneration : Uuid) (job attempt invocation : Uuid) : Bool :=
  ((store.native.jobs.get? job).any fun row => row.attemptId = some attempt &&
      row.invocationId = some invocation && row.state = .active) &&
    ((store.native.attempts.get? attempt).any fun row => row.state = .running) &&
    ((store.native.invocations.get? invocation).any fun row => row.state = .started &&
      row.role = .primary && row.rootExitCode = none) &&
    ((store.processes.get? invocation).any fun process => process.rootPid.isSome &&
      process.daemonGeneration = some daemonGeneration) &&
    store.native.containments.values.any fun row => row.invocationId = invocation &&
      row.state = .live

def validateCurrentParentIdentity (daemonGeneration : Uuid) (scope : SubmissionScope) :
    StoreResult Unit :=
  match scope with
  | .unmanaged => .ok ()
  | .managed parent => do
      require (parent.jobId.storeUuid = store.storeUuid &&
          parent.attemptId.storeUuid = store.storeUuid &&
          parent.invocationId.storeUuid = store.storeUuid)
        (.rejected "managed parent belongs to a foreign store")
      require (store.currentParent daemonGeneration parent.jobId.entityUuid
          parent.attemptId.entityUuid parent.invocationId.entityUuid)
        (.rejected "managed parent is no longer the live current primary Invocation")

end SubmissionStore

def validateBatchInputShape (members : List BatchMember) (stdins : Table String StagedInputRef) :
    StoreResult Unit := do
  let expected := ((members.filter fun member => member.spec.fileStdin).map BatchMember.name).dedup
  require (expected.length = stdins.rows.length && stdins.keys.all expected.contains)
    (.invalidSpec "Batch staged stdin mapping must exactly match file-stdin members")
  stdins.values.forM fun stdin => validateInputRef stdin.1 stdin.2

/-- The shape of a payload's inputs. -/
def Payload.validateInputShape : Payload → StoreResult Unit
  | .job spec stdin => Stillyard.validateInputShape spec stdin
  | .batch members stdins => validateBatchInputShape members stdins

/-- The staged inputs of a payload. -/
def Payload.inputs : Payload → List StagedInputRef
  | .job _ stdin => stdin.toList
  | .batch _ stdins => stdins.values

/-- `verify_staged_input` and `verify_staged_batch_inputs`. -/
def Payload.verifyStaged (call : SubmissionCall) (payload : Payload) : StoreResult Unit := do
  payload.validateInputShape
  payload.inputs.forM call.verifyFile

/-! ## Insertion of Jobs -/

namespace NativeStore

/-- `INSERT INTO dependencies`. -/
def insertDependency (store : NativeStore) (dependency : Dependency) :
    StoreResult NativeStore := do
  require (!store.dependencies.contains dependency) duplicateKey
  return { store with dependencies := store.dependencies ++ [dependency] }

end NativeStore

/-- A Job that is about to be created, with everything resolved. -/
structure ResolvedJob where
  id : Uuid
  spec : JobSpec
  claims : ResolvedClaims
  stdin : Option StagedInputRef
  policy : Option ResolvedChildSubmissionPolicy
  /-- The name and the index of the member of a batch. -/
  member : Option (String × Nat)

/-- The row of a new Job. -/
def ResolvedJob.row (job : ResolvedJob) (acceptedMs : Int) : JobRow where
  state := .pending
  outcome := none
  reasonCode := none
  spec := job.spec
  claims := job.claims
  stdinHash := job.stdin.map Prod.fst
  stdinLen := job.stdin.map Prod.snd
  attemptId := none
  invocationId := none
  containmentId := none
  rootExitCode := none
  acceptedMs
  startedMs := none
  finishedMs := none
  stdoutLen := 0
  stderrLen := 0
  cancelRequested := false
  retryNotBeforeMs := none
  reservationNotBeforeMs := none
  batchMember := job.member.map Prod.fst
  batchIndex := (job.member.map Prod.snd).getD 0

/-- The origin of a new Job. -/
def ResolvedJob.origin (job : ResolvedJob) (submission : Uuid) (batch : Option Uuid)
    (scope : SubmissionScope) (admission : Option ManagedPolicyAdmissionSnapshot) : JobOrigin where
  submissionId := submission
  batchId := batch
  parentJobId := scope.parent.map fun parent => parent.jobId.entityUuid
  parentAttemptId := scope.parent.map fun parent => parent.attemptId.entityUuid
  parentInvocationId := scope.parent.map fun parent => parent.invocationId.entityUuid
  resolvedChildPolicy := job.policy
  managedPolicyAdmission := admission

/-- How a call evaluates the Conditions of a new Job. -/
def SubmissionCall.acceptance (call : SubmissionCall) (index : Nat) : ConditionRefreshContext where
  daemonGeneration := call.daemon.daemonGeneration
  now := call.acceptedMs
  freshnessMillis := call.daemon.conditionRescanIntervalMillis
  force := true
  evaluations := call.evaluations index

/-- `ResolvedClaims::resolve` and `ResolvedChildSubmissionPolicy::resolve` for
one Job. -/
def resolveJob (call : SubmissionCall) (id : Uuid) (spec : JobSpec) (stdin : Option StagedInputRef)
    (member : Option (String × Nat)) : Except IoError ResolvedJob := do
  let claims ← ResolvedClaims.resolve call.resolving spec.resources
  let policy ← spec.childSubmissionPolicy.mapM
    (ResolvedChildSubmissionPolicy.resolve call.resolving)
  return ⟨id, spec, claims, stdin, policy, member⟩

namespace SubmissionStore

variable (store : SubmissionStore)

/-- `INSERT INTO jobs`, with the Conditions of the Job. -/
def insertJob (call : SubmissionCall) (submission : Uuid) (batch : Option Uuid)
    (scope : SubmissionScope) (entry : ResolvedJob × Option ManagedPolicyAdmissionSnapshot) :
    StoreResult SubmissionStore := do
  let job := entry.1
  let origins ← orError
    (store.origins.insert? job.id (job.origin submission batch scope entry.2)) duplicateKey
  let inserted ← store.native.insertJob job.id (job.row call.acceptedMs)
  let native ← inserted.insertConditions job.id job.spec.conditions call.acceptedMs
    (call.acceptance ((job.member.map Prod.snd).getD 0))
  return { store with native, origins }

/-! ## Decisions -/

/-- Change one submission. -/
def updateSubmission (id : Uuid) (change : SubmissionRow → SubmissionRow) : SubmissionStore :=
  { store with submissions := store.submissions.update id change }

def rejectReceivedWith (id : Uuid) (code detail : String) : SubmissionStore :=
  store.updateSubmission id fun row =>
    if row.state = .received then
      { row with state := .rejected, rejectCode := some code, rejectDetail := some detail }
    else row

/-- A member of a batch: its index, its Job and its name. -/
def batchColumns (batch job : Uuid) (origin : JobOrigin) : Option (Nat × Uuid × Option String) :=
  if origin.batchId = some batch then
    (store.native.jobs.get? job).map fun row => (row.batchIndex, job, row.batchMember)
  else none

/-- The Jobs of a batch with their names, in the order of their index. -/
def batchJobs (batch : Uuid) : List (Uuid × Option String) :=
  ((store.origins.select (store.batchColumns batch)).insertionSort
    fun left right => left.1 ≤ right.1).map Prod.snd

/-- `receipt`, of which the Job is kept. -/
def receipt (call : SubmissionCall) (job : Uuid) : StoreResult (List Uuid) := do
  require (store.native.jobs.get? job).isSome queryReturnedNoRows
  call.receipt job
  return [job]

/-- `batch_receipt`, of which the Jobs are kept. -/
def batchReceipt (call : SubmissionCall) (batch : Uuid) : StoreResult (List Uuid) := do
  let jobs := (store.batchJobs batch).map Prod.fst
  jobs.forM call.receipt
  require (!jobs.isEmpty) (.invalidState s!"retained batch {batch} has no members")
  return jobs

end SubmissionStore

/-- What an accepted submission created. -/
inductive Target where
  | job (id : Uuid)
  | batch (id : Uuid)
  deriving DecidableEq, Repr

namespace SubmissionStore

variable (store : SubmissionStore)

/-- The receipt of an accepted submission. -/
def receiptOf (call : SubmissionCall) : Target → StoreResult (List Uuid)
  | .job id => store.receipt call id
  | .batch id => store.batchReceipt call id

/-- The state in which an acceptance finds its submission: received, or already
accepted. -/
def pendingSubmission (id : Uuid) : Except Refusal SubmissionRow := do
  let row ← orError (store.submissions.get? id) (.fail queryReturnedNoRows)
  require (row.state ≠ .rejected)
    (.fail (.invalidState s!"submission {id} is terminal in state {row.state.text}"))
  return row

/-- Insert the Jobs of a submission and accept it. -/
def createJobs (call : SubmissionCall) (id : Uuid) (batch : Option Uuid) (scope : SubmissionScope)
    (jobs : List (ResolvedJob × Option ManagedPolicyAdmissionSnapshot)) :
    StoreResult SubmissionStore :=
  jobs.foldlM (fun state entry => state.insertJob call id batch scope entry)
    { store with native := store.native.drawn (jobs.length + 1) }

/-- The check of a wait for the new Jobs. -/
def checkWait (call : SubmissionCall) (scope : SubmissionScope) (wait : Bool) (jobs : List Uuid) :
    StoreResult Unit :=
  match wait, scope with
  | true, .managed parent => call.waitTargets store parent jobs
  | _, _ => .ok ()

/-- What an acceptance returns: the store after it, what it created, and whether
that is new. -/
abbrev Acceptance := SubmissionStore × Target × Bool

/-- The transaction of `accept_received`. -/
def acceptJob (call : SubmissionCall) (id : Uuid) (spec : JobSpec) (stdin : Option StagedInputRef)
    (scope : SubmissionScope) (wait : Bool) : Except Refusal SubmissionStore.Acceptance := do
  ((Payload.job spec stdin).verifyStaged call).mapError fun error =>
    .reject "rejected" error.text (.rejected error.text)
  let job ← (resolveJob call store.native.nextUuid spec stdin none).mapError fun error =>
    .reject "rejected" error.text (.rejected error.text)
  let row ← store.pendingSubmission id
  if row.state = .accepted then
    let existing ← orError row.jobId
      (.fail (.sqlite "Invalid column type Null at index: 0, name: job_id"))
    return (store, .job existing, false)
  else
    (store.validateCurrentParentIdentity call.daemon.daemonGeneration scope).mapError fun error =>
      .rejectFor error error
    let admission ← (evaluateManagedPolicy store.storeUuid store.origins call.checking scope spec
      call.acceptedMs).mapError fun error =>
        let error := contextualizePolicyRejection scope.parent none error
        .rejectFor error error
    let created ← (store.createJobs call id none scope [(job, admission)]).mapError .fail
    (created.checkWait call scope wait [job.id]).mapError fun error => .rejectFor error error
    return (created.updateSubmission id fun row =>
      { row with
        state := .accepted
        jobId := some job.id
        daemonGeneration := some call.daemon.daemonGeneration }, .job job.id, true)

/-- The Jobs of a batch with everything resolved. -/
def resolveMembers (call : SubmissionCall) (first : Uuid) (members : List BatchMember)
    (stdins : Table String StagedInputRef) : Except IoError (List ResolvedJob) :=
  members.zipIdx.mapM fun entry => resolveJob call (first + entry.2) entry.1.spec
    (stdins.get? entry.1.name) (some (entry.1.name, entry.2))

/-- The Job of a named member; a later member wins. -/
def memberJob (jobs : List ResolvedJob) (name : String) : Option Uuid :=
  (jobs.findRev? fun job => job.member.map Prod.fst = some name).map ResolvedJob.id

/-- The dependencies of one member. -/
def insertMemberDependencies (jobs : List ResolvedJob) (store : SubmissionStore)
    (entry : BatchMember × ResolvedJob) : StoreResult SubmissionStore :=
  entry.1.dependencies.foldlM (fun state dependency => do
    let predecessor ← orError (memberJob jobs dependency.job) (.invalidState
      s!"retained batch member {entry.1.name} has unknown predecessor {dependency.job}")
    let native ← state.native.insertDependency ⟨predecessor, entry.2.id, dependency.kind⟩
    return { state with native }) store

/-- The evaluation of one member of a batch. -/
def admitMember (call : SubmissionCall) (scope : SubmissionScope) (member : BatchMember) :
    Except Refusal (Option ManagedPolicyAdmissionSnapshot) :=
  (evaluateManagedPolicy store.storeUuid store.origins call.checking scope member.spec
    call.acceptedMs).mapError fun error =>
      let error := contextualizePolicyRejection scope.parent (some member.name) error
      .rejectFor error error

/-- The transaction of `accept_received_batch`. -/
def acceptBatch (call : SubmissionCall) (id : Uuid) (members : List BatchMember)
    (stdins : Table String StagedInputRef) (scope : SubmissionScope) (wait : Bool) :
    Except Refusal SubmissionStore.Acceptance := do
  ((Payload.batch members stdins).verifyStaged call).mapError fun error =>
    .reject "rejected" error.text error
  let batch := store.native.nextUuid
  let jobs ← (resolveMembers call (batch + 1) members stdins).mapError fun error =>
    let error := StoreError.invalidSpec error.text
    .rejectFor error (.rejected error.text)
  let row ← store.pendingSubmission id
  if row.state = .accepted then
    let existing ← orError row.batchId
      (.fail (.sqlite "Invalid column type Null at index: 0, name: batch_id"))
    return (store, .batch existing, false)
  else
    (store.validateCurrentParentIdentity call.daemon.daemonGeneration scope).mapError fun error =>
      .rejectFor error (.rejected error.text)
    let admissions ← members.mapM (store.admitMember call scope)
    let batches ← orError (store.batches.insert? batch id) (.fail duplicateKey)
    let created ← ({ store with batches }.createJobs call id (some batch) scope
      (jobs.zip admissions)).mapError .fail
    let linked ← ((members.zip jobs).foldlM (insertMemberDependencies jobs) created).mapError .fail
    (linked.checkWait call scope wait (jobs.map ResolvedJob.id)).mapError fun error =>
      .rejectFor error error
    return (linked.updateSubmission id fun row =>
      { row with
        state := .accepted
        batchId := some batch
        daemonGeneration := some call.daemon.daemonGeneration }, .batch batch, true)

end SubmissionStore

end Stillyard
