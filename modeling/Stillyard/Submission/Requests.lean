import Stillyard.Submission.Accept

/-!
# Requests about submissions

A client submits a payload under its own key, repeats the request when it got no
answer, or asks what became of it.  A repeated request is answered from the
retained submission.  A daemon that stopped after a submission was received
decides it when it starts again.
-/

namespace Stillyard

open Relational Fallible

/-- `Request::Submit` and `Request::SubmitBatch`, in the scope of the peer that
sent it. -/
structure SubmitRequest where
  scope : SubmissionScope
  idempotencyKey : Uuid
  payloadHash : String
  payload : Payload
  waitForCompletion : Bool

/-- `SubmitResult` and `BatchSubmitResult`. -/
structure SubmitResult where
  jobs : List Uuid
  shouldSchedule : Bool
  deriving DecidableEq, Repr

inductive RecoveryResult where
  | unknown
  | notReceived
  | conflict (existingPayloadHash requestedPayloadHash : String)
  | received (submission : Uuid)
  | accepted (jobs : List Uuid)
  | rejected (code detail : String)
  deriving DecidableEq, Repr

/-- `Response`, as far as it answers a submission. -/
inductive Response where
  | submitted (jobs : List Uuid)
  | submissionRejected (code message : String)
  | failed (error : StoreError)
  deriving DecidableEq, Repr

namespace SubmissionStore

variable (store : SubmissionStore)

/-- The transaction that accepts a submission. -/
def acceptPayload (call : SubmissionCall) (id : Uuid) (payload : Payload) (scope : SubmissionScope)
    (wait : Bool) : Except Refusal SubmissionStore.Acceptance :=
  match payload with
  | .job spec stdin => store.acceptJob call id spec stdin scope wait
  | .batch members stdins => store.acceptBatch call id members stdins scope wait

/-- `accept_received` and `accept_received_batch`. -/
def acceptReceived (call : SubmissionCall) (id : Uuid) (payload : Payload) (scope : SubmissionScope)
    (wait : Bool) : SubmissionStore × StoreResult SubmitResult :=
  match store.acceptPayload call id payload scope wait with
  | .ok (next, target, isNew) => (next, (next.receiptOf call target).map fun jobs => ⟨jobs, isNew⟩)
  | .error (.reject code detail error) => (store.rejectReceivedWith id code detail, .error error)
  | .error (.fail error) => (store, .error error)

/-- The retained submission under a scope and a key. -/
def findSubmission (scope : SubmissionScope) (idempotencyKey : Uuid) :
    Option (Uuid × SubmissionRow) :=
  store.submissions.rows.find? fun entry =>
    entry.2.scope = scope.key && entry.2.idempotencyKey = idempotencyKey

/-- The checks of a request before its key is looked up. -/
def checkRequest (call : SubmissionCall) (request : SubmitRequest) : StoreResult String := do
  call.validate request.payload
  request.payload.validateInputShape
  let payloadHash ← call.payloadHash request.payload
  require (request.payloadHash = payloadHash)
    (.invalidSpec "payload hash does not match the normalized specification")
  return payloadHash

/-- The row of a received submission. -/
def receivedRow (call : SubmissionCall) (request : SubmitRequest) (payloadHash : String) :
    SubmissionRow where
  scope := request.scope.key
  idempotencyKey := request.idempotencyKey
  payloadHash
  state := .received
  payload := request.payload
  parentJobId := request.scope.parent.map fun parent => parent.jobId.entityUuid
  parentAttemptId := request.scope.parent.map fun parent => parent.attemptId.entityUuid
  parentInvocationId := request.scope.parent.map fun parent => parent.invocationId.entityUuid
  waitIntent := request.waitForCompletion
  createdMs := call.createdMs
  jobId := none
  batchId := none
  rejectCode := none
  rejectDetail := none
  daemonGeneration := none

/-- The transaction that retains a new submission, with its identifier. -/
def receive (call : SubmissionCall) (request : SubmitRequest) (payloadHash : String) :
    StoreResult (Uuid × SubmissionStore) := do
  -- `check_new_submission_during_repair`
  require (!call.repairPending) (.operationRejected "authority_repair_pending"
    ("same-store history repair temporarily refuses new submissions; " ++
      "existing receipt recovery and cancellation remain available"))
  request.payload.verifyStaged call
  store.validateCurrentParentIdentity call.daemon.daemonGeneration request.scope
  let id := store.native.nextUuid
  let submissions ← orError
    (store.submissions.insert? id (receivedRow call request payloadHash)) duplicateKey
  return (id, { store with submissions, native := store.native.drawn 1 })

/-- Retain that a client waits for the submission. -/
def noteWait (id : Uuid) (row : SubmissionRow) (wait : Bool) : SubmissionStore :=
  if wait && !row.waitIntent then
    store.updateSubmission id fun row =>
      if row.state = .received then { row with waitIntent := true } else row
  else store

/-- What an accepted submission created. -/
def target (row : SubmissionRow) : StoreResult Target :=
  if row.payload.isBatch then
    (orError row.batchId
      (.invalidState "accepted batch submission has no batch")).map .batch
  else (orError row.jobId (.invalidState "accepted submission has no job")).map .job

/-- The receipt of an accepted submission. -/
def acceptedReceipt (call : SubmissionCall) (row : SubmissionRow) :
    StoreResult (List Uuid) := do
  let target ← target row
  store.receiptOf call target

/-- The answer to a request whose key is known. -/
def repeatSubmission (call : SubmissionCall) (request : SubmitRequest) (payloadHash : String)
    (id : Uuid) (row : SubmissionRow) : SubmissionStore × StoreResult SubmitResult :=
  if row.payloadHash ≠ payloadHash ∨ row.payload.isBatch ≠ request.payload.isBatch then
    (store, .error (.idempotencyConflict row.payloadHash payloadHash))
  else match row.state with
    | .accepted => (store, (store.acceptedReceipt call row).map fun jobs => ⟨jobs, false⟩)
    | .received =>
      let wait := row.waitIntent || request.waitForCompletion
      (store.noteWait id row wait).acceptReceived call id row.payload request.scope wait
    | .rejected => (store, .error (retainedRejection row.rejectCode row.rejectDetail))

/-- `submit_with_stdin_scoped_for_wait` and
`submit_batch_with_stdins_scoped_for_wait`. -/
def submit (call : SubmissionCall) (request : SubmitRequest) :
    SubmissionStore × StoreResult SubmitResult :=
  match checkRequest call request with
  | .error error => (store, .error error)
  | .ok payloadHash => match store.findSubmission request.scope request.idempotencyKey with
    | some (id, row) => store.repeatSubmission call request payloadHash id row
    | none => match store.receive call request payloadHash with
      | .error error => (store, .error error)
      | .ok (id, received) =>
        received.acceptReceived call id request.payload request.scope request.waitForCompletion

/-- The store after the first transaction of a request, when the daemon stops
there. -/
def stopped (call : SubmissionCall) (request : SubmitRequest) : SubmissionStore :=
  match checkRequest call request with
  | .error _ => store
  | .ok payloadHash => match store.findSubmission request.scope request.idempotencyKey with
    | some (id, row) =>
      if row.payloadHash = payloadHash ∧ row.payload.isBatch = request.payload.isBatch ∧
          row.state = .received then
        store.noteWait id row (row.waitIntent || request.waitForCompletion)
      else store
    | none => match store.receive call request payloadHash with
      | .error _ => store
      | .ok (_, received) => received

/-! ## Recovery of a receipt -/

/-- `recover_submission_scoped`. -/
def recoverSubmission (call : SubmissionCall) (scope : SubmissionScope) (idempotencyKey : Uuid)
    (payloadHash : String) : StoreResult RecoveryResult :=
  match store.findSubmission scope idempotencyKey with
  | none => match scope with
    | .unmanaged => .ok .unknown
    | .managed _ =>
      match store.validateCurrentParentIdentity call.daemon.daemonGeneration scope with
      | .ok _ => .ok .notReceived
      | .error (.rejected _) => .ok .unknown
      | .error error => .error error
  | some (id, row) =>
    if row.payloadHash ≠ payloadHash then .ok (.conflict row.payloadHash payloadHash)
    else match row.state with
      | .received => .ok (.received id)
      | .accepted => (store.acceptedReceipt call row).map .accepted
      | .rejected => .ok (.rejected (row.rejectCode.getD "rejected")
          (row.rejectDetail.getD "submission was rejected"))

/-- The answer to a submission; `retained_submission_rejection` prefers the
retained rejection to the error. -/
def respond (call : SubmissionCall) (request : SubmitRequest) : SubmissionStore × Response :=
  match store.submit call request with
  | (next, .ok result) => (next, .submitted result.jobs)
  | (next, .error error) =>
    match next.recoverSubmission call request.scope request.idempotencyKey request.payloadHash with
    | .ok (.rejected code detail) => (next, .submissionRejected code detail)
    | _ => (next, .failed error)

/-- The received submissions, oldest first. -/
def receivedSubmissions : List (Uuid × SubmissionRow) :=
  (store.submissions.rows.filter fun entry => entry.2.state = .received).insertionSort
    fun left right => left.2.createdMs ≤ right.2.createdMs

/-- The scope of a retained submission. -/
def retainedScope (row : SubmissionRow) : StoreResult SubmissionScope :=
  (managedParentFromColumns store.storeUuid row.parentJobId row.parentAttemptId
    row.parentInvocationId).map fun parent => parent.elim .unmanaged .managed

/-- The errors of one submission that do not stop the daemon. -/
def tolerated : StoreError → Bool
  | .invalidSpec _ | .rejected _ | .blockedByAncestor _ | .managedWaitRejected _ _
  | .operationRejected _ _ => true
  | _ => false

/-- The loop of `resume_received`. -/
def resumeRows (calls : Uuid → SubmissionCall) (store : SubmissionStore) :
    List (Uuid × SubmissionRow) → SubmissionStore × StoreResult Unit
  | [] => (store, .ok ())
  | (id, row) :: rest => match store.retainedScope row with
    | .error error => (store, .error error)
    | .ok scope =>
      match store.acceptReceived (calls id) id row.payload scope row.waitIntent with
      | (next, .ok _) => resumeRows calls next rest
      | (next, .error error) =>
        if tolerated error then resumeRows calls next rest else (next, .error error)

def resumeReceived (calls : Uuid → SubmissionCall) : SubmissionStore × StoreResult Unit :=
  resumeRows calls store store.receivedSubmissions

end SubmissionStore

end Stillyard
