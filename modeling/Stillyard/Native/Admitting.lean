import Stillyard.Admission.Ancestors
import Stillyard.Native.Prepare

/-!
# Observed admission

A Job that needs a host observation is admitted in steps: an Attempt is planned,
it becomes admitting once nothing static blocks it, and only an observation that
shows enough free resources, for long enough if the Job wants a quiet host, lets
it start.  An admission that takes too long fails its Attempt.

Unlike the transaction of an unobserved Job, this one is committed on every exit
after the Conditions were found satisfied; only an error rolls it back.
-/

namespace Stillyard

open Relational Fallible

/-- The columns of an admission that measure the quiet wait budget. -/
def AdmissionRow.budget (row : AdmissionRow) : QuietProgress :=
  ⟨row.quietConsumedMs, row.lastEvalGeneration, row.lastEvalMonotonicMs, none, none⟩

/-- The columns of an admission that measure the quiet stretch. -/
def AdmissionRow.stretch (row : AdmissionRow) : QuietProgress :=
  ⟨0, row.quietGeneration, none, row.quietFirstMonotonicMs, row.quietLastMonotonicMs⟩

/-- How the quiet part of an admission continues. -/
inductive QuietStep where
  | unattainable
  | waiting
  | stable
  deriving DecidableEq, Repr

namespace NativeStore

variable (store : NativeStore)

def admissionDeadlineExpired (attempt : Uuid) (now : Int) : Bool :=
  (store.admissions.get? attempt).any fun row => row.wallDeadlineMs ≤ now

def recordAdmissionBlockers (attempt : Uuid) (blockers : List Blocker) : NativeStore :=
  store.updateAdmission attempt fun row => { row with lastBlockers := blockers }

def pauseQuietProgress (attempt : Uuid) : NativeStore :=
  store.updateAdmission attempt fun row =>
    { row with
      lastEvalMonotonicMs := none
      lastEvalGeneration := none
      quietGeneration := none
      quietFirstMonotonicMs := none
      quietLastMonotonicMs := none }

def updateAdmissionProgress (attempt : Uuid) (context : AdmissionContext) (blockers : List Blocker)
    (consumed : Nat) (stability : Option Nat × Option Nat) : NativeStore :=
  store.updateAdmission attempt fun row =>
    { row with
      quietConsumedMs := consumed
      lastEvalMonotonicMs := some context.evaluatedMonotonicMillis
      lastEvalGeneration := some context.observationGeneration
      quietGeneration := some context.observationGeneration
      quietFirstMonotonicMs := stability.1
      quietLastMonotonicMs := stability.2
      lastBlockers := blockers }

/-- `retry` of `settle_admission` and of the settlements of an Attempt. -/
def retries (spec : JobSpec) (attemptIndex : Nat) (verdict : AttemptVerdict) : Bool :=
  attemptIndex < spec.retry.maxAttempts && spec.retry.retryable.contains verdict

def settleAdmission (spec : JobSpec) (job attempt : Uuid) (reason : String) (now : Int) :
    StoreResult NativeStore := do
  let row ← orError (store.attempts.get? attempt) queryReturnedNoRows
  let settled := store.updateAttempts (fun id _ => id = attempt) fun row =>
    { row with
      state := .settled
      verdict := some .safetyFailed
      safetyReason := some reason
      finishedMs := some now }
  let pending (id : Uuid) (row : JobRow) : Bool := id = job && row.state = .pending
  if retries spec row.attemptIndex .safetyFailed then
    let notBefore := afterSeconds now spec.retry.backoffSeconds
    let released := settled.updateJobs pending fun row =>
      { row with
        attemptId := none
        invocationId := none
        containmentId := none
        retryNotBeforeMs := some notBefore }
    return released.resetConditionsForRetry job notBefore
  else
    return settled.updateJobsState pending fun row =>
      { row with
        state := .final
        outcome := some .failed
        finishedMs := some now
        retryNotBeforeMs := none }

/-! ## The stages -/

/-- Plan the Attempt of a Job that has none. -/
def planObserved (job : Uuid) : StoreResult (NativeStore × Stage) := do
  let (planned, attempt) ← store.planAttempt job
  return (planned.recordAttempt job attempt, .exit .stateChanged)

/-- Settle the admission and end the transaction. -/
def settleStage (spec : JobSpec) (job attempt : Uuid) (reason : String) (now : Int) :
    StoreResult (NativeStore × Stage) :=
  (store.settleAdmission spec job attempt reason now).map fun next => (next, .exit .stateChanged)

/-- The exit while claims are statically blocked. -/
def staticStage (pass : PassInput) (spec : JobSpec) (job attempt : Uuid) (blockers : List Blocker) :
    StoreResult (NativeStore × Stage) :=
  let released := store.releaseReservation job
  if released.admissionDeadlineExpired attempt pass.now then
    released.settleStage spec job attempt "admission_starved" pass.now
  else
    .ok ((released.recordAdmissionBlockers attempt blockers).pauseQuietProgress attempt,
      .exit .blocked)

/-- The exit without an observation. -/
def unobservedStage (pass : PassInput) (spec : JobSpec) (job attempt : Uuid) :
    StoreResult (NativeStore × Stage) :=
  let blocker : Blocker := ⟨"observation_missing", "host observation sample is not available"⟩
  let recorded := ((store.releaseReservation job).recordAdmissionBlockers attempt
    [blocker]).pauseQuietProgress attempt
  if recorded.admissionDeadlineExpired attempt pass.now then
    recorded.settleStage spec job attempt "admission_starved" pass.now
  else .ok (recorded, .exit .blocked)

/-- The quiet part of an observed admission. -/
def quietStage (config : DaemonConfig) (attempt : Uuid) (admission : AdmissionRow)
    (quiet : QuietPolicy) (context : AdmissionContext) : NativeStore × QuietStep :=
  let consumed := quietBudget admission.budget context
  if min (quiet.waitBudgetSeconds * 1000) (u64Bound - 1) ≤ consumed then (store, .unattainable)
  else
    let stability := quietStability admission.stretch context config.quietMaxSampleGapMillis
    let stableMillis := min (quiet.stableSeconds * 1000) (u64Bound - 1)
    let stable := stability.1.any fun first =>
      first ≤ context.evaluatedMonotonicMillis &&
        stableMillis ≤ context.evaluatedMonotonicMillis - first
    let elapsed := (stability.1.map fun first => context.evaluatedMonotonicMillis - first).getD 0
    let waiting : Blocker :=
      ⟨"quiet_waiting", s!"quiet sample qualifies for {elapsed}ms of required {stableMillis}ms"⟩
    let blockers := context.nonQuietBlockers ++ context.quietBlockers ++
      if !stable && context.quietBlockers.isEmpty then [waiting] else []
    (store.updateAdmissionProgress attempt context blockers consumed stability,
      if stable then .stable else .waiting)

/-- Activate an observed Job, with its Attempt, a primary Invocation and the
Lease. -/
def grantObserved (config : DaemonConfig) (pass : PassInput) (job : Uuid) (row : JobRow)
    (attempt : Uuid) (context : AdmissionContext) (ids : PlannedIds) :
    StoreResult (NativeStore × Stage) := do
  let started := if row.spec.guarded then none else some pass.now
  let deadline := attemptDeadline row.spec started
  let active := store.updateJobsState
    (fun id row => id = job && row.state = .pending && row.attemptId = some attempt) fun row =>
      { row with
        state := .active
        invocationId := some ids.invocation
        containmentId := some ids.containment
        stdoutLen := 0
        stderrLen := 0
        retryNotBeforeMs := none
        reservationNotBeforeMs := none }
  let starting := active.startAttempt attempt (fun row => row.state = .admitting) started deadline
  let prepared ← starting.insertPrepared config ids attempt .primary none
  let leased ← prepared.insertLease ids.lease ⟨attempt, none, .granted, row.claims, false⟩
  let recorded := leased.updateAdmission attempt fun row =>
    { row with reservationGeneration := some context.observationGeneration }
  return (recorded, .exit (.ready (preparedPrimary job attempt row.spec ids deadline)))

/-- The grant of an observed Job whose scalars fit. -/
def observedAdmission (base : NativeStore) (config : DaemonConfig) (pass : PassInput) (job : Uuid)
    (row : JobRow) (attempt : Uuid) (context : AdmissionContext) :
    StoreResult (NativeStore × Stage) := do
  pass.checkInputs row
  let (admitted, admission) ← store.attachedPrepare pass.attachment job attempt false
  if !admission.ready then
    let awaited := admitted.awaitAdmission base admission
    return (awaited.1, .exit awaited.2)
  else admitted.grantObserved config pass job row attempt context admission.ids

/-- The last part: a forced refresh, the scalars, and the grant. -/
def observedGrantStage (base : NativeStore) (config : DaemonConfig) (pass : PassInput) (job : Uuid)
    (row : JobRow) (attempt : Uuid) (active : List ResolvedClaims) (context : AdmissionContext) :
    StoreResult (NativeStore × Stage) := do
  let (refreshed, final) ← store.refreshConditions job (pass.refresh config true)
  if final.deadlineExpired || !final.blockers.isEmpty then
    return ((refreshed.releaseReservation job).pauseQuietProgress attempt, .exit .stateChanged)
  else
    let disposed ← refreshed.scalarDisposition pass.remote config.capacities job row.claims
      active pass.now
    dispositionStage disposed.1
      (fun next => next.observedAdmission base config pass job row attempt context) disposed

/-- The exits of the quiet part. -/
def quietExits (pass : PassInput) (spec : JobSpec) (job attempt : Uuid)
    (grant : NativeStore → StoreResult (NativeStore × Stage)) :
    NativeStore × QuietStep → StoreResult (NativeStore × Stage)
  | (next, .unattainable) => next.settleStage spec job attempt "quiet_unattainable" pass.now
  | (next, .waiting) => .ok (next.releaseReservation job, .exit .blocked)
  | (next, .stable) => grant next

/-- The evaluation of a sample. -/
def evaluatedStage (base : NativeStore) (config : DaemonConfig) (pass : PassInput) (job : Uuid)
    (row : JobRow) (attempt : Uuid) (active : List ResolvedClaims) (context : AdmissionContext) :
    StoreResult (NativeStore × Stage) := do
  let admission ← orError (store.admissions.get? attempt) queryReturnedNoRows
  if admission.wallDeadlineMs ≤ pass.now then
    let reason := if row.spec.quiet.isSome && context.nonQuietBlockers.isEmpty
      then "quiet_unattainable" else "admission_starved"
    store.settleStage row.spec job attempt reason pass.now
  else if context.nonQuietBlockers ≠ [] then
    let recorded := (store.releaseReservation job).recordAdmissionBlockers attempt
      (context.nonQuietBlockers ++ context.quietBlockers)
    return (recorded.pauseQuietProgress attempt, .exit .blocked)
  else
    let advanced := match row.spec.quiet with
      | none => (store, QuietStep.stable)
      | some quiet => store.quietStage config attempt admission quiet context
    quietExits pass row.spec job attempt
      (fun next => next.observedGrantStage base config pass job row attempt active context) advanced

/-- The part of an observed admission that has an Attempt. -/
def attemptStage (base : NativeStore) (config : DaemonConfig) (pass : PassInput) (job : Uuid)
    (row : JobRow) (attempt : Uuid) : StoreResult (NativeStore × Stage) :=
  let active := store.activeClaims pass.remote
  let blockers := row.claims.scalarBlockers config.capacities [] ++
    row.claims.nonScalarBlockers active config.impactIncompatibilities
  let ensured := store.ensureAdmittingRow attempt pass.now config.admissionWallClockLimitSeconds
  if blockers ≠ [] then ensured.staticStage pass row.spec job attempt blockers
  else
    let admitting := ensured.updateAttempts (fun id row => id = attempt && row.state = .planned)
      fun row => { row with state := .admitting }
    match pass.observation with
    | none => admitting.unobservedStage pass row.spec job attempt
    | some (.error error) => .error error
    | some (.ok evaluate) =>
      admitting.evaluatedStage base config pass job row attempt active (evaluate row.spec active)

/-- The part of an observed admission after the Conditions were found
satisfied. -/
def observedStage (base : NativeStore) (config : DaemonConfig) (pass : PassInput) (job : Uuid)
    (row : JobRow) : StoreResult (NativeStore × Stage) :=
  match row.attemptId with
  | none => store.planObserved job
  | some attempt => store.attemptStage base config pass job row attempt

/-- The transaction of `advance_observed_admission`. -/
def advanceObservedAdmission (config : DaemonConfig) (pass : PassInput) (job : Uuid) :
    StoreResult (NativeStore × Stage) :=
  match store.expireDueReservations pass.now with
  | (next, true) => .ok (next, .exit .stateChanged)
  | (_, false) =>
    match store.pendingJob job pass.now with
    | none => .ok (store, .exit .blocked)
    | some row => do
        let readied ← store.readinessStage config pass job fun store =>
          store.skipObservedJob job row.attemptId pass.now
        continueWhenClear (fun next => next.observedStage store config pass job row) readied

/-- The scheduling transaction of a Job, by whether it needs an observation. -/
def scheduleJob (config : DaemonConfig) (pass : PassInput) (job : Uuid) (spec : JobSpec) :
    StoreResult (NativeStore × Stage) :=
  if spec.requiresHostObservation then store.advanceObservedAdmission config pass job
  else store.prepareJob config pass job

end NativeStore

end Stillyard
