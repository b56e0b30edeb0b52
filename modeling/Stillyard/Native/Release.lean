import Stillyard.Native.Admitting

/-!
# Release of a suspended root

A guarded Job, one with Conditions or a quiet policy, starts with a suspended
root process.  Its Conditions, claims and observation are checked once more
before the root may run.
-/

namespace Stillyard

open Relational Fallible

/-- What an authorization reads from outside its tables. -/
structure ReleaseInput where
  now : Int
  startedNow : Int
  evaluations : ConditionEvaluations
  /-- The observation with the time at which its sample was captured. -/
  observation : Option (StoreResult (Observation × Nat))
  /-- `minimum_observation_age_millis`. -/
  maxAge : Option Nat
  /-- `expires_monotonic` of the scanned paths. -/
  conditionsExpire : Nat
  monotonicNow : Nat

inductive ReleaseAuthorization where
  | authorized (runtimeDeadlineUnixMillis : Option Int) (evidenceExpires : Nat)
  | deferred (reason : String)
  deriving DecidableEq, Repr

/-- The forced refresh of an authorization. -/
def ReleaseInput.refresh (input : ReleaseInput) (config : DaemonConfig) :
    ConditionRefreshContext where
  daemonGeneration := config.daemonGeneration
  now := input.now
  freshnessMillis := config.conditionRescanIntervalMillis
  force := true
  evaluations := input.evaluations

/-- The reason of a deferral by an expired deadline. -/
def deadlineReason (blockers : List Blocker) : String :=
  "condition_deadline_expired:" ++
    (blockers.head?.map Blocker.detail).getD "deadline outcome=failed"

/-- Sort and deduplicate the reasons of a deferral. -/
def collectBlockers (blockers : List Blocker) : List Blocker := (sortBlockers blockers).eraseReps

/-- `legacy_columns`, as the check of an identity. -/
def ProcessIdentity.check (identity : ProcessIdentity) (rootPid : Nat) : StoreResult Unit :=
  match identity with
  | .linux hostId bootId pid startTicks pidNamespaceInode _ =>
    require
      (pid = rootPid && rootPid ≠ 0 && startTicks ≠ 0 && pidNamespaceInode ≠ 0 &&
        hostId ≠ "" && bootId ≠ "")
      (.invalidState "invalid exact Linux process identity")
  | .windows _ _ pid creationFiletime100ns => do
      require (pid = rootPid)
        (.invalidState s!"process identity PID {pid} does not match created PID {rootPid}")
      require (creationFiletime100ns ≤ i64Max)
        (.invalidState "process creation identity exceeds SQLite range")
  | .unknown _ => .error
      (.invalidState "unknown process identity cannot authorize native containment")

namespace NativeStore

variable (store : NativeStore)

/-- `process_records::record`. -/
def recordIdentity (invocation : Uuid) (identity : ProcessIdentity) (rootPid : Nat) :
    StoreResult NativeStore := do
  identity.check rootPid
  match store.processIdentities.get? invocation with
  | some existing =>
    require (existing = identity)
      (.invalidState "Invocation root identity cannot be replaced")
    return store
  | none =>
    let processIdentities ← orError
      (if (store.invocations.get? invocation).isSome then
        store.processIdentities.insert? invocation identity else none) foreignKey
    return { store with processIdentities }

/-- The joined row of a Job with its current Attempt and Invocation. -/
def currentRows (job : PreparedJob) : StoreResult (JobRow × AttemptRow × InvocationRow) := do
  let row ← orError
    ((store.jobs.get? job.jobId).filter fun row =>
      row.attemptId = some job.attemptId && row.invocationId = some job.invocationId)
    queryReturnedNoRows
  let attempt ← orError (store.attempts.get? job.attemptId) queryReturnedNoRows
  let invocation ← orError (store.invocations.get? job.invocationId) queryReturnedNoRows
  return (row, attempt, invocation)

/-- The rows of an Invocation that has not been released. -/
def unreleasedRows (job : PreparedJob) (failure : String) :
    StoreResult (JobRow × AttemptRow × InvocationRow) := do
  let (row, attempt, invocation) ← store.currentRows job
  require
    (row.state = .active && attempt.state = .starting && invocation.state = .prepared)
    (.invalidState failure)
  return (row, attempt, invocation)

def recordSuspendedRoot (job : PreparedJob) (rootPid : Nat) (identity : ProcessIdentity)
    (permission : StoreResult Unit) : StoreResult NativeStore := do
  let _ ← store.unreleasedRows job "suspended root cannot be recorded"
  permission
  let recorded ← store.recordIdentity job.invocationId identity rootPid
  return recorded.updateContainments
    (fun id row => id = job.containmentId && row.state = .creating) fun row =>
      { row with state := .live }

/-! ## Authorization -/

def activeClaimsExcludingAttempt (attempt : Uuid) : List ResolvedClaims :=
  store.leases.select fun _ row =>
    if row.state = .granted ∧ row.attemptId ≠ attempt then some row.claims else none

/-- The statements of an authorized release. -/
def releaseRoot (job : PreparedJob) (deadline : Option Int) (now : Int) : NativeStore :=
  let started := store.updateInvocations
    (fun id row => id = job.invocationId && row.state = .prepared) fun row =>
      { row with state := .started, startedMs := some now }
  let running := started.updateAttempts
    (fun id row => id = job.attemptId && row.state = .starting) fun row =>
      { row with state := .running, startedMs := some now, deadlineMs := deadline }
  let begun := running.updateJobs (fun id row => id = job.jobId && row.state = .active) fun row =>
    { row with startedMs := row.startedMs.or (some now) }
  begun.updateAdmission job.attemptId fun row => { row with preResumeDeferReason := none }

/-- The blocker of an observation from another generation than the admission's. -/
def generationBlockers (attempt : Uuid) (context : AdmissionContext) :
    StoreResult (List Blocker) := do
  let admission ← orError (store.admissions.get? attempt) queryReturnedNoRows
  return if admission.reservationGeneration = some context.observationGeneration then []
    else [⟨"observation_generation_changed", "observation generation changed after reservation"⟩]

/-- The blockers that dependencies, Conditions and claims give at release. -/
def releaseBlockers (config : DaemonConfig) (job : PreparedJob) (row : JobRow)
    (refresh : ConditionRefresh) : StoreResult (List Blocker) := do
  let active := store.activeClaimsExcludingAttempt job.attemptId
  let claimed ← (legacyFullVectorBlockers row.claims config.capacities active
    config.impactIncompatibilities).mapError StoreError.invalidState
  return (store.dependencyBlockers job.jobId).1 ++ refresh.blockers ++ claimed

/-- The blockers of the observation of a quiet release, and whether the sample
is quiet. -/
def quietReleaseBlockers (input : ReleaseInput) (job : PreparedJob) (row : JobRow) :
    StoreResult (List Blocker × Bool × Nat) := do
  match input.observation with
  | none => .error (.invalidState "quiet release needs an observation")
  | some (.error error) => .error error
  | some (.ok (evaluate, captured)) =>
    let context := evaluate row.spec (store.activeClaimsExcludingAttempt job.attemptId)
    let generation ← store.generationBlockers job.attemptId context
    return (context.nonQuietBlockers ++ context.quietBlockers ++ generation,
      context.quietSampleSatisfied, captured)

/-- The end of `authorize_release`, once nothing blocks; `base` is what a
rollback restores. -/
def authorizeQuiet (base : NativeStore) (input : ReleaseInput) (job : PreparedJob) (row : JobRow)
    (captured : Nat) : StoreResult (NativeStore × ReleaseAuthorization) := do
  let maxAge ← orError input.maxAge
    (.invalidState "quiet release has no observation age bound")
  if u64Bound ≤ captured + maxAge then
    return (base, .deferred "release evidence expiry overflow")
  else
    let expires := if job.spec.conditions.isEmpty then captured + maxAge
      else min (captured + maxAge) input.conditionsExpire
    if !job.spec.conditions.isEmpty && decide (expires ≤ input.monotonicNow) then
      return (base, .deferred "release evidence expired during the bounded Condition rescan")
    else
      let deadline := row.spec.timeoutSeconds.map (afterSeconds input.startedNow)
      return (store.releaseRoot job deadline input.startedNow, .authorized deadline expires)

/-- `authorize_release_with_ticket` of a native store. -/
def authorizeRelease (config : DaemonConfig) (input : ReleaseInput) (job : PreparedJob) :
    StoreResult (NativeStore × ReleaseAuthorization) := do
  let (row, _, _) ← store.unreleasedRows job "release cannot be authorized"
  if row.cancelRequested then return (store, .deferred "cancel_requested")
  else
    let (refreshed, refresh) ← store.refreshConditions job.jobId (input.refresh config)
    if refresh.deadlineExpired then
      return (refreshed, .deferred (deadlineReason refresh.blockers))
    else
      let blockers ← refreshed.releaseBlockers config job row refresh
      let (observed, satisfied, captured) ← refreshed.quietReleaseBlockers input job row
      let blockers := collectBlockers (blockers ++ observed)
      if blockers ≠ [] ∨ satisfied = false then return (refreshed, .deferred (reprStr blockers))
      else refreshed.authorizeQuiet store input job row captured

/-- The blockers of the observation of a Condition release. -/
def conditionReleaseBlockers (input : ReleaseInput) (job : PreparedJob) :
    StoreResult (List Blocker × Option Nat) := do
  if job.spec.requiresHostObservation then
    match input.observation with
    | none => return ([⟨"observation_missing",
        "release-time host observation sample is not available"⟩], none)
    | some (.error error) => .error error
    | some (.ok (evaluate, captured)) =>
      let context := evaluate job.spec (store.activeClaimsExcludingAttempt job.attemptId)
      let generation ← store.generationBlockers job.attemptId context
      return (context.nonQuietBlockers ++ context.quietBlockers ++ generation, some captured)
  else return ([], none)

/-- The end of `authorize_condition_release`, once nothing blocks. -/
def authorizeConditions (base : NativeStore) (input : ReleaseInput) (job : PreparedJob)
    (captured : Option Nat) : NativeStore × ReleaseAuthorization :=
  let expires := match captured, input.maxAge with
    | some captured, some maxAge =>
      min input.conditionsExpire (min (captured + maxAge) (u64Bound - 1))
    | _, _ => input.conditionsExpire
  if expires ≤ input.monotonicNow then
    (base, .deferred "Condition release evidence expired during the bounded rescan")
  else
    let deadline := job.spec.timeoutSeconds.map (afterSeconds input.startedNow)
    (store.releaseRoot job deadline input.startedNow, .authorized deadline expires)

/-- `authorize_condition_release_with_ticket` of a native store. -/
def authorizeConditionRelease (config : DaemonConfig) (input : ReleaseInput) (job : PreparedJob) :
    StoreResult (NativeStore × ReleaseAuthorization) := do
  let (row, _, _) ← store.unreleasedRows job "Condition release cannot be authorized"
  if row.cancelRequested then return (store, .deferred "cancel_requested")
  else
    let (refreshed, refresh) ← store.refreshConditions job.jobId (input.refresh config)
    if refresh.deadlineExpired then
      return (refreshed, .deferred (deadlineReason refresh.blockers))
    else
      let blockers ← refreshed.releaseBlockers config job row refresh
      let (observed, captured) ← refreshed.conditionReleaseBlockers input job
      let blockers := collectBlockers (blockers ++ observed)
      if blockers ≠ [] then return (refreshed, .deferred (reprStr blockers))
      else return refreshed.authorizeConditions store input job captured

end NativeStore

end Stillyard
