import Stillyard.Native.Statements

/-!
# Readiness Conditions

A Job may wait for Conditions: paths, a time, or an accepted probe run.  Path
states are scanned before a transaction and evaluated inside it.  A path
transition is a latch: it is armed by its start state and, once it has seen the
target after that, stays satisfied.

A deadline fails all Conditions of its Job, and a pending Job whose Conditions
failed is ended as soon as no probe of it is live.
-/

namespace Stillyard

open Relational Fallible

inductive PathInspection where
  | present (found : Bool)
  | invalidated (reason : String)
  deriving DecidableEq, Repr

/-- `ConditionEvaluations`: the path states that were scanned, by the index of
their Condition. -/
structure ConditionEvaluations where
  observedMs : Int
  observedMonotonicMs : Nat
  paths : Nat → Option PathInspection

structure ConditionRefreshContext where
  daemonGeneration : Uuid
  now : Int
  freshnessMillis : Nat
  force : Bool
  evaluations : ConditionEvaluations

structure ConditionRefresh where
  blockers : List Blocker
  stateChanged : Bool
  deadlineExpired : Bool

/-- What an evaluation says about a Condition. -/
structure Judgement where
  value : ObservationValue
  state : ConditionState
  armed : Option Bool

/-- The state of a level predicate. -/
def levelState (holds : Bool) : ConditionState := if holds then .satisfied else .waiting

/-- The path state that a scan found. -/
def pathState (found : Bool) : PathConditionState := if found then .present else .absent

/-- The judgement of a path that could not be inspected. -/
def invalidatedJudgement (row : ConditionRow) (reason : String) : Judgement :=
  match row.spec.predicate with
  | .pathTransition .. => ⟨.invalidated reason, levelState (row.state = .satisfied), none⟩
  | _ => ⟨.invalidated reason, .waiting, none⟩

/-- The judgement of an inspected path transition. -/
def transitionJudgement (row : ConditionRow) (start target : PathConditionState) (found : Bool) :
    Judgement :=
  let armed := row.transitionArmed || pathState found = start
  ⟨.path found, levelState (row.state = .satisfied || (armed && pathState found = target)),
    some armed⟩

/-- The inspection of the path of a Condition. -/
def ConditionEvaluations.path (evaluations : ConditionEvaluations) (index : Nat) :
    StoreResult PathInspection :=
  orError (evaluations.paths index) (.invalidState
    s!"Condition path evaluation {index} was not captured before the write transaction")

/-- The judgement of one path predicate. -/
def pathJudgement (row : ConditionRow) (decide : Bool → Judgement) : PathInspection → Judgement
  | .present found => decide found
  | .invalidated reason => invalidatedJudgement row reason

/-- The `match` of `evaluate_one_tx`. -/
def judge (row : ConditionRow) (observedMs : Int) (evaluations : ConditionEvaluations) :
    StoreResult Judgement :=
  match row.spec.predicate with
  | .pathExists _ => (evaluations.path row.conditionIndex).map <| pathJudgement row fun found =>
    ⟨.path found, levelState found, none⟩
  | .pathAbsent _ => (evaluations.path row.conditionIndex).map <| pathJudgement row fun found =>
    ⟨.path found, levelState (!found), none⟩
  | .pathTransition _ start target => (evaluations.path row.conditionIndex).map <|
      pathJudgement row (transitionJudgement row start target)
  | .notBefore unixMillis =>
    let reached : Bool := unixMillis ≤ observedMs
    .ok ⟨.time reached, levelState reached, none⟩
  | .probe _ => .error
      (.invalidState "probe Condition cannot be evaluated as an in-process predicate")

namespace NativeStore

variable (store : NativeStore)

/-- `evaluate_one_tx`. -/
def evaluateOne (context : ConditionRefreshContext) (observedMs : Int) (id : Uuid) :
    StoreResult NativeStore := do
  let row ← orError (store.conditions.get? id) queryReturnedNoRows
  let judgement ← judge row observedMs context.evaluations
  let observed ← store.insertObservation
    { conditionId := id
      observedMonotonicMs := context.evaluations.observedMonotonicMs
      daemonGeneration := context.daemonGeneration
      freshUntilMs := i64Clamp (observedMs + (min context.freshnessMillis i64Max : Nat))
      value := judgement.value }
  return observed.updateConditions (fun other _ => other = id) fun row =>
    { row with
      state := judgement.state
      transitionArmed := judgement.armed.getD row.transitionArmed }

def observationIsStale (context : ConditionRefreshContext) (latest : Option ObservationRow) :
    Bool :=
  latest.all fun observation =>
    observation.daemonGeneration ≠ context.daemonGeneration ||
      observation.freshUntilMs ≤ context.now ||
      context.evaluations.observedMonotonicMs < observation.observedMonotonicMs ||
      context.freshnessMillis ≤
        context.evaluations.observedMonotonicMs - observation.observedMonotonicMs

/-- The Conditions of a Job in the order of their index. -/
def jobConditions (job : Uuid) : List (Uuid × ConditionRow) :=
  (store.conditions.rows.filter fun row => row.2.jobId = job).insertionSort fun left right =>
    left.2.conditionIndex ≤ right.2.conditionIndex

/-- `condition_blockers_tx`. -/
def conditionBlockers (job : Uuid) : List Blocker :=
  store.conditions.select fun _ row =>
    if row.jobId = job ∧ row.state ≠ .satisfied then
      some ⟨if row.state = .failed then "condition_failed" else "condition_waiting",
        reprStr row.spec⟩
    else none

/-! ## Deadlines -/

/-- The outcome of the first deadline, by time and index, that passes a test. -/
def firstDeadline (job : Uuid) (holds : ConditionRow → Int → Bool) :
    Option ConditionDeadlineOutcome :=
  let due := store.conditions.select fun _ row => row.deadlineMs.bind fun deadline =>
    if row.jobId = job ∧ holds row deadline = true then some (deadline, row) else none
  let ordered := due.insertionSort fun left right =>
    left.1 < right.1 ∨ (left.1 = right.1 ∧ left.2.conditionIndex ≤ right.2.conditionIndex)
  ordered.head?.map fun entry => entry.2.spec.onDeadline

/-- Fail all Conditions of a Job. -/
def failConditions (job : Uuid) : NativeStore :=
  store.updateConditions (fun _ row => row.jobId = job && row.state ≠ .failed) fun row =>
    { row with state := .failed, nextProbeMs := none }

/-- `release_reservation_tx`. -/
def releaseReservation (job : Uuid) : NativeStore :=
  store.deleteReservations fun other _ => other = job

/-- `job_has_live_probe_tx`. -/
def jobHasLiveProbe (job : Uuid) : Bool :=
  store.containments.values.any fun containment =>
    (store.invocations.get? containment.invocationId).any fun invocation =>
      invocation.role = .probe &&
        ((invocation.conditionId.bind store.conditions.get?).any fun condition =>
          condition.jobId = job) &&
        (invocation.state ≠ .resolved || containment.state.owned)

/-- Is this Attempt waiting for its admission? -/
def waitingAttempt (row : AttemptRow) : Bool := row.state = .planned || row.state = .admitting

/-- `finalize_pending_condition_terminal_tx`. -/
def finalizePendingConditionTerminal (job : Uuid) (outcome : ConditionDeadlineOutcome)
    (reason : Option String) (now : Int) : NativeStore :=
  let attempt := (store.jobs.get? job).bind JobRow.attemptId
  let store := store.updateConditions (fun _ row => row.jobId = job) fun row =>
    { row with nextProbeMs := none }
  let store := store.updateAttempts (fun id row => attempt = some id && waitingAttempt row)
    fun row => { row with
      state := .settled
      verdict := some outcome.ends.1
      safetyReason := reason.or row.safetyReason
      finishedMs := some now }
  store.updateJobsState (fun id row => id = job && row.state = .pending) fun row =>
    { row with
      state := .final
      outcome := some outcome.ends.2
      reasonCode := reason
      finishedMs := some now
      retryNotBeforeMs := none
      reservationNotBeforeMs := none }

/-- `finalize_pending_condition_terminal_if_ready_tx`. -/
def finalizePendingConditionTerminalIfReady (job : Uuid) (now : Int) :
    StoreResult NativeStore :=
  (orError (store.jobs.get? job) queryReturnedNoRows).map fun row =>
    if row.state ≠ .pending ∨ store.jobHasLiveProbe job = true then store
    else match store.firstDeadline job fun row _ => row.state = .failed with
      | some outcome => store.finalizePendingConditionTerminal job outcome
          (some "condition_deadline_expired") now
      | none =>
        if row.cancelRequested then
          store.finalizePendingConditionTerminal job .canceled none now
        else store

/-- `expire_condition_deadline_tx`. -/
def expireConditionDeadline (job : Uuid) (now : Int) :
    StoreResult (NativeStore × Option ConditionDeadlineOutcome) :=
  match store.firstDeadline job fun row deadline => row.state ≠ .failed && deadline ≤ now with
  | none => .ok (store, none)
  | some outcome =>
    (((store.releaseReservation job).failConditions job).finalizePendingConditionTerminalIfReady
      job now).map fun next => (next, some outcome)

/-- One round of the loop of `refresh_conditions_tx`, with whether anything was
evaluated so far. -/
def refreshOne (context : ConditionRefreshContext) (state : NativeStore × Bool)
    (entry : Uuid × ConditionRow × Option ObservationRow) : StoreResult (NativeStore × Bool) :=
  let (id, row, latest) := entry
  if row.state = .failed ∨ row.spec.predicate.isProbe = true then .ok state
  else if context.force || observationIsStale context latest then
    (state.1.evaluateOne context context.evaluations.observedMs id).map fun next => (next, true)
  else .ok state

/-- The loop of `refresh_conditions_tx`. -/
def refreshLoop (job : Uuid) (context : ConditionRefreshContext) :
    StoreResult (NativeStore × Bool) :=
  ((store.jobConditions job).map fun entry =>
    (entry.1, entry.2, store.latestObservation entry.1)).foldlM (refreshOne context) (store, false)

/-- `refresh_conditions_tx`. -/
def refreshConditions (job : Uuid) (context : ConditionRefreshContext) :
    StoreResult (NativeStore × ConditionRefresh) := do
  match ← store.expireConditionDeadline job context.now with
  | (next, some outcome) =>
    let blocker : Blocker :=
      ⟨"condition_deadline_expired", "deadline outcome=" ++ outcome.text⟩
    return (next, ⟨[blocker], true, true⟩)
  | (next, none) =>
    let (refreshed, changed) ← next.refreshLoop job context
    return (refreshed, ⟨refreshed.conditionBlockers job, changed, false⟩)

/-- `reset_conditions_for_retry_tx`. -/
def resetConditionsForRetry (job : Uuid) (notBefore : Int) : NativeStore :=
  store.updateConditions (fun _ row => row.jobId = job) fun row =>
    { row with
      state := if row.spec.predicate.isTransition && row.state = .satisfied then .satisfied
        else .waiting
      probeInvocationId := none
      nextProbeMs := if row.spec.predicate.isProbe then some notBefore else none }

/-- One round of `insert_conditions_tx`. -/
def insertConditionRow (job : Uuid) (acceptedMs : Int) (context : ConditionRefreshContext)
    (entry : ConditionSpec × Nat) : StoreResult NativeStore := do
  let id := store.nextUuid
  let inserted ← (store.drawn 1).insertCondition id
    { jobId := job
      conditionIndex := entry.2
      state := .waiting
      spec := entry.1
      deadlineMs := resolveDeadline entry.1.deadline acceptedMs
      transitionArmed := false
      nextProbeMs := if entry.1.predicate.isProbe then some acceptedMs else none
      probeInvocationId := none }
  if entry.1.predicate.isProbe then return inserted
  else inserted.evaluateOne context acceptedMs id

/-- `insert_conditions_tx`. -/
def insertConditions (job : Uuid) (conditions : List ConditionSpec) (acceptedMs : Int)
    (context : ConditionRefreshContext) : StoreResult NativeStore :=
  conditions.zipIdx.foldlM
    (fun store entry => store.insertConditionRow job acceptedMs context entry) store

end NativeStore

end Stillyard
