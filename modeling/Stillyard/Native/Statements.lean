import Stillyard.Native.Schema

/-!
# Statements on the native tables

The `INSERT`, `UPDATE` and `DELETE` statements of the store, with the triggers
of the schema: every change that clients can observe appends an event, only the
newest events are retained, and a Job that is no longer pending loses its
reservation.
-/

namespace Stillyard

open Relational Fallible

def maxEventRows : Nat := 16384

namespace NativeStore

variable (store : NativeStore)

/-- Append events without an Invocation; `events_prune` drops the oldest. -/
def announce (count : Nat) : NativeStore :=
  let eventSequence := store.eventSequence + count
  { store with
    eventSequence
    invocationEvents := store.invocationEvents.filter fun event =>
      eventSequence < event.1 + maxEventRows }

/-- Append the event of an Invocation that started or exited. -/
def announceInvocation (invocation : Uuid) : NativeStore :=
  let announced := store.announce 1
  { announced with
    invocationEvents := announced.invocationEvents ++ [(announced.eventSequence, invocation)] }

end NativeStore

/-- No column changed that `jobs_event_update` watches.  The columns that are
never updated are not compared. -/
def JobRow.unchanged (old new : JobRow) : Bool :=
  old.state = new.state && old.outcome = new.outcome && old.reasonCode = new.reasonCode &&
    old.attemptId = new.attemptId && old.invocationId = new.invocationId &&
    old.containmentId = new.containmentId && old.rootExitCode = new.rootExitCode &&
    old.startedMs = new.startedMs && old.finishedMs = new.finishedMs &&
    old.retryNotBeforeMs = new.retryNotBeforeMs &&
    old.reservationNotBeforeMs = new.reservationNotBeforeMs

/-- The events of one updated Job. -/
def jobEvents (old new : JobRow) : Nat :=
  (if old.unchanged new then 0 else 1) +
    (if old.cancelRequested = new.cancelRequested then 0 else 1) +
    if old.stdoutLen = new.stdoutLen ∧ old.stderrLen = new.stderrLen then 0 else 1

/-- No column changed that `conditions_event_update` watches. -/
def ConditionRow.unchanged (old new : ConditionRow) : Bool :=
  old.state = new.state && old.transitionArmed = new.transitionArmed &&
    old.nextProbeMs = new.nextProbeMs && old.probeInvocationId = new.probeInvocationId

/-- Change the rows that a `WHERE` clause selects. -/
def whereChange {α : Type*} (affected : Uuid → α → Bool) (change : α → α)
    (id : Uuid) (row : α) : α :=
  if affected id row then change row else row

/-- How many rows a `WHERE` clause selects. -/
def whereCount {α : Type*} (table : Table Uuid α) (affected : Uuid → α → Bool) : Nat :=
  table.rows.countP fun row => affected row.1 row.2

/-- The error of a violated key. -/
def duplicateKey : StoreError := .sqlite "UNIQUE constraint failed"

/-- The error of a violated reference. -/
def foreignKey : StoreError := .sqlite "FOREIGN KEY constraint failed"

/-- The error of a query that must return a row. -/
def queryReturnedNoRows : StoreError := .sqlite "Query returned no rows"

namespace NativeStore

variable (store : NativeStore)

/-- `INSERT INTO jobs`. -/
def insertJob (id : Uuid) (row : JobRow) : StoreResult NativeStore := do
  let jobs ← orError (store.jobs.insert? id row) duplicateKey
  return { store with jobs }.announce 1

/-- `UPDATE jobs` on columns other than the state and the cancellation. -/
def updateJobs (affected : Uuid → JobRow → Bool) (change : JobRow → JobRow) : NativeStore :=
  { store with jobs := store.jobs.modify (whereChange affected change) }.announce
    (store.jobs.rows.map fun (row : Uuid × JobRow) =>
      jobEvents row.2 (whereChange affected change row.1 row.2)).sum

/-- `DELETE FROM reservations`, with whether a row was deleted. -/
def deleteReservations (affected : Uuid → ReservationRow → Bool) : NativeStore :=
  { store with
    reservations := store.reservations.filter fun job row => !affected job row }.announce
    (whereCount store.reservations affected)

/-- `UPDATE jobs` on the state or the cancellation: `jobs_reservation_cleanup`
then deletes the reservation of each updated Job that may not hold one. -/
def updateJobsState (affected : Uuid → JobRow → Bool) (change : JobRow → JobRow) : NativeStore :=
  (store.updateJobs affected change).deleteReservations fun job _ =>
    (store.jobs.get? job).any fun row =>
      affected job row && ((change row).state ≠ .pending || (change row).cancelRequested)

/-- `INSERT INTO reservations`, with the check of its deadline. -/
def insertReservation (job : Uuid) (row : ReservationRow) : StoreResult NativeStore := do
  require (row.createdMs < row.holdDeadlineMs) (.sqlite "CHECK constraint failed")
  let reservations ← orError (store.reservations.insert? job row) duplicateKey
  return { store with reservations }.announce 1

/-- `INSERT INTO attempts`. -/
def insertAttempt (id : Uuid) (row : AttemptRow) : StoreResult NativeStore := do
  let attempts ← orError (store.attempts.insert? id row) duplicateKey
  return { store with attempts }.announce 1

/-- `UPDATE attempts`. -/
def updateAttempts (affected : Uuid → AttemptRow → Bool) (change : AttemptRow → AttemptRow) :
    NativeStore :=
  { store with attempts := store.attempts.modify (whereChange affected change) }.announce
    (whereCount store.attempts affected)

/-- `UPDATE admissions`. -/
def updateAdmission (attempt : Uuid) (change : AdmissionRow → AdmissionRow) : NativeStore :=
  { store with admissions := store.admissions.update attempt change }

/-- `INSERT INTO invocations`, always of a prepared Invocation. -/
def insertInvocation (id : Uuid) (row : InvocationRow) : StoreResult NativeStore := do
  let invocations ← orError (store.invocations.insert? id row) duplicateKey
  return { store with invocations }

/-- Does `invocations_event_update` fire for this change? -/
def announcesState (old new : InvocationRow) : Bool :=
  old.state ≠ new.state && (new.state = .started || new.state = .exited)

/-- `UPDATE invocations`. -/
def updateInvocations (affected : Uuid → InvocationRow → Bool)
    (change : InvocationRow → InvocationRow) : NativeStore :=
  let announced := store.invocations.select fun id row =>
    if announcesState row (whereChange affected change id row) then some id else none
  announced.foldl announceInvocation
    { store with invocations := store.invocations.modify (whereChange affected change) }

/-- `INSERT INTO containments`. -/
def insertContainment (id : Uuid) (row : ContainmentRow) : StoreResult NativeStore := do
  let containments ← orError (store.containments.insert? id row) duplicateKey
  return { store with containments }.announce 1

/-- `UPDATE containments`. -/
def updateContainments (affected : Uuid → ContainmentRow → Bool)
    (change : ContainmentRow → ContainmentRow) : NativeStore :=
  { store with containments := store.containments.modify (whereChange affected change) }.announce
    (whereCount store.containments affected)

/-- `INSERT INTO conditions`. -/
def insertCondition (id : Uuid) (row : ConditionRow) : StoreResult NativeStore := do
  let conditions ← orError (store.conditions.insert? id row) duplicateKey
  return { store with conditions }.announce 1

/-- `UPDATE conditions`. -/
def updateConditions (affected : Uuid → ConditionRow → Bool)
    (change : ConditionRow → ConditionRow) : NativeStore :=
  { store with conditions := store.conditions.modify (whereChange affected change) }.announce
    (store.conditions.rows.countP fun (row : Uuid × ConditionRow) =>
      !row.2.unchanged (whereChange affected change row.1 row.2))

/-- The latest observation of a Condition. -/
def latestObservation (condition : Uuid) : Option ObservationRow :=
  (store.observations.values.filter fun row => row.conditionId = condition).getLast?

/-- `MAX_RETAINED_OBSERVATIONS_PER_CONDITION`. -/
def maxRetainedObservations : Nat := 8

/-- The newest observations of a Condition, which are retained. -/
def retainedObservations (condition : Uuid) : List Uuid :=
  ((store.observations.select fun id row =>
    if row.conditionId = condition then some id else none).reverse).take maxRetainedObservations

/-- Insert an observation and delete the Condition's older ones.  An
observation that repeats the latest value is not announced. -/
def insertObservation (row : ObservationRow) : StoreResult NativeStore := do
  let observations ← orError (store.observations.insert? store.nextUuid row) duplicateKey
  let repeated := (store.latestObservation row.conditionId).map ObservationRow.value =
    some row.value
  let next := { store with observations, nextUuid := store.nextUuid + 1 }
  let retained := next.retainedObservations row.conditionId
  return { next with
    observations := observations.filter fun id other =>
      other.conditionId ≠ row.conditionId || retained.contains id }.announce
    (if repeated then 0 else 1)

/-- `INSERT INTO leases`. -/
def insertLease (id : Uuid) (row : LeaseRow) : StoreResult NativeStore := do
  let leases ← orError (store.leases.insert? id row) duplicateKey
  return { store with leases }

/-- Take identifiers from the supply. -/
def drawn (count : Nat) : NativeStore := { store with nextUuid := store.nextUuid + count }

end NativeStore

end Stillyard
