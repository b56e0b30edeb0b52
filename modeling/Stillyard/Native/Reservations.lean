import Stillyard.Native.Conditions
import Stillyard.Store.Offers

/-!
# Native debits and scalar reservations

A pending Job that does not fit beside the active debits may reserve its
scalars.  Its own reservation is later converted into a Lease against the active
debits alone; every other admission also counts all reservations.

Remote Grants and remote reservations count like native ones.  They belong to
the coordinator's tables and enter here as a view.
-/

namespace Stillyard

open Relational Fallible

/-- What native admission reads from the coordinator's tables: the physical
claims of the outstanding Grants, the remote reservations that are active at a
time, and the queue rows of the native Jobs. -/
structure RemoteView where
  debits : List ResolvedClaims
  reservationsAt : Int → List (ScheduleKey × ResolvedClaims)
  queue : Uuid → Option QueueRow

/-- The coordinator's tables as native admission sees them. -/
def MachineStore.remoteView (machine : MachineStore) : RemoteView where
  debits := machine.remoteDebits
  reservationsAt now := (remoteReservations machine now).map fun reservation =>
    (reservation.rank, reservation.physical)
  queue job := machine.queue.get? (.native job)

inductive ScalarDisposition where
  | grant
  | hold
  | created
  | stateChanged
  deriving DecidableEq, Repr

namespace NativeStore

variable (store : NativeStore) (remote : RemoteView)

def nativeDebits : List ResolvedClaims :=
  store.leases.select fun _ row => if row.state = .granted then some row.claims else none

/-- `active_claims_tx`. -/
def activeClaims : List ResolvedClaims := store.nativeDebits ++ remote.debits

def scheduleKey (job : Uuid) (now : Int) : StoreResult ScheduleKey := do
  let row ← orError (store.jobs.get? job) queryReturnedNoRows
  let queued ← orError (remote.queue job) queryReturnedNoRows
  return ⟨effectivePriorityAt row.spec.priority queued.acceptedMs now, queued.acceptedMs,
    queued.sequence⟩

/-- The reservations that hold at a time, with their Jobs. -/
def heldReservations (now : Int) : List (Uuid × ResolvedClaims) :=
  store.reservations.select fun job row =>
    if now < row.holdDeadlineMs ∧
        (store.jobs.get? job).any (fun row => row.state = .pending && !row.cancelRequested) = true
    then some (job, row.claims)
    else none

/-- `reservation_claims_tx`, without an excluded Job. -/
def reservationClaims (now : Int) : List ResolvedClaims :=
  (store.heldReservations now).map Prod.snd ++ (remote.reservationsAt now).map Prod.snd

/-- The reservations other than the Job's own, with their ranks. -/
def otherReservations (job : Uuid) (now : Int) :
    StoreResult (List (ScheduleKey × ResolvedClaims)) :=
  ((store.heldReservations now).filter fun held => held.1 ≠ job).mapM fun held =>
    (store.scheduleKey remote held.1 now).map fun rank => (rank, held.2)

def higherReservationOverlaps (job : Uuid) (claims : ResolvedClaims) (now : Int) :
    StoreResult Bool := do
  let candidate ← store.scheduleKey remote job now
  let higher (held : ScheduleKey × ResolvedClaims) : Bool :=
    outranks held.1 candidate && claims.overlapsScalars held.2
  if (remote.reservationsAt now).any higher then return true
  else return (← store.otherReservations remote job now).any higher

/-- `expire_due_reservations_tx`, with whether a Job was deferred. -/
def expireDueReservations (now : Int) : NativeStore × Bool :=
  let due (job : Uuid) (row : JobRow) : Bool :=
    row.state = .pending && (store.reservations.get? job).any fun held => held.holdDeadlineMs ≤ now
  if 0 < whereCount store.jobs due then
    ((store.updateJobs due fun row =>
        { row with reservationNotBeforeMs := some (backoffEnd now) }).deleteReservations
      fun _ held => held.holdDeadlineMs ≤ now, true)
  else (store, false)

/-- The disposition once the Job's own reservation is dropped. -/
def dropOwnReservation (job : Uuid) : NativeStore × ScalarDisposition :=
  if (store.reservations.get? job).isSome then (store.releaseReservation job, .stateChanged)
  else (store, .hold)

/-- The back-off that follows an expired reservation. -/
def expireOwnReservation (job : Uuid) (now : Int) : NativeStore :=
  (store.updateJobs (fun id _ => id = job) fun row =>
    { row with reservationNotBeforeMs := some (backoffEnd now) }).releaseReservation job

/-- What each decision does to the tables. -/
def applyDecision (job : Uuid) (claims : ResolvedClaims) (now : Int) :
    ReservationDecision → StoreResult (NativeStore × ScalarDisposition)
  | .drop => .ok (store.dropOwnReservation job)
  | .expire => .ok (store.expireOwnReservation job now, .stateChanged)
  | .grant => .ok (store.releaseReservation job, .grant)
  | .hold => .ok (store, .hold)
  | .create => ((store.drawn 1).insertReservation job
      ⟨claims.scalarOnly, now, i64Clamp (now + scalarReservationHoldMillis)⟩).map fun next =>
        (next, .created)

/-- The decision of `scalar_disposition_tx`. -/
def scalarDecision (capacities : ResourceCapacities) (job : Uuid) (claims : ResolvedClaims)
    (active : List ResolvedClaims) (now : Int) : StoreResult ReservationDecision := do
  let own := store.reservations.get? job
  let row ← orError (store.jobs.get? job) queryReturnedNoRows
  let higher ← if own.isSome then store.higherReservationOverlaps remote job claims now
    else .ok false
  return localReservationDecision claims capacities active (store.reservationClaims remote now)
    (own.map ReservationRow.holdDeadlineMs) higher row.reservationNotBeforeMs now

/-- `scalar_disposition_tx`. -/
def scalarDisposition (capacities : ResourceCapacities) (job : Uuid) (claims : ResolvedClaims)
    (active : List ResolvedClaims) (now : Int) :
    StoreResult (NativeStore × ScalarDisposition) := do
  let decision ← store.scalarDecision remote capacities job claims active now
  store.applyDecision job claims now decision

end NativeStore

end Stillyard
