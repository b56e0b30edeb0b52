import Stillyard.Store.Crash
import Stillyard.Store.Numbers

/-!
# Attaching the authority

A store that opens completes a pending commit and then compares its tables with
the authority journal: the registration and the watermarks of every participant,
the Grants that may run, and the native roots.  Where the tables are behind, the
journal records a reset.
-/

namespace Stillyard

open Relational Fallible

variable {coordinator : Coordinator}

/-- What the start permissions need of a native Invocation: its Containment,
whether a root was recorded, whether the Invocation is resolved and whether the
Containment is empty or cleared. -/
structure NativeRoot where
  containmentId : EntityId
  rooted : Bool
  resolved : Bool
  closed : Bool
  deriving DecidableEq, Repr

/-- `NativeStartPermission`.  `process` stands for the root's and the creator's
process identity, the daemon generation and the executable digest. -/
structure NativeStartPermission where
  invocationId : EntityId
  containmentId : EntityId
  grantId : EntityId
  leaseId : Uuid
  key : Option AllocationKey
  state : GrantState
  process : String
  deriving DecidableEq, Repr

/-- A coordinator with its native Invocations and the journal's native start
permissions. -/
structure Site where
  coordinator : Coordinator
  roots : Table EntityId NativeRoot
  permissions : Table EntityId NativeStartPermission

/-- `reconcile_native_start_permissions`: a resolved Invocation whose Containment
is closed needs its permission no more. -/
def retireNativeStarts (site : Site) : Site :=
  { site with permissions := site.permissions.filter fun invocation permission =>
    !((site.roots.get? invocation).any fun root =>
      root.containmentId = permission.containmentId && root.closed && root.resolved) }

/-- The row of a participant is behind its anchor, or in a session that the
anchor does not know. -/
def DomainRow.behind (row : DomainRow) (anchor : ParticipantAnchor) : Bool :=
  row.acceptedSequence < anchor.acceptedSequence ||
    row.retiredSequenceFloor < anchor.retiredSequenceFloor ||
    anchor.nextConnectionEpoch < row.connectionEpoch ||
    anchor.session.any fun session =>
      session.connectionEpoch < row.connectionEpoch ||
        (row.connectionEpoch = session.connectionEpoch &&
          row.executorIncarnation ≠ some session.executorIncarnation)

/-- The loop of `validate_machine_history` over the participants. -/
def validateAnchors (store : MachineStore) :
    List (ExecutionDomainId × ParticipantAnchor) → Journal → Journal
  | [], journal => journal
  | (domain, anchor) :: rest, journal =>
    if !anchor.committed then validateAnchors store rest journal
    else match store.domains.get? domain with
      | none => { journal with pendingReset := true }
      | some row =>
        if row.registration ≠ anchor.registration || row.behind anchor then
          { journal with pendingReset := true }
        else validateAnchors store rest
          (checkpointMachineSequence journal domain row.acceptedSequence)

/-- The Armed and Uncertain Grants of the tables. -/
def MachineStore.outstanding (store : MachineStore) : List GrantSnapshot :=
  (store.grants.values.map GrantRow.snapshot).filter fun grant => grant.state.mayRun

/-- The Grants of the tables and of the journal are the same, by identity. -/
def sameInventory (store : MachineStore) (journal : Journal) : Bool :=
  (Table.collect GrantSnapshot.grantId store.outstanding).same
    (Table.collect GrantSnapshot.grantId journal.permissions.values)

/-- A native root in an open Containment has no start permission. -/
def Site.uncovered (site : Site) : Bool :=
  site.roots.rows.any fun row =>
    row.2.rooted && !row.2.closed && row.1 ∉ site.permissions.keys

/-- `validate_machine_history`: what it leaves of the journal. -/
def validateMachineHistory (site : Site) : Journal :=
  let store := site.coordinator.store
  let journal := site.coordinator.journal
  if journal.pendingReset then journal
  else
    let checked := validateAnchors store journal.anchors.rows journal
    if checked.pendingReset then checked
    else if !sameInventory store checked then { checked with pendingReset := true }
    else if site.uncovered then { checked with pendingReset := true }
    else checked

/-- The site with another coordinator. -/
def Site.with (site : Site) (coordinator : Coordinator) : Site := { site with coordinator }

/-- `attach_authority`, and whether it succeeds, while no owner retirement is
pending. -/
def Site.attach (site : Site) : Site × StoreResult Unit :=
  let reopened := reconcilePending false site.coordinator
  match reopened.answer with
  | .error error => (site.with reopened.coordinator, .error error)
  | .ok _ =>
    let site := site.with reopened.coordinator
    (retireNativeStarts (site.with ⟨site.coordinator.store, validateMachineHistory site⟩),
      .ok ())

/-- The loop touches only anchors and the reset gate. -/
theorem validateAnchors_frame (store : MachineStore)
    (anchors : List (ExecutionDomainId × ParticipantAnchor)) (journal : Journal) :
    (validateAnchors store anchors journal).permissions = journal.permissions ∧
      (validateAnchors store anchors journal).pending = journal.pending := by
  induction anchors generalizing journal with
  | nil => exact ⟨rfl, rfl⟩
  | cons first rest ih =>
    rw [validateAnchors]
    split
    · exact ih _
    · split
      · exact ⟨rfl, rfl⟩
      · split
        · exact ⟨rfl, rfl⟩
        · exact ih _

/-- Another journal with the same pending intent. -/
theorem PendingSound.journal {journal : Journal}
    (sound : PendingSound config (fun _ => True) coordinator)
    (pending : journal.pending = coordinator.journal.pending)
    (reset : journal.pendingReset = false → coordinator.journal.pendingReset = false) :
    PendingSound config (fun _ => True) ⟨coordinator.store, journal⟩ := by
  refine ⟨fun _ _ => trivial, ?_⟩
  intro unreset intent waits
  exact sound.computed (reset unreset) intent (pending.symm.trans waits)

theorem pending_validateMachineHistory (site : Site) :
    (validateMachineHistory site).pending = site.coordinator.journal.pending := by
  unfold validateMachineHistory
  dsimp only
  have frame := validateAnchors_frame site.coordinator.store
    site.coordinator.journal.anchors.rows site.coordinator.journal
  split
  · rfl
  · split
    · exact frame.2
    · split
      · exact frame.2
      · split <;> exact frame.2

theorem reset_validateMachineHistory
    (unreset : (validateMachineHistory site).pendingReset = false) :
    site.coordinator.journal.pendingReset = false := by
  cases reset : site.coordinator.journal.pendingReset with
  | false => rfl
  | true =>
    simp only [validateMachineHistory, reset, if_true] at unreset
    cases unreset

end Stillyard
