import Stillyard.Store.Schema

/-!
# Grant rows

Writing and reading the rows of `machine_grants`, and the physical claims that
are stored with a Grant when it is offered.  All later changes of a Grant go
through `saveGrant` without physical claims, so a Grant keeps the debit it was
offered with.
-/

namespace Stillyard

open Relational Fallible

variable {store : MachineStore} {key : AllocationKey} {grant : GrantSnapshot}

/-- `machine_queue::claims`: the built-in scalars are taken out of the map. -/
def machineClaims (claims : Claims) : ResolvedClaims where
  cpuUnits := amount claims.scalars "cpu_units"
  ramMb := amount claims.scalars "ram_mb"
  cargoSlots := amount claims.scalars "cargo_slots"
  gpuSlots := amount claims.scalars "gpu_slots"
  custom := (((claims.scalars.erase "cpu_units").erase "ram_mb").erase "cargo_slots").erase
    "gpu_slots"
  sharedFences := claims.sharedFences
  exclusiveFences := claims.exclusiveFences
  impacts := claims.impacts

/-- The scalars that the root scope is debited for. -/
def rootScalars (expanded : ScopedClaims) (root : ExecutionDomainId) : Table String Nat :=
  Table.empty.setAll ScopedResourceId.resourceId
    (expanded.scalars.filter fun id _ => id.scope = root)

/-- `physical_claims`.  Ancestors constrain the same physical debit, so only the
entries of the root scope are taken. -/
def physicalClaims (expanded : ScopedClaims) (root : ExecutionDomainId) : ResolvedClaims :=
  let fence (id : ScopedResourceId) : String := s!"domain:{id.scope}:{id.resourceId}"
  { machineClaims ⟨rootScalars expanded root, [], [], expanded.impacts⟩ with
    sharedFences := expanded.sharedFences.map fence
    exclusiveFences := expanded.exclusiveFences.map fence }

/-! ## Changes of a Grant -/

/-- A Grant after its Offer was armed. -/
def GrantSnapshot.arm (grant : GrantSnapshot) (now : Int) : GrantSnapshot :=
  { grant with state := .armed, armedUnixMillis := some now }

/-- A Grant after its Offer expired. -/
def GrantSnapshot.expire (grant : GrantSnapshot) : GrantSnapshot := { grant with state := .expired }

/-- A Grant after an uncertainty report. -/
def GrantSnapshot.doubt (grant : GrantSnapshot) (reason : String) : GrantSnapshot :=
  { grant with state := .uncertain, uncertaintyReason := some reason }

/-- A Grant after one more ticket. -/
def GrantSnapshot.start (grant : GrantSnapshot) (intent : InvocationIntent) : GrantSnapshot :=
  { grant with tickets := grant.tickets ++ [intent] }

/-- A Grant after its release. -/
def GrantSnapshot.release (grant : GrantSnapshot) (release : SealedRelease) (now : Int) :
    GrantSnapshot :=
  { grant with
    state := .released
    releasedUnixMillis := some (grant.releasedUnixMillis.getD now)
    sealedRelease := some release }

/-- One round of the loop of `save_grant`: record the identities of a ticket,
or find them recorded for the same start right. -/
def recordIdentity (key : AllocationKey) (identities : Table EntityId TicketIdentity)
    (intent : InvocationIntent) : StoreResult (Table EntityId TicketIdentity) :=
  let row : TicketIdentity := ⟨intent.containmentId, key, intent⟩
  -- `INSERT OR IGNORE` with a primary key and a unique Containment.
  let next :=
    if intent.invocationId ∈ identities.keys ∨
        identities.values.any (fun other => other.containmentId = intent.containmentId) then
      identities
    else identities.set intent.invocationId row
  if next.get? intent.invocationId = some row then .ok next
  else .error (rejected "conflict" "Invocation or Containment already has another start right")

/-- The row that `save_grant` writes: an upsert with new physical claims, or an
update that keeps them. -/
def writeGrant (grants : Table AllocationKey GrantRow) (grant : GrantSnapshot) :
    Option ResolvedClaims → Table AllocationKey GrantRow
  | some physical => grants.set grant.candidate.key ⟨grant, physical⟩
  | none => grants.update grant.candidate.key fun row => { row with snapshot := grant }

theorem get?_writeGrant (grants : Table AllocationKey GrantRow) (grant : GrantSnapshot)
    (physical : Option ResolvedClaims) (other : key ≠ grant.candidate.key) :
    (writeGrant grants grant physical).get? key = grants.get? key := by
  cases physical with
  | none => rw [writeGrant, Table.get?_update, if_neg other]
  | some claims => rw [writeGrant, Table.get?_set, if_neg other]

theorem get?_writeGrant_self (grants : Table AllocationKey GrantRow) (grant : GrantSnapshot)
    (same : grant.candidate.key = key) :
    (writeGrant grants grant none).get? key =
      (grants.get? key).map fun row => { row with snapshot := grant } := by
  subst same
  rw [writeGrant, Table.get?_update, if_pos rfl]

def saveGrant (store : MachineStore) (grant : GrantSnapshot) (physical : Option ResolvedClaims) :
    StoreResult MachineStore := do
  let identities ← grant.tickets.foldlM (recordIdentity grant.candidate.key)
    store.ticketIdentities
  return { store with
    grants := writeGrant store.grants grant physical
    ticketIdentities := identities }

def loadGrant (store : MachineStore) (key : AllocationKey) : StoreResult GrantSnapshot := do
  let row ← orError (store.grants.get? key)
    (rejected "not_found" "allocation has no Offer or Grant")
  require (row.snapshot.candidate.key = key)
    (.invalidState "Grant state or allocation identity is inconsistent")
  return row.snapshot

def MachineStore.remoteDebits (store : MachineStore) : List ResolvedClaims :=
  store.grants.select fun _ row =>
    if row.snapshot.state.outstanding then some row.physical else none

theorem MachineStore.mem_remoteDebits (found : store.grants.get? key = some row)
    (outstanding : row.snapshot.state.outstanding = true) : row.physical ∈ store.remoteDebits := by
  rw [remoteDebits, Table.mem_select]
  exact ⟨key, row, found, by rw [if_pos outstanding]⟩

def owned (session : SessionIdentity) (key : AllocationKey) : StoreResult Unit :=
  require (session.owns key && key.leaseId ≠ 0)
    (rejected "unauthorized" "allocation belongs to another authority/domain/store")

theorem saveGrant_eq_ok (saved : saveGrant store grant physical = .ok next) :
    ∃ identities, grant.tickets.foldlM (recordIdentity grant.candidate.key)
        store.ticketIdentities = .ok identities ∧
      next = { store with
        grants := writeGrant store.grants grant physical
        ticketIdentities := identities } := by
  simp only [saveGrant, ok_iff] at saved
  rcases saved with ⟨identities, recorded, same⟩
  exact ⟨identities, recorded, same.symm⟩

theorem loadGrant_eq_ok (loaded : loadGrant store key = .ok grant) :
    ∃ row, store.grants.get? key = some row ∧ row.snapshot = grant ∧
      grant.candidate.key = key := by
  simp only [loadGrant, ok_iff, decide_eq_true_eq] at loaded
  rcases loaded with ⟨row, found, _, keyed, same⟩
  exact ⟨row, found, same, same ▸ keyed⟩

theorem owned_eq_ok : owned session key = .ok done ↔ session.owns key = true ∧ key.leaseId ≠ 0 := by
  simp [owned, require_eq_ok]

end Stillyard
