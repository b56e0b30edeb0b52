import Stillyard.Manager.Journal

/-!
# Inventory recovery and replies

A reconnecting manager reads the coordinator's inventory page by page, imports
it as obligations, and proves its own records back in a reconciliation.  Replies
are applied in sequence and at most once.
-/

namespace Stillyard.Manager

open Relational Fallible

/-- The Grants of a table in key order, as `grants` reads them. -/
def inKeyOrder (rows : List (AllocationKey × GrantSnapshot)) : List GrantSnapshot :=
  (rows.insertionSort fun left right => !right.1.lt left.1).map Prod.snd

/-- `grants(c, "local")`. -/
def localGrants (manager : Manager) : List GrantSnapshot :=
  inKeyOrder (manager.grants.rows.map fun row => (row.1, row.2.grant))

/-- `grants(c, "remote")`. -/
def remoteGrants (manager : Manager) : List GrantSnapshot :=
  inKeyOrder manager.inventory.rows

/-- Insert or update a local Grant and keep its seal. -/
def storeGrant (grants : Table AllocationKey LocalGrant) (grant : GrantSnapshot) :
    Table AllocationKey LocalGrant :=
  let key := grant.candidate.key
  grants.set key ⟨grant, (grants.get? key).bind LocalGrant.sealedRelease⟩

/-- The commands of archived and of queued operations. -/
def commands (manager : Manager) : List Command :=
  manager.abandoned.values.map AbandonedRow.command ++ manager.outbox.values.map OutboxRow.command

/-- The comparison of `import_inventory` with the local record, or with the
durable intent to arm. -/
def importKnown (manager : Manager) (old : Option GrantSnapshot) (grant : GrantSnapshot) :
    Except JournalError Unit :=
  match old with
  | some old =>
    require
      (old.grantId = grant.grantId && old.offerNonce = grant.offerNonce &&
        old.state ≠ .released && !(old.state.mayRun && grant.state = .offered) &&
        old.tickets.all fun ticket => grant.tickets.contains ticket)
      (invalid "coordinator inventory conflicts with local start history")
  | none =>
    require
      (grant.state = .offered ||
        manager.commands.contains (.arm grant.candidate.key grant.offerNonce))
      (invalid "unknown Armed grant has no durable local Arm intent")

/-- The comparison of `import_inventory` for one start right. -/
def importIntent (manager : Manager) (grant : GrantSnapshot) (intent : InvocationIntent) :
    Except JournalError Unit :=
  match manager.tickets.get? intent.invocationId with
  | some row =>
    require
      (row.ticket.key = grant.candidate.key && row.ticket.intent = intent &&
        row.ticket.grantId = grant.grantId)
      (invalid "issued ticket conflicts with local Invocation history")
  | none =>
    require
      (manager.commands.contains
        (.authorizeInvocation grant.candidate.key grant.offerNonce intent))
      (invalid "missing local ticket has no continuous durable request intent")

/-- The record that is imported: a local doubt stays. -/
def importedGrant (old : Option GrantSnapshot) (grant : GrantSnapshot) : GrantSnapshot :=
  match old with
  | some old =>
    if old.state = .uncertain then
      { grant with state := .uncertain, uncertaintyReason := old.uncertaintyReason }
    else grant
  | none => grant

/-- One round of the first loop of `import_inventory`. -/
def importGrant (manager : Manager) (grants : Table AllocationKey LocalGrant)
    (grant : GrantSnapshot) : Except JournalError (Table AllocationKey LocalGrant) := do
  let old := manager.localGrants.find? fun known => known.candidate.key = grant.candidate.key
  manager.importKnown old grant
  grant.tickets.forM fun intent => manager.importIntent grant intent
  return storeGrant grants (importedGrant old grant)

/-- One round of the second loop of `import_inventory`: a sealed allocation that
the coordinator no longer lists was released. -/
def settleOmitted (manager : Manager) (grants : Table AllocationKey LocalGrant)
    (old : GrantSnapshot) : Except JournalError (Table AllocationKey LocalGrant) := do
  if old.state = .released ||
      manager.remoteGrants.any fun grant => grant.candidate.key = old.candidate.key then
    return grants
  else
    let row ← orError (grants.get? old.candidate.key) noRow
    let release ← orError row.sealedRelease
      (invalid "coordinator omitted an unsealed local allocation")
    let grant := { old with state := .released, sealedRelease := some release }
    return grants.set old.candidate.key ⟨grant, some release⟩

def importInventory (manager : Manager) : Except JournalError Manager := do
  let imported ← manager.remoteGrants.foldlM manager.importGrant manager.grants
  let grants ← manager.localGrants.foldlM manager.settleOmitted imported
  return { manager with grants }

/-- The last page imports the inventory. -/
def importAtEnd (manager : Manager) : Option AllocationKey → Except JournalError Manager
  | none => manager.importInventory
  | some _ => .ok manager

/-- One round of the loop of `accept_page`. -/
def stageGrant (session : SessionIdentity)
    (staged : Option AllocationKey × Table AllocationKey GrantSnapshot) (grant : GrantSnapshot) :
    Except JournalError (Option AllocationKey × Table AllocationKey GrantSnapshot) := do
  let key := grant.candidate.key
  require
    (session.owns key && (staged.1.all fun previous => previous.lt key) &&
      grant.state.outstanding)
    (invalid "inventory is unordered or belongs to another authority")
  let inventory ← orError (staged.2.insert? key grant) duplicateRow
  return (some key, inventory)

/-- The durable bounds of `accept_page`. -/
def inventoryFits (encoding : Encoding) (inventory : Table AllocationKey GrantSnapshot) : Bool :=
  inventory.keys.length ≤ maxDomainCandidates &&
    (inventory.values.map encoding.grantBytes).sum ≤ maxReconcileBytes

/-- The page that an `InspectPage` command asks for. -/
def askedPage : Command → Option (Option AllocationKey × Nat)
  | .inspectPage after limit => some (after, limit)
  | _ => none

def acceptPage (encoding : Encoding) (manager : Manager) (request : Request)
    (grants : List GrantSnapshot) (next : Option AllocationKey) (configuration : String) :
    Except JournalError Manager :=
  match manager.recovery with
  | none => .ok manager
  | some recovery => do
      let asked ← orError (askedPage request.command)
        (invalid "unsolicited recovery page")
      require
        (!recovery.complete && asked.1 = recovery.after && grants.length ≤ asked.2 &&
          isDigest configuration && recovery.configuration.all fun old => old = configuration)
        (invalid "recovery page cursor or configuration changed")
      let staged ← grants.foldlM (stageGrant request.session) (asked.1, manager.inventory)
      require
        (next.isNone ||
          (grants ≠ [] && grants.getLast?.map (fun grant => grant.candidate.key) = next))
        (invalid "inventory cursor does not identify the last record")
      require (inventoryFits encoding staged.2)
        (invalid "recovery inventory exceeds durable bounds")
      let paged := { manager with inventory := staged.2 }
      let imported ← paged.importAtEnd next
      return { imported with recovery := some ⟨next, next.isNone, some configuration⟩ }

/-! ## Reconciliation -/

def nextPage (manager : Manager) : Except JournalError (Option Command) := do
  let recovery ← orError manager.recovery noRow
  return if recovery.complete then none else some (.inspectPage recovery.after 256)

/-- One round of the loop of `reconciliation`: the pages that are full, and the
page that is filled. -/
def pageRecord (encoding : Encoding)
    (filled : List (List ReconcileAllocation) × List ReconcileAllocation)
    (record : ReconcileAllocation) :
    Except JournalError (List (List ReconcileAllocation) × List ReconcileAllocation) := do
  let page := filled.2 ++ [record]
  if maxReconcilePage < page.length || maxFrameBytes - 4096 < encoding.pageBytes page then
    require (filled.2 ≠ [])
      (invalid "single reconciliation allocation exceeds frame budget")
    return (filled.1 ++ [filled.2], [record])
  else return (filled.1, page)

/-- The record of an allocation in `reconciliation`. -/
def recordOf (manager : Manager) (grant : GrantSnapshot) :
    Except JournalError ReconcileAllocation := do
  let row ← orError (manager.grants.get? grant.candidate.key) noRow
  return ⟨grant.candidate.key, grant.offerNonce, grant.tickets, row.sealedRelease⟩

/-- The pages of `reconciliation`. -/
def reconciliationPages (encoding : Encoding) (manager : Manager) :
    Except JournalError (List (List ReconcileAllocation)) := do
  let records ← (manager.localGrants.filter fun grant => grant.state ≠ .released).mapM
    manager.recordOf
  let filled ← records.foldlM (pageRecord encoding) ([], [])
  let pages := if filled.2 = [] then filled.1 else filled.1 ++ [filled.2]
  require (encoding.pagesBytes (pages.map some) ≤ maxReconcileBytes)
    (invalid "reconciliation exceeds byte budget")
  return pages

/-- `reconciliation`; the snapshot identity is drawn afresh. -/
def reconciliation (encoding : Encoding) (manager : Manager) (snapshotId : Uuid) :
    Except JournalError (List Command) := do
  let recovery ← orError manager.recovery noRow
  require recovery.complete (invalid "inventory is incomplete")
  let pages ← manager.reconciliationPages encoding
  require (manager.outbox.values.all fun row => row.outcome.isSome)
    (invalid "drain outstanding replies before taking a reconciliation watermark")
  let configuration ← orError recovery.configuration
    (.io "called unwrap() on a None value")
  return [.reconcileBegin snapshotId 0 manager.applied pages.length pages configuration] ++
    (pages.zipIdx.map fun page => .reconcilePage snapshotId page.2 page.1) ++
    [.reconcileCommit snapshotId]

/-- One round of the loop of `committed`. -/
def settleReleased (grants : Table AllocationKey LocalGrant) (key : AllocationKey) :
    Except JournalError (Table AllocationKey LocalGrant) := do
  let row ← orError (grants.get? key) noRow
  let release ← orError row.sealedRelease
    (invalid "reconciled release has no local seal")
  let grant := { row.grant with state := .released, sealedRelease := some release }
  return grants.set key ⟨grant, some release⟩

/-- Whether a command commits a reconciliation. -/
def commitsReconciliation : Command → Bool
  | .reconcileCommit _ => true
  | _ => false

def committed (manager : Manager) (request : Request) (released : List AllocationKey) :
    Except JournalError Manager :=
  match manager.recovery with
  | none => .ok manager
  | some recovery => do
      require (recovery.complete && commitsReconciliation request.command)
        (invalid "unsolicited recovery completion")
      let grants ← released.foldlM settleReleased manager.grants
      return { manager with grants, inventory := .empty, recovery := none }

/-- `acknowledge_abandoned`, without the count it returns. -/
def acknowledgeAbandoned (manager : Manager) (operations : List Uuid) :
    Except JournalError Manager := do
  require
    (operations ≠ [] && operations.length ≤ 256 && operations.all fun operation => operation ≠ 0)
    (invalid "acknowledge 1..256 explicit abandoned operation identities")
  require
    (!manager.active && manager.localGrants.all fun grant => grant.state = .released)
    (invalid "abandoned intents remain necessary until all allocations reconcile released")
  return { manager with
    abandoned := manager.abandoned.filter fun operation _ => !operations.contains operation }

end Stillyard.Manager
