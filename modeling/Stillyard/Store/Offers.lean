import Stillyard.Store.Grants

/-!
# The coordinator pass

`machine_offer_before_native` runs before a native Job is tried.  In one
transaction it expires reservations and Offers, keeps the longest prefix of all
reservations that fits, and then goes through the ready candidates in schedule
order, down to the rank of the native Job: each is offered, reserves, or waits.

The native tables enter through a view of the granted Leases and of the native
reservations; the pass answers which native reservations it drops.
-/

namespace Stillyard

open Relational Fallible

/-- A row of `reservations`, with the priority of its Job. -/
structure NativeReservation where
  job : Uuid
  priority : Int
  claims : ResolvedClaims
  holdDeadlineMs : Int

/-- What the pass reads from the native tables. -/
structure NativeView where
  granted : List ResolvedClaims
  reservations : List NativeReservation

def scalarReservationHoldMillis : Int := 60000

def scalarReservationBackoffMillis : Int := 5000

/-- The end of the back-off that starts now. -/
def backoffEnd (now : Int) : Int := i64Clamp (now + scalarReservationBackoffMillis)

/-- The domain nodes of `machine_topology`. -/
def topologyNodes (config : CoordinatorConfig) : List DomainBudget :=
  ⟨config.domains.machineScope, none, legacyCapacities config.capacities⟩ ::
    ⟨config.domains.nativeDomain, some config.domains.machineScope, .empty⟩ ::
    config.participants.map fun registration =>
      ⟨registration.domainId, some registration.parentDomain, registration.budgets⟩

/-- The aliases of all registrations, under their domains. -/
def topologyAliases (config : CoordinatorConfig) : Table (ExecutionDomainId × String) String :=
  config.participants.foldl
    (fun aliases registration =>
      aliases.setAll (fun name => (registration.domainId, name)) registration.aliases)
    .empty

/-- `machine_topology`: none without participants. -/
def machineTopology (config : CoordinatorConfig) : StoreResult (Option ResourceTopology) :=
  if config.participants.isEmpty then .ok none
  else ((ResourceTopology.new config.domains.machineScope (topologyNodes config)
    (topologyAliases config)).map some).mapError StoreError.invalidState

/-- `expand` inside a transaction. -/
def expandClaims (topology : ResourceTopology) (domain : ExecutionDomainId)
    (claims : ResolvedClaims) : StoreResult ScopedClaims :=
  (topology.expand domain claims).mapError StoreError.invalidState

/-- A reservation that `machine_reservation::expire` ends. -/
def reservationEnds (now : Int) (row : CandidateRow) : Bool :=
  row.reservationDeadlineMs.any fun deadline =>
    deadline ≤ now || row.expiresMs ≤ now || row.state ≠ .ready

/-- `machine_reservation::expire`. -/
def expireReservations (store : MachineStore) (now : Int) : MachineStore × Bool :=
  let candidates := store.candidates.modify fun _ row =>
    if reservationEnds now row then
      { row with reservationDeadlineMs := none, notBeforeMs := some (backoffEnd now) }
    else row
  let reservations := store.reservations.filter fun key _ =>
    !((candidates.get? key).any fun row =>
      row.reservationDeadlineMs.isNone || row.state ≠ .ready || row.expiresMs ≤ now)
  ({ store with candidates, reservations },
    store.candidates.rows.any fun row => reservationEnds now row.2)

/-- `drop_reservation`, with whether a reservation existed. -/
def dropReservation (store : MachineStore) (key : AllocationKey) : MachineStore × Bool :=
  ({ store with
      candidates := store.candidates.update key fun row =>
        { row with reservationDeadlineMs := none }
      reservations := store.reservations.erase key },
    store.reservations.keys.contains key)

/-- Keep a candidate from being tried before the back-off ends. -/
def deferCandidate (store : MachineStore) (key : AllocationKey) (now : Int) : MachineStore :=
  { store with candidates := store.candidates.update key fun row =>
    { row with notBeforeMs := some (backoffEnd now) } }

/-- Expire one Offer and keep its candidate waiting. -/
def expireOffer (now : Int) (store : MachineStore) (grant : GrantSnapshot) :
    StoreResult MachineStore := do
  let store ← saveGrant store grant.expire none
  return deferCandidate store grant.candidate.key now

/-- Expire the Offers whose deadline has passed. -/
def expireOffers (store : MachineStore) (now : Int) : StoreResult (MachineStore × Bool) := do
  let due := store.grants.select fun _ row =>
    if row.snapshot.state = .offered ∧ row.snapshot.offerDeadlineUnixMillis ≤ now then
      some row.snapshot
    else none
  let store ← due.foldlM (expireOffer now) store
  return (store, !due.isEmpty)

/-- The schedule key of a queue owner with this priority. -/
def queueRank (store : MachineStore) (owner : QueueOwner) (priority now : Int) :
    Option ScheduleKey :=
  (store.queue.get? owner).map fun row =>
    ⟨effectivePriorityAt priority row.acceptedMs now, row.acceptedMs, row.sequence⟩

/-- A domain that has reconciled its current session. -/
def domainReconciled (store : MachineStore) (domain : ExecutionDomainId) : Bool :=
  (store.domains.get? domain).any fun row => !row.reconciliationRequired

/-- The ready candidates that have no Grant, or an expired one. -/
def readyCandidates (store : MachineStore) (now : Int) : List (Candidate × ScheduleKey) :=
  let ready := store.candidates.select fun key row =>
    if row.state = .ready ∧ now < row.expiresMs ∧ row.notBeforeMs.getD 0 ≤ now ∧
        domainReconciled store row.domainId = true ∧
        (store.grants.get? key).all (fun grant => grant.snapshot.state = .expired) = true then
      (queueRank store row.queueOwner row.candidate.priority now).map fun rank =>
        (row.candidate, rank)
    else none
  ready.insertionSort fun left right =>
    (scheduleOrder left.2 right.2).then
      (compare left.1.key.leaseId right.1.key.leaseId) ≠ .gt

structure RemoteReservation where
  candidate : Candidate
  rank : ScheduleKey
  physical : ResolvedClaims

def remoteReservations (store : MachineStore) (now : Int) : List RemoteReservation :=
  store.reservations.select fun key physical =>
    (store.candidates.get? key).bind fun row =>
      if row.state = .ready ∧ now < row.expiresMs ∧
          row.reservationDeadlineMs.any (fun deadline => now < deadline) = true ∧
          domainReconciled store row.domainId = true then
        (queueRank store row.queueOwner row.candidate.priority now).map fun rank =>
          ⟨row.candidate, rank, physical⟩
      else none

/-! ## Retained reservations -/

/-- The owner of a reservation in the common order. -/
inductive ReservedOwner where
  | native (job : Uuid)
  | remote (key : AllocationKey)
  deriving DecidableEq, Repr

/-- Order of the owners' texts; a Job's UUID text sorts before a JSON key. -/
def ReservedOwner.le : ReservedOwner → ReservedOwner → Bool
  | .native left, .native right => left ≤ right
  | .native _, .remote _ => true
  | .remote _, .native _ => false
  | .remote left, .remote right => !right.lt left

/-- One entry of the list `reserved`. -/
structure ReservedEntry where
  owner : ReservedOwner
  rank : ScheduleKey
  claims : ScopedClaims

/-- Claims reduced to their scalars, as a reservation holds them. -/
def ScopedClaims.scalarsOnly (claims : ScopedClaims) : ScopedClaims := ⟨claims.scalars, [], [], []⟩

/-- Claims reduced to fences and impacts. -/
def ScopedClaims.nonScalar (claims : ScopedClaims) : ScopedClaims :=
  { claims with scalars := .empty }

/-- The native part of `reserved`. -/
def nativeReserved (config : CoordinatorConfig) (topology : ResourceTopology) (view : NativeView)
    (now : Int) (store : MachineStore) : StoreResult (List ReservedEntry) :=
  (view.reservations.filter fun reservation => now < reservation.holdDeadlineMs).mapM
    fun reservation => do
      let rank ← orError
        (queueRank store (.native reservation.job) reservation.priority now)
        (.sqlite "no queue row")
      let expanded ← expandClaims topology config.domains.nativeDomain reservation.claims
      return ⟨.native reservation.job, rank, expanded⟩

/-- One remote reservation: dropped if it was made under another configuration. -/
def remoteReserved (config : CoordinatorConfig) (topology : ResourceTopology)
    (state : MachineStore × List ReservedEntry × Bool) (reservation : RemoteReservation) :
    StoreResult (MachineStore × List ReservedEntry × Bool) := do
  let (store, reserved, changed) := state
  let candidate := reservation.candidate
  if candidate.configurationSha256 ≠ config.configSha256 then
    let (store, dropped) := dropReservation store candidate.key
    return (store, reserved, changed || dropped)
  else
    let expanded ← expandClaims topology candidate.key.domainId (machineClaims candidate.claims)
    return (store,
      reserved ++ [⟨.remote candidate.key, reservation.rank, expanded.scalarsOnly⟩], changed)

/-- The state of the prefix loop: `suffix` once a reservation did not fit. -/
structure Retention where
  store : MachineStore
  retained : List ReservedEntry
  suffix : Bool
  dropped : List Uuid

/-- One round of the prefix loop over the ordered reservations. -/
def retainReservation (topology : ResourceTopology) (rules : Table String (List String))
    (now : Int) (state : Retention) (entry : ReservedEntry) : Retention :=
  let blockers := entry.claims.blockers topology (state.retained.map ReservedEntry.claims) rules
  if state.suffix || !blockers.isEmpty then
    match entry.owner with
    | .native job => { state with suffix := true, dropped := state.dropped ++ [job] }
    | .remote key => { state with
        suffix := true
        store := deferCandidate (dropReservation state.store key).1 key now }
  else { state with retained := state.retained ++ [entry] }

/-- The state of the main loop. -/
structure OfferState where
  store : MachineStore
  active : List ScopedClaims
  reserved : List ReservedEntry
  changed : Bool

/-- The identities for a new Offer: the Grant's, unless the allocation has one,
and the Offer nonce. -/
structure FreshOffer where
  grantUuid : Uuid
  nonce : Uuid
  deriving DecidableEq, Repr

/-- A higher ranked reservation of another owner shares a claimed scalar. -/
def higherOverlaps (reserved : List ReservedEntry) (key : AllocationKey) (rank : ScheduleKey)
    (expanded : ScopedClaims) : Bool :=
  reserved.any fun entry =>
    entry.owner ≠ .remote key && outranks entry.rank rank &&
      expanded.scalars.rows.any fun scalar =>
        0 < scalar.2 && 0 < amount entry.claims.scalars scalar.1

/-- The identity that an Offer keeps from an earlier one. -/
def offerGrantId (config : CoordinatorConfig) (store : MachineStore) (key : AllocationKey)
    (fresh : FreshOffer) : StoreResult EntityId :=
  match store.grants.get? key with
  | some row => do
      require (row.snapshot.grantId.storeUuid = config.storeUuid)
        (.invalidState "Grant belongs to another coordinator store")
      return row.snapshot.grantId
  | none => .ok ⟨config.storeUuid, fresh.grantUuid⟩

/-- The Grant of a new Offer. -/
def offeredGrant (candidate : Candidate) (rank : ScheduleKey) (grantId : EntityId) (nonce : Uuid)
    (now : Int) : GrantSnapshot where
  queueAcceptedUnixMillis := rank.acceptedMs
  queueSequence := rank.rowid.toNat
  uncertaintyReason := none
  riskClearance := none
  grantId := grantId
  candidate := candidate
  offerNonce := nonce
  state := .offered
  offeredUnixMillis := now
  offerDeadlineUnixMillis := i64Clamp (now + offerMillis)
  armedUnixMillis := none
  releasedUnixMillis := none
  tickets := []
  sealedRelease := none

/-- Drop the candidate's own reservation from the tables and from the list. -/
def OfferState.dropOwn (state : OfferState) (key : AllocationKey) : OfferState :=
  let (store, dropped) := dropReservation state.store key
  { state with
    store
    reserved := state.reserved.filter fun entry => entry.owner ≠ .remote key
    changed := state.changed || dropped }

/-- Make the Offer that a `Grant` decision allows. -/
def makeOffer (config : CoordinatorConfig) (now : Int) (fresh : FreshOffer)
    (candidate : Candidate) (rank : ScheduleKey) (expanded : ScopedClaims) (state : OfferState) :
    StoreResult OfferState := do
  let state := state.dropOwn candidate.key
  let grantId ← offerGrantId config state.store candidate.key fresh
  let store ← saveGrant state.store (offeredGrant candidate rank grantId fresh.nonce now)
    (some (physicalClaims expanded config.domains.machineScope))
  return { state with store, active := state.active ++ [expanded], changed := true }

/-- Make the reservation that a `Create` decision asks for. -/
def makeReservation (config : CoordinatorConfig) (now : Int) (key : AllocationKey)
    (rank : ScheduleKey) (expanded : ScopedClaims) (state : OfferState) : OfferState :=
  let physical := (physicalClaims expanded config.domains.machineScope).scalarOnly
  { state with
    store := { state.store with
      candidates := state.store.candidates.update key fun row =>
        { row with
          reservationDeadlineMs := some (i64Clamp (now + scalarReservationHoldMillis)) }
      reservations := state.store.reservations.set key physical }
    reserved := state.reserved ++ [⟨.remote key, rank, expanded.scalarsOnly⟩]
    changed := true }

/-- The scalar decision for one candidate. -/
def offerDecision (topology : ResourceTopology) (now : Int) (state : OfferState)
    (row : CandidateRow) (key : AllocationKey) (rank : ScheduleKey) (expanded : ScopedClaims) :
    ReservationDecision :=
  reservationDecision
    { claims := expanded.scalars
      capacities := topology.capacities
      active := state.active.map ScopedClaims.scalars
      reserved := state.reserved.map fun entry => entry.claims.scalars
      ownDeadline := row.reservationDeadlineMs
      higherOverlaps := higherOverlaps state.reserved key rank expanded
      notBefore := row.notBeforeMs
      now }

/-- One round of the main loop. -/
def offerCandidate (config : CoordinatorConfig) (topology : ResourceTopology) (now : Int)
    (fresh : AllocationKey → FreshOffer) (state : OfferState) (ready : Candidate × ScheduleKey) :
    StoreResult OfferState :=
  let (candidate, rank) := ready
  let key := candidate.key
  if candidate.configurationSha256 ≠ config.configSha256 then .ok state
  else match topology.expand key.domainId (machineClaims candidate.claims) with
    | .error _ => .ok state
    | .ok expanded =>
      if !(expanded.nonScalar.blockers topology state.active
          config.impactIncompatibilities).isEmpty then
        .ok (state.dropOwn key)
      else do
        let row ← orError (state.store.candidates.get? key) (.sqlite "no candidate row")
        match offerDecision topology now state row key rank expanded with
        | .drop => return state.dropOwn key
        | .expire =>
          let dropped := state.dropOwn key
          return { dropped with
            store := deferCandidate dropped.store key now
            changed := true }
        | .hold => return state
        | .create => return makeReservation config now key rank expanded state
        | .grant => makeOffer config now (fresh key) candidate rank expanded state

/-! ## The pass -/

/-- What a pass takes from its surroundings: the clock, the native Job that is
tried next with its priority, and the identities for new Offers. -/
structure OfferInput where
  now : Int
  native : Option (Uuid × Int)
  fresh : AllocationKey → FreshOffer

/-- The rank of the native Job that is tried next. -/
def OfferInput.nativeRank (input : OfferInput) (store : MachineStore) (now : Int) :
    StoreResult (Option ScheduleKey) :=
  match input.native with
  | none => .ok none
  | some (job, priority) =>
    (orError (queueRank store (.native job) priority now)
      (.sqlite "no queue row")).map some

/-- The result of a pass: the tables, the dropped native reservations with the
time until which their Jobs may not reserve again, and whether anything
changed. -/
structure OfferResult where
  store : MachineStore
  dropped : List Uuid
  backoff : Int
  changed : Bool

/-- The debits of all outstanding allocations, under scoped names. -/
def scopedDebits (config : CoordinatorConfig) (topology : ResourceTopology) (view : NativeView)
    (store : MachineStore) : StoreResult (List ScopedClaims) := do
  let native ← view.granted.mapM (expandClaims topology config.domains.nativeDomain)
  let outstanding := store.grants.select fun _ row =>
    if row.snapshot.state.outstanding then some row.snapshot.candidate else none
  let remote ← outstanding.mapM fun candidate =>
    expandClaims topology candidate.key.domainId (machineClaims candidate.claims)
  return native ++ remote

/-- The transaction of `machine_offer_before_native`. -/
def offerTransaction (config : CoordinatorConfig) (topology : ResourceTopology)
    (input : OfferInput) (view : NativeView) (start : MachineStore) :
    StoreResult OfferResult := do
  let now := max input.now start.scheduleMs
  let (store, reservationsExpired) := expireReservations start now
  let (store, offersExpired) ← expireOffers store now
  let nativeRank ← input.nativeRank store now
  let ready := readyCandidates store now
  let active ← scopedDebits config topology view store
  let native ← nativeReserved config topology view now store
  let (store, reserved, configChanged) ← (remoteReservations store now).foldlM
    (remoteReserved config topology) (store, native, reservationsExpired || offersExpired)
  let ordered := reserved.insertionSort fun left right =>
    scheduleOrder left.rank right.rank = .lt ∨
      (scheduleOrder left.rank right.rank = .eq ∧ left.owner.le right.owner = true)
  let retention := ordered.foldl
    (retainReservation topology config.impactIncompatibilities now) ⟨store, [], false, []⟩
  -- The loop breaks at the first candidate that ranks after the native Job.
  let tried := ready.takeWhile fun entry =>
    nativeRank.all fun native => scheduleOrder entry.2 native ≠ .gt
  let final ← tried.foldlM (offerCandidate config topology now input.fresh)
    ⟨retention.store, active, retention.retained, configChanged || retention.suffix⟩
  let store := if final.changed then
      { final.store with scheduleMs := now, revision := final.store.revision + 1 }
    else final.store
  return ⟨store, retention.dropped, backoffEnd now, final.changed⟩

/-- `machine_offer_before_native`; `none` where it leaves without a
transaction. -/
def machineOfferBeforeNative (config : CoordinatorConfig) (authorityBlocked : Bool)
    (input : OfferInput) (view : NativeView) (store : MachineStore) :
    StoreResult (Option OfferResult) := do
  if authorityBlocked then return none
  else match ← machineTopology config with
    | none => return none
    | some topology => return some (← offerTransaction config topology input view store)

end Stillyard
