import Stillyard.Store.Grants

/-!
# Invocation tickets

A ticket is the right to start one Invocation under an Armed Grant.  Tickets of
one Grant are issued one after the other: each next one carries the cleanup of
its predecessor.  The host observation that decides whether a start is ready now
is an input.
-/

namespace Stillyard

open Relational Fallible

/-- `HostSample`, the part that tickets use. -/
structure HostSample where
  observationGeneration : Uuid
  capturedUnixMillis : Int
  capturedMonotonicMillis : Nat
  deriving DecidableEq, Repr

/-- `AdmissionContext`, the part that tickets use. -/
structure AdmissionContext where
  evaluatedMonotonicMillis : Nat
  observationGeneration : Uuid
  nonQuietBlockers : List Blocker
  quietBlockers : List Blocker
  quietSampleSatisfied : Bool
  deriving DecidableEq, Repr

/-- `Readiness`: the sample, the observation clock, and the result of
`evaluate_request` for given claims, policies and active debits. -/
structure Readiness where
  sample : Option HostSample
  unix : Int
  monotonic : Nat
  evaluate : ResolvedClaims → Option Nat → Option QuietPolicy → List ResolvedClaims →
    AdmissionContext

def cleanupMatches (intent : InvocationIntent) (proof : TicketCleanup) : Bool :=
  proof.invocationId = intent.invocationId && proof.releaseSequence = intent.releaseSequence &&
    proof.boundarySha256 = intent.boundarySha256 && isDigest proof.proofSha256

/-- The role that may follow the last ticket of a Work allocation. -/
def workRoleFollows (last : InvocationIntent) (intent : InvocationIntent) : Bool :=
  let released := intent.previousCleanup.any TicketCleanup.userCodeReleased
  match last.role, intent.role, released with
  | .primary, .primary, false => intent.roleIndex = 0
  | .primary, .postcondition, true => intent.roleIndex = 0
  | .postcondition, .postcondition, false => intent.roleIndex = last.roleIndex
  | .postcondition, .postcondition, true => last.roleIndex + 1 = intent.roleIndex
  | _, _, _ => false

/-- The role check of `validate_next`. -/
def validRole (owner : AllocationOwner) (previous : Option InvocationIntent)
    (intent : InvocationIntent) : Bool :=
  match owner with
  | .probe _ invocationId =>
    previous.isNone && intent.role = .probe && intent.roleIndex = 0 &&
      intent.invocationId = invocationId
  | .work _ _ => match previous with
    | none => intent.role = .primary && intent.roleIndex = 0
    | some last => workRoleFollows last intent

def validateNext (grant : GrantSnapshot) (intent : InvocationIntent) : StoreResult Unit := do
  let store := grant.candidate.key.managerStoreUuid
  require
    (intent.invocationId.storeUuid = store && intent.containmentId.storeUuid = store &&
      intent.invocationId.entityUuid ≠ 0 && intent.containmentId.entityUuid ≠ 0 &&
      intent.readinessChallenge ≠ 0 && isDigest intent.executableSha256 &&
      isDigest intent.boundarySha256 && intent.releaseSequence ≠ 0 &&
      intent.releaseSequence ≤ i64Max)
    (rejected "invalid_spec" "Invocation identity, challenge or boundary is invalid")
  require (grant.tickets.length < 256)
    (rejected "limit_exceeded" "allocation ticket history exhausted")
  require
    (grant.tickets.all fun ticket =>
      ticket.invocationId ≠ intent.invocationId && ticket.containmentId ≠ intent.containmentId &&
        ticket.readinessChallenge ≠ intent.readinessChallenge)
    (rejected "conflict" "ticket identity is single-use; replay the original operation")
  let previous := grant.tickets.getLast?
  require
    (match previous, intent.previousCleanup with
      | none, none => intent.releaseSequence = 1
      | some last, some proof =>
        cleanupMatches last proof && last.releaseSequence + 1 = intent.releaseSequence
      | _, _ => false)
    (rejected "cleanup_incomplete"
      "next Invocation requires the exact predecessor cleanup and release sequence")
  require (validRole grant.candidate.owner previous intent)
    (rejected "conflict" "Invocation role/order is incompatible with its allocation owner")

/-! ## Readiness -/

def quietBudget (progress : QuietProgress) (context : AdmissionContext) : Nat :=
  let additional := match progress.generation, progress.evaluated with
    | some generation, some previous =>
      if generation = context.observationGeneration then
        context.evaluatedMonotonicMillis - previous
      else 0
    | _, _ => 0
  min (progress.consumed + additional) (u64Bound - 1)

def quietStability (progress : QuietProgress) (context : AdmissionContext)
    (maximumGapMillis : Nat) : Option Nat × Option Nat :=
  if !context.quietSampleSatisfied || !context.quietBlockers.isEmpty then (none, none)
  else
    let continues := progress.generation = some context.observationGeneration &&
      progress.last.any fun last =>
        last ≤ context.evaluatedMonotonicMillis &&
          context.evaluatedMonotonicMillis - last ≤ maximumGapMillis
    (if continues then progress.first else some context.evaluatedMonotonicMillis,
      some context.evaluatedMonotonicMillis)

/-- The quiet part of `authorize`: the new progress, and what to wait for. -/
def quietProgress (progress : QuietProgress) (quiet : QuietPolicy) (context : AdmissionContext)
    (monotonic maximumGapMillis : Nat) : QuietProgress × Option Blocker :=
  let consumed := quietBudget progress context
  let (first, last) := quietStability progress context maximumGapMillis
  let next : QuietProgress :=
    ⟨consumed, some context.observationGeneration, some monotonic, first, last⟩
  let saturated (seconds : Nat) : Nat := min (seconds * 1000) (u64Bound - 1)
  if saturated quiet.waitBudgetSeconds ≤ consumed then
    (next, some ⟨"quiet_unattainable", "allocation exhausted its cumulative quiet wait budget"⟩)
  else if first.all fun first =>
      monotonic < first || monotonic - first < saturated quiet.stableSeconds then
    (next, some (context.quietBlockers.head?.getD
      ⟨"quiet_waiting", "host quiet interval is not yet stable"⟩))
  else (next, none)

/-- The readiness evaluation of `authorize`. -/
def evaluateReadiness (config : CoordinatorConfig) (readiness : Readiness) (candidate : Candidate)
    (physical : ResolvedClaims) (active : List ResolvedClaims) (progress : QuietProgress)
    (resourceBlockers : List Blocker) : QuietProgress × Option Blocker :=
  let context := readiness.evaluate physical candidate.observed candidate.quiet active
  match resourceBlockers.head?.or context.nonQuietBlockers.head? with
  | some blocker => (⟨progress.consumed, none, none, none, none⟩, some blocker)
  | none => match candidate.quiet with
    | some quiet =>
      quietProgress progress quiet context readiness.monotonic config.quietMaxSampleGapMillis
    | none => (progress, none)

/-- The physical claims of every outstanding Grant except one. -/
def otherDebits (store : MachineStore) (key : AllocationKey) : List ResolvedClaims :=
  store.grants.select fun other row =>
    if other ≠ key ∧ row.snapshot.state.outstanding then some row.physical else none

/-- `authorize`.  A readiness blocker is a durable answer that keeps the quiet
progress; every other refusal is an error. -/
def authorize (config : CoordinatorConfig) (request : Request) (store : MachineStore)
    (grant : GrantSnapshot) (intent : InvocationIntent) (readiness : Readiness)
    (nativeDebits : List ResolvedClaims) : StoreResult (MachineStore × Outcome) := do
  validateNext grant intent
  let key := grant.candidate.key
  let candidate ← orError (store.candidates.get? key) (.sqlite "no candidate row")
  require (candidate.state = .ready)
    (rejected "stale" "withdrawn or canceled allocation cannot issue new start rights")
  let sample ← orError readiness.sample
    (rejected "unavailable" "Invocation needs a fresh host observation barrier")
  require
    (sample.capturedMonotonicMillis ≤ readiness.monotonic &&
      readiness.monotonic - sample.capturedMonotonicMillis ≤ 250)
    (rejected "unavailable" "host sample expired before ticket commit")
  let row ← orError (store.grants.get? key) (.sqlite "no Grant row")
  let active := nativeDebits ++ otherDebits store key
  require
    (row.physical.cpuUnits < 2 ^ 32 && row.physical.cargoSlots < 2 ^ 32 &&
      row.physical.gpuSlots < 2 ^ 32)
    (rejected "invalid_spec" "built-in claims exceed supported quantities")
  let blockers ← (legacyFullVectorBlockers row.physical config.capacities active
    config.impactIncompatibilities).mapError StoreError.invalidState
  let prior := (store.readiness.get? key).getD ⟨0, none, none, none, none⟩
  let (progress, waiting) :=
    evaluateReadiness config readiness grant.candidate row.physical active prior blockers
  let store := { store with readiness := store.readiness.set key progress }
  match waiting with
  | some blocker => return (store, .rejected blocker.code blocker.detail)
  | none =>
    let grant := { grant with tickets := grant.tickets ++ [intent] }
    let store ← saveGrant store grant none
    return (store, .ticket {
      grantId := grant.grantId
      key := key
      offerNonce := grant.offerNonce
      intent := intent
      configurationSha256 := grant.candidate.configurationSha256
      issuedUnixMillis := readiness.unix
      hostObservationGeneration := sample.observationGeneration
      hostSampleUnixMillis := sample.capturedUnixMillis
      session := request.session })

end Stillyard
