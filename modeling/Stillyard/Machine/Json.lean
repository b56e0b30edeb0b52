import Stillyard.Machine.Wire

/-!
# Sizes of the JSON texts

The sizes of the messages as `serde_json` writes them.  With its quotes a UUID takes
38 bytes, a durable identity 75 and a digest 66, so that the constants below are the
names, the separators and the fields of a fixed width of each record.
-/

namespace Stillyard.Json

open Relational

variable {α : Type}

/-- Digits of a `u64`. -/
def number (value : Nat) : Nat := min 20 (Nat.toDigits 10 value).length

def integer (value : Int) : Nat := number value.natAbs + if value < 0 then 1 else 0

/-- A text without escaped characters. -/
def text (value : String) : Nat := value.utf8ByteSize + 2

def boolean (value : Bool) : Nat := if value then 4 else 5

def optional (size : α → Nat) : Option α → Nat
  | none => 4
  | some value => size value

def array (size : α → Nat) : List α → Nat
  | [] => 2
  | values => 1 + (values.map fun value => size value + 1).sum

def key : Nat := 271

def session (session : SessionIdentity) : Nat := 303 + number session.connectionEpoch

def claims (claims : Claims) : Nat :=
  60 + array (fun entry => text entry.1 + 1 + number entry.2) claims.scalars.rows +
    array text claims.sharedFences + array text claims.exclusiveFences + array text claims.impacts

def owner : AllocationOwner → Nat
  | .work .. => 189
  | .probe .. => 193

-- The policies are written with one bound and one detector.
def candidate (candidate : Candidate) : Nat :=
  433 + owner candidate.owner + number candidate.revision + integer candidate.priority +
    claims candidate.claims + optional (fun _ => 103) candidate.observed +
    optional (fun quiet => 150 + number quiet.stableSeconds + number quiet.waitBudgetSeconds)
      candidate.quiet

def cleanup (cleanup : TicketCleanup) : Nat :=
  302 + number cleanup.releaseSequence + boolean cleanup.userCodeReleased

def role : InvocationRole → Nat
  | .primary => 9
  | .probe => 7
  | .postcondition => 15

def intent (intent : InvocationIntent) : Nat :=
  481 + role intent.role + number intent.roleIndex + number intent.releaseSequence +
    optional cleanup intent.previousCleanup

def sealedRelease (release : SealedRelease) : Nat :=
  362 + number release.sealedSequence + array cleanup release.tickets

def state : GrantState → Nat
  | .offered | .expired => 9
  | .armed => 7
  | .uncertain => 11
  | .released => 10

def grant (grant : GrantSnapshot) : Nat :=
  378 + integer grant.queueAcceptedUnixMillis + number grant.queueSequence +
    optional text grant.uncertaintyReason + optional (fun _ => 38) grant.riskClearance +
    candidate grant.candidate + state grant.state + integer grant.offeredUnixMillis +
    integer grant.offerDeadlineUnixMillis + optional integer grant.armedUnixMillis +
    optional integer grant.releasedUnixMillis + array intent grant.tickets +
    optional sealedRelease grant.sealedRelease

def ticket (ticket : InvocationTicket) : Nat :=
  648 + intent ticket.intent + integer ticket.issuedUnixMillis +
    integer ticket.hostSampleUnixMillis + session ticket.session

def record (record : ReconcileAllocation) : Nat :=
  361 + array intent record.tickets + optional sealedRelease record.sealedRelease

def command : Command → Nat
  | .reportUncertain _ _ reason => 373 + text reason
  | .inspectPage after limit => 46 + optional (fun _ => key) after + number limit
  | .acknowledge throughSequence => 47 + number throughSequence
  | .candidateUpsert proposed => 45 + candidate proposed
  | .withdraw _ revision => 314 + number revision
  | .arm .. => 350
  | .authorizeInvocation _ _ authorized => 377 + intent authorized
  | .cancelCandidate _ revision => 322 + number revision
  | .release release => 34 + sealedRelease release
  | .inspect sought => 30 + optional (fun _ => key) sought
  | .reconcileBegin _ beginSequence endSequence pageCount _ _ =>
    298 + number beginSequence + number endSequence + number pageCount
  | .reconcilePage _ index allocations => 107 + number index + array record allocations
  | .reconcileCommit _ => 85

def outcome : Outcome → Nat
  | .inventoryPage grants next _ => 135 + array grant grants + optional (fun _ => key) next
  | .acknowledged throughSequence => 45 + number throughSequence
  | .accepted revision => 33 + number revision
  | .grant shown => 27 + grant shown
  | .ticket issued => 29 + ticket issued
  | .released _ sealedSequence => 127 + number sealedSequence
  | .inspection grants truncated => 46 + array grant grants + boolean truncated
  | .reconciled endSequence released => 51 + number endSequence + array (fun _ => key) released
  | .rejected code detail => 39 + text code + text detail

-- The authentication is an array of 32 numbers with at most three digits.
def request (request : Request) : Nat :=
  340 + session request.session + number request.requestSequence + command request.command

def reply (reply : Reply) : Nat :=
  121 + session reply.session + number reply.requestSequence +
    number reply.coordinatorRevision + outcome reply.outcome

theorem number_le (value : Nat) : number value ≤ 20 := Nat.min_le_left ..

theorem array_le {size : α → Nat} {values : List α}
    (bounded : ∀ value ∈ values, size value ≤ bound) :
    array size values ≤ 2 + (bound + 1) * values.length := by
  have total : (values.map fun value => size value + 1).sum ≤ (bound + 1) * values.length := by
    have listed := List.sum_le_card_nsmul (values.map fun value => size value + 1) (bound + 1) (by
      intro length listed
      obtain ⟨value, member, rfl⟩ := List.mem_map.mp listed
      exact Nat.succ_le_succ (bounded value member))
    simpa [Nat.mul_comm] using listed
  cases values with
  | nil => exact Nat.le_refl 2
  | cons value rest =>
    rw [array]
    · omega
    · exact List.cons_ne_nil value rest

def encoding : Encoding where
  candidateBytes := candidate
  grantBytes := grant
  commandBytes := command
  outcomeBytes := outcome
  requestBytes := request
  replyBytes := reply
  pageBytes := array record
  pagesBytes := array (optional (array record))
  replyBytes_le sent := by
    have shorter := number_le sent.coordinatorRevision
    have longest : number (u64Bound - 1) = 20 := by decide +kernel
    simp only [reply]
    omega

end Stillyard.Json
