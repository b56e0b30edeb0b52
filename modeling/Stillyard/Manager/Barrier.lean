import Stillyard.Manager.Steps

/-!
# Release barrier

The barrier between a ticket and the process it starts.  It remembers when the
start right was asked for, lets one attempt through while that moment is recent,
and holds from the last readiness check over the durable consumption to the
release by the operating system.  When something fails after the consumption and
before that release, the result is a proof that this process never ran.
-/

namespace Stillyard

/-- `Challenge`.  The clock is wall time and monotonic time. -/
structure Challenge where
  operation : Uuid
  intent : InvocationIntent
  key : AllocationKey
  nonce : Uuid
  clock : Int × Nat
  deriving DecidableEq

/-- The state behind the lock of `ReleaseBarrier`. -/
structure ReleaseBarrier where
  session : SessionIdentity
  generation : Uuid
  configuration : String
  canceled : Bool
  challenge : Option Challenge
  attempted : Bool
  deriving DecidableEq

structure NeverReleased where
  ticket : InvocationTicket
  deriving DecidableEq

inductive Disposition where
  | released
  | alreadyConsumed
  | neverReleased (proof : NeverReleased)
  | uncertain
  deriving DecidableEq

/-- `fresh`: at most 250 ms by both clocks, which agree up to 50 ms.  A clock that
went back is never fresh. -/
def fresh (sent now : Int × Nat) : Bool :=
  sent.2 ≤ now.2 && sent.1 ≤ now.1 &&
    (let boot := now.2 - sent.2
     let wall := (now.1 - sent.1).toNat
     boot ≤ 250 && wall ≤ 250 && boot ≤ wall + 50 && wall ≤ boot + 50)

/-- What the callbacks of one release answer.  `none` is an error of the
callback; `commits` says whether the transaction around the consumption commits,
`reports` whether its callback returns without an error after that, `resumed`
whether the operating system released the process. -/
structure BarrierInput where
  generation : Uuid
  firstClock : Option (Int × Nat)
  firstReady : Option Bool
  commits : Bool
  reports : Bool
  secondReady : Option Bool
  secondClock : Option (Int × Nat)
  resumed : Bool

namespace ReleaseBarrier

def new (session : SessionIdentity) (generation : Uuid) (configuration : String) :
    Except JournalError ReleaseBarrier :=
  if generation ≠ 0 && isDigest configuration then
    .ok ⟨session, generation, configuration, false, none, false⟩
  else .error (invalid "release barrier needs current provider and configuration identities")

/-- `challenge_at`; a repeated challenge keeps the first clock. -/
def challengeAt (barrier : ReleaseBarrier) (request : Request) (clock : Int × Nat) :
    Except JournalError ReleaseBarrier := do
  Fallible.require request.validate (.io "invalid request")
  match request.command with
  | .authorizeInvocation key offerNonce intent =>
    Fallible.require
      (request.session = barrier.session && !barrier.canceled && !barrier.attempted)
      (invalid "release barrier was fenced")
    match barrier.challenge with
    | some old =>
      Fallible.require
        (old.operation = request.operationId && old.intent = intent && old.key = key &&
          old.nonce = offerNonce)
        (invalid "one release barrier cannot authorize another Invocation")
      return barrier
    | none => return { barrier with
        challenge := some ⟨request.operationId, intent, key, offerNonce, clock⟩ }
  | _ => .error (invalid "release challenge requires an Invocation request")

def cancel (barrier : ReleaseBarrier) : ReleaseBarrier :=
  { barrier with canceled := true }

/-- The checks of `release_with_clock` before its attempt; the result is the clock
of the challenge. -/
def checks (barrier : ReleaseBarrier) (input : BarrierInput) (ticket : InvocationTicket) :
    Except JournalError (Int × Nat) := do
  let stale := invalid "ticket is stale, canceled, used or locally unready"
  let challenge ← Fallible.orError barrier.challenge
    (invalid "ticket has no local send challenge")
  Fallible.require
    (!barrier.canceled && !barrier.attempted && barrier.generation = input.generation &&
      barrier.session = ticket.session && barrier.configuration = ticket.configurationSha256 &&
      challenge.intent = ticket.intent && challenge.key = ticket.key &&
      challenge.nonce = ticket.offerNonce)
    stale
  let now ← Fallible.orError input.firstClock (.io "clock unavailable")
  Fallible.require (fresh challenge.clock now) stale
  let ready ← Fallible.orError input.firstReady (.io "readiness unavailable")
  Fallible.require ready stale
  return challenge.clock

/-- The `commit` callback: the ticket is consumed in the transaction that starts
the Invocation. -/
def commit (input : BarrierInput) (ticket : InvocationTicket) (manager : Manager) :
    Manager × Except JournalError Bool :=
  match manager.consumeTicket ticket with
  | .error error => (manager, .error error)
  | .ok (next, consumed) =>
    if !input.commits then (manager, .error (.database "start transaction rolled back"))
    else if !input.reports then (next, .error (.io "start was committed and not reported"))
    else (next, .ok consumed)

/-- `release_with_clock`, with what it leaves of the barrier and the journal. -/
def release (barrier : ReleaseBarrier) (input : BarrierInput) (ticket : InvocationTicket)
    (manager : Manager) : ReleaseBarrier × Manager × Except JournalError Disposition :=
  match barrier.checks input ticket with
  | .error error => (barrier, manager, .error error)
  | .ok sent =>
    let attempted := { barrier with attempted := true }
    match commit input ticket manager with
    | (next, .error error) => (attempted, next, .error error)
    | (next, .ok false) => (attempted, next, .ok .alreadyConsumed)
    | (next, .ok true) =>
      -- The process is not running yet, and any failure here leaves it so.
      if input.secondReady = some true && input.secondClock.any (fresh sent) then
        (attempted, next, .ok (if input.resumed then .released else .uncertain))
      else (attempted, next, .ok (.neverReleased ⟨ticket⟩))

/-- Whether the release consumed its ticket in a transaction that committed. -/
def consumes (barrier : ReleaseBarrier) (input : BarrierInput) (ticket : InvocationTicket)
    (manager : Manager) : Bool :=
  match barrier.checks input ticket, manager.consumeTicket ticket with
  | .ok _, .ok (_, consumed) => input.commits && consumed
  | _, _ => false

section Release

variable {barrier after : ReleaseBarrier} {input : BarrierInput} {ticket : InvocationTicket}
  {manager next : Manager} {result : Except JournalError Disposition}

/-- A release leaves the journal alone, or it consumed its ticket. -/
inductive Releases (ticket : InvocationTicket) (manager : Manager) :
    Bool → Manager → Except JournalError Disposition → Prop where
  | nothing {result : Except JournalError Disposition}
      (kept : ∀ proof, result ≠ .ok (.neverReleased proof)) :
      Releases ticket manager false manager result
  | consumed {next : Manager} {result : Except JournalError Disposition}
      (done : manager.consumeTicket ticket = .ok (next, true))
      (own : ∀ proof, result = .ok (.neverReleased proof) → proof.ticket = ticket) :
      Releases ticket manager true next result

theorem Releases.consumption {consumed : Bool}
    (releases : Releases ticket manager consumed next result) :
    consumed = false ∧ next = manager ∨
      consumed = true ∧ manager.consumeTicket ticket = .ok (next, true) := by
  cases releases with
  | nothing => exact .inl ⟨rfl, rfl⟩
  | consumed done => exact .inr ⟨rfl, done⟩

/-- What follows on a consumption that was reported. -/
theorem releases_of_consumption (consumption : manager.consumeTicket ticket = .ok (next, true))
    (done : (if input.secondReady = some true && input.secondClock.any (fresh sent) then
        .ok (if input.resumed then Disposition.released else .uncertain)
      else .ok (.neverReleased ⟨ticket⟩) : Except JournalError Disposition) = result) :
    Releases ticket manager true next result := by
  refine .consumed consumption ?_
  rintro proof rfl
  split at done
  · split at done <;> cases done
  · cases done
    rfl

theorem releases_of_release (done : barrier.release input ticket manager = (after, next, result)) :
    Releases ticket manager (barrier.consumes input ticket manager) next result := by
  unfold release at done
  unfold consumes
  split at done
  · next error refused =>
    simp only [refused]
    cases done
    exact .nothing nofun
  · next sent checked =>
    simp only [checked]
    cases consumption : manager.consumeTicket ticket with
    | error error =>
      simp only [commit, consumption] at done
      cases done
      exact .nothing nofun
    | ok spent =>
      rcases spent with ⟨spent, consumed⟩
      cases commits : input.commits with
      | false =>
        simp only [commit, consumption, commits, Bool.not_false, if_true] at done
        cases done
        exact .nothing nofun
      | true =>
        cases consumed with
        | false =>
          rcases Manager.consumeTicket_eq_ok consumption with ⟨_, rfl⟩ | ⟨impossible, _⟩
          · cases reports : input.reports <;>
              (simp only [commit, consumption, commits, reports, Bool.not_true, Bool.not_false,
                 Bool.false_eq_true, if_true, if_false, Prod.mk.injEq] at done
               rcases done with ⟨_, rfl, rfl⟩
               exact .nothing nofun)
          · cases impossible
        | true =>
          cases reports : input.reports with
          | false =>
            simp only [commit, consumption, commits, reports, Bool.not_true,
              Bool.not_false, Bool.false_eq_true, if_true, if_false,
              Prod.mk.injEq] at done
            rcases done with ⟨_, rfl, rfl⟩
            exact .consumed consumption nofun
          | true =>
            simp only [commit, consumption, commits, reports, Bool.not_true,
              Bool.false_eq_true, if_false] at done
            split at done
            · next ready =>
              rcases done with ⟨_, rfl, rfl⟩
              exact releases_of_consumption consumption (if_pos ready)
            · next unready =>
              rcases done with ⟨_, rfl, rfl⟩
              exact releases_of_consumption consumption (if_neg unready)

end Release

end ReleaseBarrier

end Stillyard
