import Stillyard.Manager.Barrier
import Stillyard.System.Agreement

/-!
# Calls of a release barrier

All calls of one barrier, one after the other behind its lock.  The callbacks
of a release answer as they like, and one that panics poisons the lock.  Whatever
they do, the operating system is asked at most once to release the process: for
the ticket of the first challenge, while that challenge is recent, and before the
barrier was canceled.
-/

namespace Stillyard.ReleaseBarrier

/-- How a callback ends. -/
inductive Answer (α : Type) where
  | returns (value : α)
  | fails (error : JournalError)
  | panics

/-- A callback that returns a value or fails. -/
def Answer.ofOption (failure : String) : Option α → Answer α
  | some value => .returns value
  | none => .fails (.io failure)

/-- The callbacks of `release_with_clock`, as it calls them. -/
inductive Callback where
  | clock
  | ready
  | commit
  | release
  deriving DecidableEq

/-- The arguments of `release_with_clock`, with the answers of its callbacks. -/
structure ReleaseCall where
  ticket : InvocationTicket
  generation : Uuid
  firstClock : Answer (Int × Nat)
  firstReady : Answer Bool
  commit : Answer Bool
  secondReady : Answer Bool
  secondClock : Answer (Int × Nat)
  release : Answer Unit

/-- One call of a barrier; `challenge` reads the clock itself. -/
inductive BarrierCall where
  | challenge (request : Request) (clock : Except JournalError (Int × Nat))
  | cancel
  | release (call : ReleaseCall)

/-- How a call of a barrier ends. -/
inductive Ending where
  | done
  | disposed (disposition : Disposition)
  | refused (error : JournalError)
  | panicked

/-- A call that returns. -/
def Ending.of : Except JournalError Disposition → Ending
  | .ok disposition => .disposed disposition
  | .error error => .refused error

/-- The barrier behind its lock. -/
structure Locked where
  barrier : ReleaseBarrier
  poisoned : Bool

/-- The barrier that `ReleaseBarrier::new` returns. -/
def Locked.new (session : SessionIdentity) (generation : Uuid) (configuration : String) : Locked :=
  ⟨⟨session, generation, configuration, false, none, false⟩, false⟩

/-- The checks of `release_with_clock` that ask no callback. -/
def admits (barrier : ReleaseBarrier) (challenge : Challenge) (generation : Uuid)
    (ticket : InvocationTicket) : Bool :=
  !barrier.canceled && !barrier.attempted && barrier.generation = generation &&
    barrier.session = ticket.session && barrier.configuration = ticket.configurationSha256 &&
    challenge.intent = ticket.intent && challenge.key = ticket.key &&
    challenge.nonce = ticket.offerNonce

/-- The refusal of `release_with_clock` after a failed check. -/
def stale : Ending := .refused (invalid "ticket is stale, canceled, used or locally unready")

/-- The barrier once its attempt is used. -/
def attempt (barrier : ReleaseBarrier) : ReleaseBarrier :=
  { barrier with attempted := true }

/-- `release_with_clock` on a lock that is not poisoned, with the callbacks it ran. -/
def releaseWithClock (barrier : ReleaseBarrier) (call : ReleaseCall) :
    Locked × List Callback × Ending :=
  match barrier.challenge with
  | none => (⟨barrier, false⟩, [], .refused (invalid "ticket has no local send challenge"))
  | some challenge =>
    if !barrier.admits challenge call.generation call.ticket then (⟨barrier, false⟩, [], stale)
    else match call.firstClock with
    | .panics => (⟨barrier, true⟩, [.clock], .panicked)
    | .fails error => (⟨barrier, false⟩, [.clock], .refused error)
    | .returns now =>
      if !fresh challenge.clock now then (⟨barrier, false⟩, [.clock], stale)
      else match call.firstReady with
      | .panics => (⟨barrier, true⟩, [.clock, .ready], .panicked)
      | .fails error => (⟨barrier, false⟩, [.clock, .ready], .refused error)
      | .returns false => (⟨barrier, false⟩, [.clock, .ready], stale)
      | .returns true => match call.commit with
        | .panics => (⟨barrier.attempt, true⟩, [.clock, .ready, .commit], .panicked)
        | .fails error => (⟨barrier.attempt, false⟩, [.clock, .ready, .commit], .refused error)
        | .returns false =>
          (⟨barrier.attempt, false⟩, [.clock, .ready, .commit], .disposed .alreadyConsumed)
        | .returns true =>
          -- The process is not running yet, and a failed check here leaves it so.
          match call.secondReady with
          | .panics => (⟨barrier.attempt, true⟩, [.clock, .ready, .commit, .ready], .panicked)
          | .fails _ | .returns false =>
            (⟨barrier.attempt, false⟩, [.clock, .ready, .commit, .ready],
              .disposed (.neverReleased ⟨call.ticket⟩))
          | .returns true => match call.secondClock with
            | .panics =>
              (⟨barrier.attempt, true⟩, [.clock, .ready, .commit, .ready, .clock], .panicked)
            | .fails _ =>
              (⟨barrier.attempt, false⟩, [.clock, .ready, .commit, .ready, .clock],
                .disposed (.neverReleased ⟨call.ticket⟩))
            | .returns now =>
              if !fresh challenge.clock now then
                (⟨barrier.attempt, false⟩, [.clock, .ready, .commit, .ready, .clock],
                  .disposed (.neverReleased ⟨call.ticket⟩))
              else
                (⟨barrier.attempt, call.release matches .panics⟩,
                  [.clock, .ready, .commit, .ready, .clock, .release],
                  match call.release with
                  | .panics => .panicked
                  | .fails _ => .disposed .uncertain
                  | .returns _ => .disposed .released)

/-- The checks of `challenge_at` before it takes the lock. -/
def asksInvocation (request : Request) : Bool :=
  request.validate && request.command matches .authorizeInvocation ..

/-- One call, with the callbacks it ran and how it ended. -/
def Locked.call (locked : Locked) : BarrierCall → Locked × List Callback × Ending
  | .challenge _ (.error error) => (locked, [], .refused error)
  | .challenge request (.ok clock) =>
    if locked.poisoned && asksInvocation request then
      (locked, [], .refused (invalid "release barrier poisoned"))
    else match locked.barrier.challengeAt request clock with
    | .error error => (locked, [], .refused error)
    | .ok barrier => ({ locked with barrier }, [], .done)
  | .cancel =>
    if locked.poisoned then (locked, [], .refused (invalid "release barrier poisoned"))
    else (⟨locked.barrier.cancel, false⟩, [], .done)
  | .release call =>
    if locked.poisoned then (locked, [], .refused (invalid "release barrier poisoned"))
    else locked.barrier.releaseWithClock call

/-- Calls of a barrier with the callbacks they ran and how they ended, in order. -/
abbrev Calls := List (BarrierCall × List Callback × Ending)

/-- The calls of a barrier with their effects. -/
def Locked.run (locked : Locked) : List BarrierCall → Calls
  | [] => []
  | call :: rest => (call, (locked.call call).2) :: (locked.call call).1.run rest

/-- The first challenge that succeeded, with its clock. -/
def firstChallenge (past : Calls) : Option (Request × (Int × Nat)) :=
  past.findSome? fun
    | (.challenge request (.ok clock), _, .done) => some (request, clock)
    | _ => none

/-- `now` is not before `sent`, at most 250 ms later by either clock, and the clocks
agree on that time up to 50 ms. -/
def Recent (sent now : Int × Nat) : Prop :=
  (sent.1 ≤ now.1 ∧ now.1 ≤ sent.1 + 250) ∧ (sent.2 ≤ now.2 ∧ now.2 ≤ sent.2 + 250) ∧
    now.1 - sent.1 ≤ now.2 - sent.2 + 50 ∧ now.2 - sent.2 ≤ now.1 - sent.1 + 50

theorem recent_of_fresh (recent : fresh sent now = true) : Recent sent now := by
  simp only [fresh, Bool.and_eq_true, decide_eq_true_eq] at recent
  unfold Recent
  omega

/-- Why the operating system was asked for a release.  The last clock is read behind
the commit. -/
structure Justified (session : SessionIdentity) (configuration : String) (challenge : Challenge)
    (call : ReleaseCall) (log : List Callback) : Prop where
  log : log = [.clock, .ready, .commit, .ready, .clock, .release]
  committed : call.commit = .returns true
  session : call.ticket.session = session
  configuration : call.ticket.configurationSha256 = configuration
  intent : call.ticket.intent = challenge.intent
  key : call.ticket.key = challenge.key
  nonce : call.ticket.offerNonce = challenge.nonce
  recent : ∃ now, call.secondClock = .returns now ∧ Recent challenge.clock now

variable {barrier : ReleaseBarrier} {locked : Locked}

theorem releaseWithClock_eq (done : barrier.releaseWithClock call = (after, log, ending)) :
    (after.barrier = barrier ∨ after.barrier = barrier.attempt) ∧
      (∀ proof, ending = .disposed (.neverReleased proof) →
        call.commit = .returns true ∧ .commit ∈ log ∧ .release ∉ log) ∧
      (.release ∈ log → after.barrier = barrier.attempt ∧
        barrier.canceled = false ∧ barrier.attempted = false ∧
        ∃ challenge, barrier.challenge = some challenge ∧
          Justified barrier.session barrier.configuration challenge call log) := by
  revert done
  fun_cases releaseWithClock barrier call
  case case18 challenge present admitted _ _ _ _ committed _ now read recent =>
    intro done
    cases done
    simp only [admits, Bool.not_eq_true', Bool.not_eq_false, Bool.and_eq_true, decide_eq_true_eq]
      at admitted
    rcases admitted with
      ⟨⟨⟨⟨⟨⟨⟨uncanceled, unused⟩, _⟩, session⟩, configuration⟩, intent⟩, key⟩, nonce⟩
    refine ⟨.inr rfl, fun proof returned => ?_, fun _ => ⟨rfl, uncanceled, unused, challenge,
      present, ⟨rfl, committed, session.symm, configuration.symm, intent.symm, key.symm,
        nonce.symm, now, read, recent_of_fresh (by simpa using recent)⟩⟩⟩
    split at returned <;> cases returned
  all_goals
    intro done
    cases done
    simp_all [stale]

/-- The call whose callbacks answer as an input says, with the transaction of a
journal as its `commit`. -/
def callOf (input : BarrierInput) (ticket : InvocationTicket) (manager : Manager) :
    ReleaseCall where
  ticket
  generation := input.generation
  firstClock := .ofOption "clock unavailable" input.firstClock
  firstReady := .ofOption "readiness unavailable" input.firstReady
  commit := match (commit input ticket manager).2 with
    | .ok consumed => .returns consumed
    | .error error => .fails error
  secondReady := .ofOption "readiness unavailable" input.secondReady
  secondClock := .ofOption "clock unavailable" input.secondClock
  release := .ofOption "process was not resumed" (if input.resumed then some () else none)

theorem releaseWithClock_of_refused {input : BarrierInput}
    (refused : barrier.checks input ticket = .error error) :
    ∃ log, barrier.releaseWithClock (callOf input ticket manager) =
      (⟨barrier, false⟩, log, .refused error) ∧ .commit ∉ log := by
  simp only [checks, Fallible.bind_eq_error, Fallible.orError_eq_error, Fallible.require_eq_error,
    Fallible.ok_iff] at refused
  rcases refused with ⟨missing, rfl⟩ | ⟨challenge, present, ⟨unfit, rfl⟩ | ⟨_, fits, refused⟩⟩
  · exact ⟨[], by simp [releaseWithClock, missing], by simp⟩
  · change barrier.admits challenge input.generation ticket = false at unfit
    exact ⟨[], by simp [releaseWithClock, present, callOf, unfit, stale], by simp⟩
  · change barrier.admits challenge input.generation ticket = true at fits
    rcases refused with ⟨unread, rfl⟩ | ⟨now, read, ⟨old, rfl⟩ | ⟨_, recent, refused⟩⟩
    · exact ⟨[.clock], by simp [releaseWithClock, present, callOf, fits, unread, Answer.ofOption],
        by simp⟩
    · exact ⟨[.clock], by
        simp [releaseWithClock, present, callOf, fits, read, old, Answer.ofOption, stale], by simp⟩
    · refine ⟨[.clock, .ready], ?_, by simp⟩
      rcases refused with ⟨unasked, rfl⟩ | ⟨ready, asked, ⟨rfl, rfl⟩ | ⟨_, _, impossible⟩⟩
      · simp [releaseWithClock, present, callOf, fits, read, recent, unasked, Answer.ofOption]
      · simp [releaseWithClock, present, callOf, fits, read, recent, asked, Answer.ofOption, stale]
      · cases impossible

theorem checks_eq_ok {input : BarrierInput} (checked : barrier.checks input ticket = .ok sent) :
    ∃ challenge now, barrier.challenge = some challenge ∧ challenge.clock = sent ∧
      barrier.admits challenge input.generation ticket = true ∧ input.firstClock = some now ∧
      fresh sent now = true ∧ input.firstReady = some true := by
  simp only [checks, Fallible.ok_iff] at checked
  obtain ⟨challenge, present, _, fits, now, read, _, recent, ready, asked, _, rfl, rfl⟩ := checked
  exact ⟨challenge, now, present, rfl, fits, read, recent, asked⟩

/-- `release` is `release_with_clock` for such a call; the journal changes if the
call came to its `commit`. -/
theorem releaseWithClock_of_release {input : BarrierInput}
    (done : barrier.release input ticket manager = (after, next, result)) :
    ∃ log, barrier.releaseWithClock (callOf input ticket manager) =
        (⟨after, false⟩, log, .of result) ∧
      next = if .commit ∈ log then (commit input ticket manager).1 else manager := by
  unfold release at done
  split at done
  · next error refused =>
    cases done
    obtain ⟨log, computed, uncommitted⟩ := releaseWithClock_of_refused refused
    exact ⟨log, computed, (if_neg uncommitted).symm⟩
  · next sent checked =>
    obtain ⟨challenge, now, present, rfl, fits, read, recent, ready⟩ := checks_eq_ok checked
    simp only [releaseWithClock, present, callOf, fits, read, recent, ready, Answer.ofOption]
    rcases transaction : commit input ticket manager with ⟨spent, error | consumed⟩
    · simp only [transaction] at done
      cases done
      exact ⟨_, rfl, rfl⟩
    · cases consumed with
      | false =>
        simp only [transaction] at done
        cases done
        exact ⟨_, rfl, rfl⟩
      | true =>
        simp only [transaction] at done
        -- Without a second answer, or with an old clock, the proof is returned.
        rcases second : input.secondReady with _ | _ | _
        · simp only [second] at done
          cases done
          exact ⟨_, rfl, rfl⟩
        · simp only [second] at done
          cases done
          exact ⟨_, rfl, rfl⟩
        · rcases again : input.secondClock with _ | later
          · simp only [second, again] at done
            cases done
            exact ⟨_, rfl, rfl⟩
          · cases still : fresh challenge.clock later with
            | false =>
              simp only [second, again, Option.any, still] at done
              cases done
              exact ⟨[.clock, .ready, .commit, .ready, .clock],
                by simp [still, attempt, Ending.of], rfl⟩
            | true =>
              simp only [second, again, Option.any, still] at done
              cases done
              refine ⟨[.clock, .ready, .commit, .ready, .clock, .release], ?_, rfl⟩
              cases input.resumed <;> simp [still, attempt, Ending.of]

/-- A challenge that succeeds is kept, or is the one that was kept already. -/
theorem challengeAt_eq_ok (done : barrier.challengeAt request clock = .ok after) :
    (∃ old, barrier.challenge = some old ∧ after = barrier) ∨
      ∃ key nonce intent, barrier.challenge = none ∧ request.session = barrier.session ∧
        request.command = .authorizeInvocation key nonce intent ∧
        after = { barrier with
          challenge := some ⟨request.operationId, intent, key, nonce, clock⟩ } := by
  rcases Fallible.bind_eq_ok.mp done with ⟨_, _, done⟩
  split at done
  · next key nonce intent command =>
    rcases Fallible.bind_eq_ok.mp done with ⟨_, allowed, done⟩
    cases present : barrier.challenge with
    | some old =>
      simp only [present] at done
      rcases Fallible.bind_eq_ok.mp done with ⟨_, _, done⟩
      cases done
      exact .inl ⟨old, rfl, rfl⟩
    | none =>
      simp only [present] at done
      cases done
      simp only [Fallible.require_eq_ok, Bool.and_eq_true, decide_eq_true_eq] at allowed
      exact .inr ⟨key, nonce, intent, rfl, allowed.1.1, command, rfl⟩
  · cases done

/-! ## What a barrier keeps of its calls -/

/-- A barrier that lets no release through any more. -/
def Locked.closed (locked : Locked) : Bool :=
  locked.poisoned || locked.barrier.canceled || locked.barrier.attempted

theorem firstChallenge_append (past rest : Calls) :
    firstChallenge (past ++ rest) = (firstChallenge past).or (firstChallenge rest) :=
  List.findSome?_append

/-- The state of a barrier after some calls. -/
structure Remembers (session : SessionIdentity) (configuration : String)
    (past : Calls) (locked : Locked) : Prop where
  session : locked.barrier.session = session
  configuration : locked.barrier.configuration = configuration
  closed : ∀ earlier ∈ past, .release ∈ earlier.2.1 ∨ earlier.1 = .cancel → locked.closed = true
  unasked : locked.barrier.challenge = none → firstChallenge past = none
  first : ∀ challenge, locked.barrier.challenge = some challenge → ∃ request,
    firstChallenge past = some (request, challenge.clock) ∧
      request.session = locked.barrier.session ∧
      request.command = .authorizeInvocation challenge.key challenge.nonce challenge.intent

section Remembers

variable {session : SessionIdentity} {configuration : String} {past : Calls}
  {entry : BarrierCall × List Callback × Ending} {after : Locked}

theorem Remembers.start (session : SessionIdentity) (generation : Uuid) (configuration : String) :
    Remembers session configuration [] (.new session generation configuration) :=
  ⟨rfl, rfl, by simp, fun _ => rfl, by simp [Locked.new]⟩

section Memory

variable (remembers : Remembers session configuration past locked)

include remembers

theorem Remembers.closed_append
    (closes : locked.closed = true ∨ .release ∈ entry.2.1 ∨ entry.1 = .cancel →
      after.closed = true) :
    ∀ earlier ∈ past ++ [entry], .release ∈ earlier.2.1 ∨ earlier.1 = .cancel →
      after.closed = true := by
  intro earlier member ended
  rcases List.mem_append.mp member with old | new
  · exact closes (.inl (remembers.closed earlier old ended))
  · cases List.mem_singleton.mp new
    exact closes (.inr ended)

/-- A call that leaves the challenge as it is. -/
theorem Remembers.keep (same : after.barrier.session = locked.barrier.session ∧
      after.barrier.configuration = locked.barrier.configuration ∧
      after.barrier.challenge = locked.barrier.challenge)
    (closes : locked.closed = true ∨ .release ∈ entry.2.1 ∨ entry.1 = .cancel →
      after.closed = true)
    (quiet : locked.barrier.challenge = none → firstChallenge [entry] = none) :
    Remembers session configuration (past ++ [entry]) after where
  session := same.1.trans remembers.session
  configuration := same.2.1.trans remembers.configuration
  closed := remembers.closed_append closes
  unasked none := by
    rw [same.2.2] at none
    rw [firstChallenge_append, remembers.unasked none, quiet none, Option.or]
  first kept present := by
    rw [same.2.2] at present
    rcases remembers.first kept present with ⟨request, found, asked⟩
    exact ⟨request, by rw [firstChallenge_append, found, Option.or], by rwa [same.1]⟩

theorem Remembers.call (call : BarrierCall) :
    Remembers session configuration (past ++ [(call, (locked.call call).2)])
      (locked.call call).1 := by
  have refused (error : JournalError) (uncanceled : call ≠ .cancel) :
      Remembers session configuration (past ++ [(call, [], .refused error)]) locked :=
    remembers.keep ⟨rfl, rfl, rfl⟩ (by simp [uncanceled]) (by simp [firstChallenge])
  fun_cases Locked.call locked call
  case case1 | case2 | case3 | case7 => exact refused _ nofun
  case case4 request clock _ after done =>
    rcases challengeAt_eq_ok done with ⟨old, present, rfl⟩ |
      ⟨key, nonce, intent, absent, own, command, rfl⟩
    · exact remembers.keep ⟨rfl, rfl, rfl⟩ (by simp) (by simp [present])
    · refine ⟨remembers.session, remembers.configuration,
        remembers.closed_append (by simp [Locked.closed]),
        nofun, fun kept present => ⟨request, ?_, own, ?_⟩⟩
      · cases present
        rw [firstChallenge_append, remembers.unasked absent]
        rfl
      · cases present
        exact command
  case case5 poisoned =>
    exact remembers.keep ⟨rfl, rfl, rfl⟩ (fun _ => by simp [Locked.closed, poisoned])
      (by simp [firstChallenge])
  case case6 =>
    exact remembers.keep ⟨rfl, rfl, rfl⟩ (fun _ => by simp [Locked.closed, cancel])
      (by simp [firstChallenge])
  case case8 call sound =>
    rcases done : locked.barrier.releaseWithClock call with ⟨after, log, ending⟩
    rcases releaseWithClock_eq done with ⟨same | used, _, asked⟩
    · refine remembers.keep (by simp [same]) ?_ (by simp [firstChallenge])
      rintro (closed | ran | canceled)
      · have closed : (locked.barrier.canceled || locked.barrier.attempted) = true := by
          simpa [Locked.closed, sound] using closed
        rw [Locked.closed, same, Bool.or_assoc, closed, Bool.or_true]
      · simp [Locked.closed, (asked ran).1, attempt]
      · cases canceled
    · exact remembers.keep (by simp [used, attempt])
        (fun _ => by simp [Locked.closed, used, attempt]) (by simp [firstChallenge])

/-- A call that asks for a release comes after no other one and no cancellation. -/
theorem Remembers.justified {call : BarrierCall} (ran : .release ∈ (locked.call call).2.1) :
    (∀ earlier ∈ past, .release ∉ earlier.2.1 ∧ earlier.1 ≠ .cancel) ∧
      ∃ release challenge, call = .release release ∧ locked.barrier.challenge = some challenge ∧
        Justified session configuration challenge release (locked.call call).2.1 := by
  revert ran
  fun_cases Locked.call locked call
  case case8 release sound =>
    rcases done : locked.barrier.releaseWithClock release with ⟨after, log, ending⟩
    intro ran
    rcases (releaseWithClock_eq done).2.2 ran with
      ⟨_, uncanceled, unused, challenge, present, justified⟩
    rw [remembers.session, remembers.configuration] at justified
    refine ⟨fun earlier member => ?_, release, challenge, rfl, present, justified⟩
    rw [← not_or]
    intro ended
    have closed := remembers.closed earlier member ended
    simp [Locked.closed, sound, uncanceled, unused] at closed
  all_goals exact fun ran => nomatch ran

/-- Every call of a run meets a barrier that remembers the calls before. -/
theorem Remembers.of_run (calls : List BarrierCall)
    (happened : locked.run calls = between ++ entry :: rest) :
    ∃ met, Remembers session configuration (past ++ between) met ∧
      entry.2 = (met.call entry.1).2 := by
  induction calls generalizing past locked between with
  | nil => simp [Locked.run] at happened
  | cons call calls ih =>
    cases between with
    | nil =>
      cases happened
      exact ⟨locked, by rwa [List.append_nil], rfl⟩
    | cons first between =>
      simp only [Locked.run, List.cons_append, List.cons.injEq] at happened
      rcases happened with ⟨rfl, happened⟩
      rw [List.append_cons]
      exact ih (remembers.call call) happened

end Memory

/-- What a barrier does in any sequence of calls.  A call that asked the operating
system for a release comes after no other such call and no cancellation, and is for
the ticket of the first challenge.  A process is reported as never released only after
a commit without a release. -/
theorem run_releases_once (generation : Uuid) (calls : List BarrierCall) {past after : Calls}
    {call : BarrierCall} {log : List Callback} {ending : Ending}
    (happened : (Locked.new session generation configuration).run calls =
      past ++ (call, log, ending) :: after) :
    (.release ∈ log →
      (∀ earlier ∈ past, .release ∉ earlier.2.1 ∧ earlier.1 ≠ .cancel) ∧
        ∃ release challenge request, call = .release release ∧
          Justified session configuration challenge release log ∧
          firstChallenge past = some (request, challenge.clock) ∧ request.session = session ∧
          request.command =
            .authorizeInvocation challenge.key challenge.nonce challenge.intent) ∧
      ∀ proof, ending = .disposed (.neverReleased proof) →
        .commit ∈ log ∧ .release ∉ log ∧
          ∃ release, call = .release release ∧ release.commit = .returns true := by
  rcases (Remembers.start session generation configuration).of_run calls happened with
    ⟨met, remembers, result⟩
  have ran : log = (met.call call).2.1 ∧ ending = (met.call call).2.2 := Prod.ext_iff.mp result
  rcases ran with ⟨rfl, rfl⟩
  refine ⟨fun ran => ?_, fun proof returned => ?_⟩
  · rcases remembers.justified ran with ⟨before, release, challenge, rfl, present, justified⟩
    rcases remembers.first challenge present with ⟨request, found, own, command⟩
    exact ⟨before, release, challenge, request, rfl, justified, found,
      own.trans remembers.session, command⟩
  · revert returned
    fun_cases Locked.call met call
    case case8 release _ =>
      rcases done : met.barrier.releaseWithClock release with ⟨after, log, ending⟩
      intro returned
      rcases (releaseWithClock_eq done).2.1 proof returned with
        ⟨committed, logged, withheld⟩
      exact ⟨logged, withheld, release, rfl, committed⟩
    all_goals exact nofun

end Remembers

/-- The start of the demo ticket, with callbacks that all agree after 100 ms. -/
def demoRelease : ReleaseCall :=
  ⟨demoTicket, 9, .returns (1050, 1050), .returns true, .returns true, .returns true,
    .returns (1100, 1100), .returns ()⟩

def demoChallenge : BarrierCall :=
  .challenge ⟨soloSession, 1, 35, .authorizeInvocation demoKey 51 demoIntent⟩ (.ok (1000, 1000))

theorem demoTicket_released_once : ∃ log ending challenge,
    (Locked.new soloSession 9 demoDigest).run [demoChallenge, .release demoRelease] =
      [(demoChallenge, [], .done)] ++ (.release demoRelease, log, ending) :: [] ∧
    Justified soloSession demoDigest challenge demoRelease log := by
  have happened : (Locked.new soloSession 9 demoDigest).run [demoChallenge, .release demoRelease] =
    [(demoChallenge, [], .done)] ++ (.release demoRelease,
      [.clock, .ready, .commit, .ready, .clock, .release], .disposed .released) :: [] := rfl
  rcases (run_releases_once 9 _ happened).1 (by decide) with
    ⟨_, _, challenge, _, same, justified, _⟩
  cases same
  exact ⟨_, _, challenge, happened, justified⟩

end Stillyard.ReleaseBarrier
