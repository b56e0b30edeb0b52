import Stillyard.Manager.Steps

/-!
# Start rights, tickets and cleanup proofs of a manager

What a step does to the start rights that a manager knows, to its tickets, and
to the proofs that they are cleaned up.  A start right becomes known from a
reply, a ticket row is added by a reply and never taken away, and a seal is made
of the proofs that are recorded when it is made.
-/

namespace Stillyard

open Relational Fallible

namespace Manager

variable {key : AllocationKey} {row : LocalGrant} {sequence : Nat} {request : Request}
  {ticket : InvocationTicket} {grant : GrantSnapshot} {release : SealedRelease}

/-- A start right in a local Grant or in the inventory. -/
def Lists (manager : Manager) (intent : InvocationIntent) : Prop :=
  (∃ key row, manager.grants.get? key = some row ∧ intent ∈ row.grant.tickets) ∨
    ∃ key grant, manager.inventory.get? key = some grant ∧ intent ∈ grant.tickets

/-- A start right in an answer. -/
def Brings (outcome : Outcome) (intent : InvocationIntent) : Prop :=
  (∃ grant ∈ outcome.shows, intent ∈ grant.tickets) ∨
    ∃ ticket, outcome = .ticket ticket ∧ ticket.intent = intent

/-- Every proof of the release is recorded: with its ticket, or as a recovered
cleanup. -/
def Proven (manager : Manager) (release : SealedRelease) : Prop :=
  ∀ cleanup ∈ release.tickets,
    (∃ row, manager.tickets.get? cleanup.invocationId = some row ∧ row.cleanup = some cleanup) ∨
      manager.recoveredCleanup.get? cleanup.invocationId = some cleanup

/-- The step applies this reply. -/
structure Hears (replied : Request → Reply → Prop) (manager next : Manager) (request : Request)
    (reply : Reply) : Prop where
  heard : replied request reply
  session : manager.session = some request.session
  sequence : manager.applied < request.requestSequence
  applied : next.applied = request.requestSequence

/-- What a step that consumes nothing and records no cleanup keeps. -/
structure Keeps (replied : Request → Reply → Prop) (manager next : Manager) : Prop where
  applied : manager.applied ≤ next.applied
  lists : ∀ intent, next.Lists intent → manager.Lists intent ∨
    ∃ request reply, Hears replied manager next request reply ∧ Brings reply.outcome intent
  tickets : ∀ invocation,
    next.tickets.get? invocation = manager.tickets.get? invocation ∨
      manager.tickets.get? invocation = none ∧ ∃ request reply ticket,
        Hears replied manager next request reply ∧ reply.outcome = .ticket ticket ∧
          ticket.intent.invocationId = invocation ∧
          next.tickets.get? invocation = some ⟨ticket.key, ticket, false, none⟩
  recovered : next.recoveredCleanup = manager.recoveredCleanup
  seals : ∀ key release, sealAt next.grants key = some release →
    sealAt manager.grants key = some release ∨ manager.Proven release

/-- Proofs are under the Invocation they name. -/
structure CleanupNamed (manager : Manager) : Prop where
  tickets : ∀ invocation row cleanup, manager.tickets.get? invocation = some row →
    row.cleanup = some cleanup → cleanup.invocationId = invocation
  recovered : ∀ invocation cleanup,
    manager.recoveredCleanup.get? invocation = some cleanup → cleanup.invocationId = invocation

section Keeps

variable {encoding : Encoding} {replied : Request → Reply → Prop}
  {manager middle next : Manager}
variable {grants : Table AllocationKey LocalGrant} {outcome : Outcome}

/-- A step that applies no reply. -/
theorem Keeps.quiet (applied : next.applied = manager.applied)
    (lists : ∀ intent, next.Lists intent → manager.Lists intent)
    (tickets : next.tickets = manager.tickets)
    (recovered : next.recoveredCleanup = manager.recoveredCleanup)
    (seals : ∀ key release, sealAt next.grants key = some release →
      sealAt manager.grants key = some release ∨ manager.Proven release) :
    Keeps replied manager next where
  applied := Nat.le_of_eq applied.symm
  lists intent listed := .inl (lists intent listed)
  tickets invocation := .inl (by rw [tickets])
  recovered := recovered
  seals := seals

theorem Keeps.refl (manager : Manager) : Keeps replied manager manager :=
  .quiet rfl (fun _ listed => listed) rfl rfl fun _ _ sealed => .inl sealed

theorem Keeps.mono (keeps : Keeps (fun _ _ => False) manager next) :
    Keeps replied manager next where
  applied := keeps.applied
  lists intent listed := by
    rcases keeps.lists intent listed with before | ⟨_, _, hears, _⟩
    · exact .inl before
    · exact hears.heard.elim
  tickets invocation := by
    rcases keeps.tickets invocation with same | ⟨_, _, _, _, hears, _⟩
    · exact .inl same
    · exact hears.heard.elim
  recovered := keeps.recovered
  seals := keeps.seals

theorem Keeps.trans (earlier : Keeps (fun _ _ => False) manager middle)
    (later : Keeps (fun _ _ => False) middle next) : Keeps (fun _ _ => False) manager next := by
  have first : ∀ invocation,
      middle.tickets.get? invocation = manager.tickets.get? invocation := by
    intro invocation
    rcases earlier.tickets invocation with same | ⟨_, _, _, _, hears, _⟩
    · exact same
    · exact hears.heard.elim
  refine ⟨earlier.applied.trans later.applied, ?_, ?_, later.recovered.trans earlier.recovered, ?_⟩
  · intro intent listed
    rcases later.lists intent listed with before | ⟨_, _, hears, _⟩
    · rcases earlier.lists intent before with known | ⟨_, _, hears, _⟩
      · exact .inl known
      · exact hears.heard.elim
    · exact hears.heard.elim
  · intro invocation
    rcases later.tickets invocation with same | ⟨_, _, _, _, hears, _⟩
    · exact .inl (same.trans (first invocation))
    · exact hears.heard.elim
  · intro key release sealed
    rcases later.seals key release sealed with before | proven
    · exact earlier.seals key release before
    · apply Or.inr
      intro cleanup member
      rw [← first, ← earlier.recovered]
      exact proven cleanup member

/-- Setting a row with known start rights and the same seal. -/
theorem lists_set (known : InvocationIntent → Prop)
    (before : ∀ other found intent, grants.get? other = some found →
      intent ∈ found.grant.tickets → known intent)
    (own : ∀ intent ∈ row.grant.tickets, known intent) :
    ∀ other found intent, (grants.set key row).get? other = some found →
      intent ∈ found.grant.tickets → known intent := by
  intro other found intent lookup listed
  obtain ⟨_, rfl⟩ | ⟨_, lookup⟩ := Table.get?_set_eq_some.mp lookup
  · exact own intent listed
  · exact before other found intent lookup listed

theorem enqueue_keeps (done : manager.enqueue encoding operation command = .ok (next, sequence)) :
    Keeps (fun _ _ => False) manager next := by
  rcases enqueue_eq_ok done with ⟨rfl, _⟩ | enqueued
  · exact .refl _
  · have kept := enqueue_seals done
    rcases enqueued.shape with ⟨grants, locally, rfl⟩
    rcases reportLocally_eq_ok locally with ⟨_, same, changed⟩
    cases same
    refine .quiet rfl ?_ rfl rfl fun key release sealed => .inl ((kept key).symm.trans sealed)
    rintro intent (⟨key, row, found, listed⟩ | inventory)
    · rcases changed with rfl | ⟨named, _, _, old, _, foundOld, _, _, _, rfl⟩
      · exact .inl ⟨key, row, found, listed⟩
      · refine lists_set manager.Lists ?_ ?_ key row intent found listed
        · exact fun other known intent lookup member => .inl ⟨other, known, lookup, member⟩
        · exact fun intent member => .inl ⟨named, old, foundOld, member⟩
    · exact .inr inventory

theorem enqueueAll_keeps (done : manager.enqueueAll encoding operations = .ok next) :
    Keeps (fun _ _ => False) manager next := by
  refine foldlM_invariant (fun state => Keeps (fun _ _ => False) manager state) ?_
    (.refl _) done
  intro state operation queued _ held round
  rcases map_eq_ok.mp round with ⟨result, enqueued, rfl⟩
  exact held.trans (enqueue_keeps enqueued)

/-- The start rights of the local Grants after a reply. -/
theorem Written.lists (written : Written manager request outcome grants) :
    ∀ key row intent, grants.get? key = some row → intent ∈ row.grant.tickets →
      manager.Lists intent ∨ Brings outcome intent := by
  have before : ∀ {outcome : Outcome} key row intent, manager.grants.get? key = some row →
      intent ∈ row.grant.tickets → manager.Lists intent ∨ Brings outcome intent :=
    fun key row _ found listed => .inl (.inl ⟨key, row, found, listed⟩)
  induction written with
  | same => exact before
  | @granted grant owns =>
    exact lists_set _ before fun intent listed =>
      .inr (.inl ⟨grant, List.mem_singleton_self _, listed⟩)
  | @noted ticket row found =>
    refine lists_set _ before ?_
    intro intent listed
    rw [withIntent] at listed
    split at listed
    · exact before _ row intent found listed
    · obtain old | new := List.mem_append.mp listed
      · exact before _ row intent found old
      · exact .inr (.inr ⟨ticket, rfl, (List.mem_singleton.mp new).symm⟩)
  | @released release _ row _ _ found _ =>
    exact lists_set _ before fun intent listed => before _ row intent found listed
  | @imported _ _ _ key grant _ shown _ ih =>
    refine lists_set _ ih ?_
    intro intent listed
    have own : intent ∈ grant.tickets := by
      unfold importedGrant at listed
      split at listed
      · split at listed <;> exact listed
      · exact listed
    obtain old | staged := shown
    · exact .inl (.inr ⟨key, grant, old, own⟩)
    · exact .inr (.inl ⟨grant, staged.listed, own⟩)
  | omitted _ member _ _ ih =>
    refine lists_set _ ih ?_
    intro intent listed
    obtain ⟨key, origin, found, rfl⟩ := mem_localGrants.mp member
    exact before key origin intent found listed
  | @settled _ _ _ key row _ _ _ found _ ih =>
    exact lists_set _ ih fun intent listed => ih key row intent found listed

theorem Accepted.lists (accepted : Accepted request outcome manager next)
    (listed : next.Lists intent) : manager.Lists intent ∨ Brings outcome intent := by
  obtain ⟨key, row, found, listed⟩ | ⟨key, grant, found, listed⟩ := listed
  · exact accepted.written.lists key row intent found listed
  · obtain old | ⟨grants, cursor, configuration, rfl, staged⟩ := accepted.inventory key grant found
    · exact .inl (.inr ⟨key, grant, old, listed⟩)
    · exact .inr (.inl ⟨grant, staged.listed, listed⟩)

theorem accept_keeps {applied : Bool} (isLocal : Local domain manager)
    (heard : replied request reply)
    (done : manager.accept encoding request reply = .ok (next, applied)) :
    Keeps replied manager next := by
  rcases accept_eq_ok done with ⟨_, rfl⟩ | ⟨_, applies⟩
  · exact .refl _
  · rcases applies.applied with ⟨middle, accepted, rfl⟩
    have takes := acceptOutcome_eq_ok accepted
    have kept := takes.written.kept isLocal (isLocal.session _ applies.session)
    have hears : Hears replied manager (middle.recordAnswer request.requestSequence reply.outcome)
        request reply :=
      ⟨heard, applies.session, by rw [applies.sequence]; exact Nat.lt_succ_self _, rfl⟩
    refine ⟨?_, ?_, ?_, ?_, ?_⟩
    · rw [hears.applied]
      exact Nat.le_of_lt hears.sequence
    · intro intent listed
      exact (takes.lists (by exact listed)).imp_right fun brings => ⟨request, reply, hears, brings⟩
    · intro invocation
      rcases takes.tickets with same | ⟨ticket, _, brought, _, _, absent, set⟩
      · exact .inl (congrArg (fun tickets => tickets.get? invocation) same)
      · change middle.tickets.get? invocation = _ ∨ _
        by_cases own : invocation = ticket.intent.invocationId
        · subst own
          refine .inr ⟨absent, request, reply, ticket, hears, brought, rfl, ?_⟩
          change middle.tickets.get? _ = _
          rw [set, Table.get?_set, if_pos rfl]
        · rw [set, Table.get?_set, if_neg own]
          exact .inl rfl
    · change middle.recoveredCleanup = _
      rw [takes.shape]
    · intro key release sealed
      exact .inl ((kept.seals key).symm.trans sealed)

/-- Proofs come from the tickets and the recovered cleanups. -/
theorem collectProofs_eq_ok (named : CleanupNamed manager)
    (done : manager.collectProofs key grant = .ok proofs) :
    ∀ cleanup ∈ proofs,
      (∃ row, manager.tickets.get? cleanup.invocationId = some row ∧
        row.cleanup = some cleanup) ∨
      manager.recoveredCleanup.get? cleanup.invocationId = some cleanup := by
  simp only [collectProofs, bind_eq_ok] at done
  rcases done with ⟨received, collected, folded⟩
  refine foldlM_invariant
    (fun proofs : List TicketCleanup => ∀ cleanup ∈ proofs,
      (∃ row, manager.tickets.get? cleanup.invocationId = some row ∧
        row.cleanup = some cleanup) ∨
      manager.recoveredCleanup.get? cleanup.invocationId = some cleanup) ?_ ?_ folded
  · intro state intent more _ held round
    split at round
    · cases round
      exact held
    · rcases map_eq_ok.mp round with ⟨proof, found, rfl⟩
      rw [orError_eq_ok] at found
      intro cleanup member
      rcases List.mem_append.mp member with before | last
      · exact held cleanup before
      · rw [List.mem_singleton.mp last, named.recovered _ _ found]
        exact .inr found
  · intro cleanup member
    rcases mem_of_mapM collected cleanup member with ⟨row, listed, proven⟩
    rw [orError_eq_ok] at proven
    rw [List.mem_insertionSort, List.mem_filter, Table.mem_rows] at listed
    rw [named.tickets _ _ _ listed.1 proven]
    exact .inl ⟨row.2, listed.1, proven⟩

theorem withSeal_keeps (found : manager.grants.get? key = some row)
    (proven : manager.Proven release) :
    Keeps (fun _ _ => False) manager (manager.withSeal row release) := by
  refine .quiet rfl ?_ rfl rfl ?_
  · rintro intent (⟨other, known, lookup, listed⟩ | inventory)
    · refine lists_set manager.Lists ?_ ?_ other known intent lookup listed
      · exact fun other known intent lookup member => .inl ⟨other, known, lookup, member⟩
      · exact fun intent member => .inl ⟨key, row, found, member⟩
    · exact .inr inventory
  · intro other sealed lookup
    rw [withSeal, sealAt, Table.get?_set] at lookup
    split at lookup
    · cases lookup
      exact .inr proven
    · exact .inl lookup

theorem sendSeal_keeps (done : manager.sendSeal encoding operation release = .ok (next, sequence)) :
    Keeps (fun _ _ => False) manager next := by
  unfold sendSeal at done
  split at done
  · cases done
    exact .refl _
  · exact enqueue_keeps done

theorem sealRelease_keeps (named : CleanupNamed manager)
    (done : manager.sealRelease encoding key operation = .ok (next, sequence)) :
    Keeps (fun _ _ => False) manager next := by
  rcases sealRelease_eq_ok done with ⟨_, _, row, release, found, sent⟩
  rcases sent with ⟨_, sent⟩ | ⟨_, proofs, collected, rfl, sent⟩
  · exact sendSeal_keeps sent
  · exact (withSeal_keeps found (collectProofs_eq_ok named collected)).trans
      (sendSeal_keeps sent)

theorem connect_keeps {session : SessionIdentity}
    (done : manager.connect encoding session participant = .ok next) :
    Keeps replied manager next := by
  have connected := connect_eq_ok done
  rw [connected.shape]
  refine ⟨connected.applied, ?_, fun _ => .inl rfl, rfl, fun _ _ sealed => .inl sealed⟩
  rintro intent (own | ⟨_, _, none, _⟩)
  · exact .inl (.inl own)
  · cases none

/-- A manager that sealed an allocation has its seal. -/
theorem sealRelease_seals
    (done : manager.sealRelease encoding key operation = .ok (next, sequence)) :
    ∃ release, sealAt next.grants key = some release := by
  have sent : ∀ {sealing : Manager} {release : SealedRelease},
      sealAt sealing.grants key = some release →
      sealing.sendSeal encoding operation release = .ok (next, sequence) →
      ∃ release, sealAt next.grants key = some release := by
    intro sealing release sealed sends
    unfold sendSeal at sends
    split at sends
    · cases sends
      exact ⟨release, sealed⟩
    · exact ⟨release, (enqueue_seals sends key).trans sealed⟩
  rcases sealRelease_eq_ok done with ⟨_, _, row, release, found, again | fresh⟩
  · refine sent ?_ again.2
    rw [sealAt, found]
    exact again.1
  · rcases fresh with ⟨_, proofs, _, rfl, sends⟩
    refine sent ?_ sends
    rw [withSeal, sealAt, Table.get?_set, if_pos rfl]
    rfl

end Keeps

/-! ## Steps that neither consume nor clean up -/

section Work

variable {encoding : Encoding} {replied : Request → Reply → Prop} {manager next : Manager}

theorem Work.keeps (isLocal : Local domain manager) (work : Work encoding replied manager next) :
    Keeps replied manager next := by
  cases work with
  | enqueue _ done | page _ _ done => exact (enqueue_keeps done).mono
  | reconcile _ done => exact (enqueueAll_keeps done).mono
  | accept heard done => exact accept_keeps isLocal heard done
  | acknowledgeAbandoned done =>
    simp only [Manager.acknowledgeAbandoned, ok_iff] at done
    rcases done with ⟨_, _, _, _, rfl⟩
    exact .quiet rfl (fun _ listed => listed) rfl rfl fun _ _ sealed => .inl sealed

end Work

section Cleanup

variable {manager next : Manager} {cleanup : TicketCleanup}

/-- What recording a cleanup does: the proof goes to the ticket, or, where the
ticket never arrived, to the recovered cleanups. -/
inductive Cleans (cleanup : TicketCleanup) (manager : Manager) : Manager → Prop where
  | ticket {row : LocalTicket} (found : manager.tickets.get? cleanup.invocationId = some row)
      (same : cleanup.userCodeReleased = row.consumed)
      (once : ∀ old, row.cleanup = some old → old = cleanup) :
      Cleans cleanup manager { manager with
        tickets := manager.tickets.set cleanup.invocationId { row with cleanup := some cleanup } }
  | recovered (absent : manager.tickets.get? cleanup.invocationId = none)
      (listed : manager.Lists intent) (named : intent.invocationId = cleanup.invocationId)
      (unused : cleanup.userCodeReleased = false)
      (once : ∀ old, manager.recoveredCleanup.get? cleanup.invocationId = some old →
        old = cleanup) :
      Cleans cleanup manager { manager with
        recoveredCleanup := manager.recoveredCleanup.set cleanup.invocationId cleanup }

theorem recordCleanup_eq_ok (done : manager.recordCleanup cleanup = .ok next) :
    Cleans cleanup manager next := by
  unfold recordCleanup at done
  split at done
  · next absent =>
    simp only [recordRecoveredCleanup, ok_iff, Bool.and_eq_true, Bool.not_eq_true',
      Option.all_eq_true, decide_eq_true_eq] at done
    rcases done with ⟨intent, found, _, ⟨unused, _⟩, _, once, rfl⟩
    have named := List.find?_some found
    rw [decide_eq_true_eq] at named
    rcases List.mem_flatMap.mp (List.mem_of_find?_eq_some found) with ⟨row, stored, listed⟩
    rcases Table.mem_values.mp stored with ⟨key, lookup⟩
    exact .recovered absent (.inl ⟨key, row, lookup, listed⟩) named unused once
  · next row found =>
    simp only [ok_iff, test_iff, Option.all_eq_true] at done
    rcases done with ⟨_, ⟨⟨_, same⟩, once⟩, rfl⟩
    exact .ticket found same once

theorem recordUnusedCleanup_eq_ok (done : manager.recordUnusedCleanup ticket cleanup = .ok next) :
    ∃ row, manager.tickets.get? cleanup.invocationId = some row ∧ row.ticket = ticket ∧
      row.consumed = true ∧ cleanup.invocationId = ticket.intent.invocationId ∧
      (∀ old, row.cleanup = some old → old = cleanup) ∧
      next = { manager with
        tickets := manager.tickets.set cleanup.invocationId
          { row with cleanup := some cleanup } } := by
  simp only [recordUnusedCleanup, ok_iff, test_iff,
    Option.all_eq_true] at done
  rcases done with ⟨row, found, _, ⟨⟨⟨⟨⟨same, consumed⟩, _⟩, named⟩, _⟩, once⟩, rfl⟩
  exact ⟨row, found, same, consumed, named, once, rfl⟩

end Cleanup

end Manager

end Stillyard
