import Stillyard.Manager.Barrier
import Stillyard.Manager.Cleanup
import Stillyard.Store.Starts
import Stillyard.System.Watermarks

/-!
# A start ticket is consumed once

Managers with the processes that use their tickets.  The log of a host records
what no table keeps for good: which calls consumed a ticket, which recorded a
cleanup, which sealed an allocation, and for which tickets the release barrier
said that their process never ran.  A call counts when its transaction commits;
a transaction that rolls back leaves nothing, and a process that stops loses the
results it holds in memory and no row.

An Invocation is authorized by one operation, and replies are applied in the
order of their operations.  So a ticket cannot arrive after its start right was
seen and cleaned up without it.
-/

namespace Stillyard

open Relational Fallible

variable {history : List (Request × Outcome)} {domain : ExecutionDomainId} {applied : Nat}
  {invocation : EntityId} {row : LocalTicket} {ticket : InvocationTicket} {cleanup : TicketCleanup}
  {encoding : Encoding}

/-- What a manager did that later calls must respect. -/
inductive Occurrence where
  | consumed (ticket : InvocationTicket)
  | cleaned (invocation : EntityId)
  | sealed (key : AllocationKey)
  | withheld (ticket : InvocationTicket)
  deriving DecidableEq

/-- The Invocation whose ticket was consumed. -/
def Occurrence.consumedInvocation : Occurrence → Option EntityId
  | .consumed ticket => some ticket.intent.invocationId
  | _ => none

/-- The results of release barriers that a process holds in memory, and what its
manager did so far, latest first. -/
structure Host where
  held : List NeverReleased
  log : List Occurrence

namespace Host

/-- The proofs that a release leaves in memory. -/
def proofs : Except JournalError Disposition → List NeverReleased
  | .ok (.neverReleased proof) => [proof]
  | _ => []

/-- What is logged for a call that may consume a ticket. -/
def consumption (ticket : InvocationTicket) : Bool → List Occurrence
  | true => [.consumed ticket]
  | false => []

/-- Record an occurrence. -/
def did (host : Host) (occurrence : Occurrence) : Host :=
  { host with log := occurrence :: host.log }

/-- Record a consumption, if there was one. -/
def consumes (host : Host) (ticket : InvocationTicket) (consumed : Bool) : Host :=
  { host with log := consumption ticket consumed ++ host.log }

/-- Keep the proofs of a release. -/
def keeps (host : Host) (result : Except JournalError Disposition) : Host where
  held := proofs result ++ host.held
  log := (proofs result).map (fun proof => .withheld proof.ticket) ++ host.log

end Host

section

variable (encoding : Encoding) (replied : Request → Reply → Prop)

/-- One step of a manager and its processes. -/
inductive HostStep : Manager × Host → Manager × Host → Prop where
  | work {host : Host}
      (one : Manager.Work encoding replied manager next) : HostStep (manager, host) (next, host)
  | sealRelease {sequence : Nat}
      (done : manager.sealRelease encoding key operation = .ok (next, sequence)) :
      HostStep (manager, host) (next, host.did (.sealed key))
  | consumeTicket {ticket : InvocationTicket}
      (done : manager.consumeTicket ticket = .ok (next, consumed)) :
      HostStep (manager, host) (next, host.consumes ticket consumed)
  | release {barrier after : ReleaseBarrier} {ticket : InvocationTicket}
      {result : Except JournalError Disposition}
      (done : barrier.release input ticket manager = (after, next, result)) :
      HostStep (manager, host)
        (next, (host.consumes ticket (barrier.consumes input ticket manager)).keeps result)
  | recordCleanup {cleanup : TicketCleanup} (done : manager.recordCleanup cleanup = .ok next) :
      HostStep (manager, host) (next, host.did (.cleaned cleanup.invocationId))
  | recordUnusedCleanup {cleanup : TicketCleanup} (held : proof ∈ host.held)
      (done : manager.recordUnusedCleanup proof.ticket cleanup = .ok next) :
      HostStep (manager, host) (next, host.did (.cleaned cleanup.invocationId))
  | stop :
      HostStep (manager, host) (manager, { host with held := [] })

end

/-! ## What the journal knows about the log -/

/-- An operation up to this number gave the start right of an Invocation. -/
def Given (history : List (Request × Outcome)) (domain : ExecutionDomainId) (applied : Nat)
    (invocation : EntityId) : Prop :=
  ∃ entry ∈ operationsOf history domain, ∃ ticket, entry.2 = .ticket ticket ∧
    ticket.intent.invocationId = invocation ∧ entry.1.requestSequence ≤ applied

theorem Given.mono (given : Given history domain applied invocation) (grown : applied ≤ later) :
    Given history domain later invocation := by
  rcases given with ⟨entry, member, ticket, answered, named, before⟩
  exact ⟨entry, member, ticket, answered, named, before.trans grown⟩

theorem Given.append (given : Given history domain applied invocation)
    (commits : List (Request × Outcome)) :
    Given (history ++ commits) domain applied invocation := by
  rcases given with ⟨entry, member, rest⟩
  exact ⟨entry, operationsOf_subset member _, rest⟩

/-- The journal of a manager accounts for what the log says about it. -/
structure Account (history : List (Request × Outcome)) (domain : ExecutionDomainId)
    (manager : Manager) (host : Host) : Prop where
  named : manager.CleanupNamed
  lists : ∀ intent, manager.Lists intent →
    Given history domain manager.applied intent.invocationId
  recovered : ∀ invocation cleanup, manager.recoveredCleanup.get? invocation = some cleanup →
    manager.tickets.get? invocation = none ∧ Given history domain manager.applied invocation
  consumed : ∀ ticket, .consumed ticket ∈ host.log →
    ∃ row, manager.tickets.get? ticket.intent.invocationId = some row ∧ row.ticket = ticket ∧
      row.consumed = true
  unused : ∀ invocation row cleanup, manager.tickets.get? invocation = some row →
    row.cleanup = some cleanup → cleanup.userCodeReleased = false →
      row.consumed = false ∨ .withheld row.ticket ∈ host.log
  cleaned : ∀ invocation, .cleaned invocation ∈ host.log →
    (∃ row, manager.tickets.get? invocation = some row ∧ row.cleanup.isSome) ∨
      (manager.recoveredCleanup.get? invocation).isSome
  sealed : ∀ key, .sealed key ∈ host.log →
    ∃ release, Manager.sealAt manager.grants key = some release
  seals : ∀ key release, Manager.sealAt manager.grants key = some release →
    manager.Proven release
  held : ∀ proof ∈ host.held, .withheld proof.ticket ∈ host.log
  once : (host.log.filterMap Occurrence.consumedInvocation).Nodup

/-- A start right that an applied reply brings was given by an operation up to
that reply. -/
def Heard (history : List (Request × Outcome)) (domain : ExecutionDomainId)
    (replied : Request → Reply → Prop) : Prop :=
  ∀ request reply, replied request reply → request.session.domainId = domain →
    (∀ intent, Manager.Brings reply.outcome intent →
      Given history domain request.requestSequence intent.invocationId) ∧
    ∀ ticket applied, reply.outcome = .ticket ticket → applied < request.requestSequence →
      ¬Given history domain applied ticket.intent.invocationId

section Account

variable {encoding : Encoding} {replied : Request → Reply → Prop}
  {history : List (Request × Outcome)} {domain : ExecutionDomainId} {manager next : Manager}
  {host after : Host}

theorem Account.initial (storeUuid : Uuid) :
    Account history domain (.initial storeUuid) ⟨[], []⟩ where
  named := ⟨fun _ _ _ found => (nomatch found), fun _ _ found => (nomatch found)⟩
  lists := by
    rintro intent (⟨_, _, found, _⟩ | ⟨_, _, found, _⟩) <;> exact nomatch found
  recovered _ _ found := (nomatch found)
  consumed _ member := nomatch member
  unused _ _ _ found := (nomatch found)
  cleaned _ member := nomatch member
  sealed _ member := nomatch member
  seals _ _ found := (nomatch found)
  held _ member := nomatch member
  once := List.nodup_nil

theorem Account.append (account : Account history domain manager host)
    (commits : List (Request × Outcome)) : Account (history ++ commits) domain manager host :=
  { account with
    lists := fun intent listed => (account.lists intent listed).append _
    recovered := fun invocation cleanup found =>
      ⟨(account.recovered invocation cleanup found).1,
        (account.recovered invocation cleanup found).2.append _⟩ }

/-- A step that consumes nothing and records no cleanup. -/
theorem Account.keeps (account : Account history domain manager host)
    (isLocal : manager.Local domain) (heard : Heard history domain replied)
    (effect : Manager.Effect domain replied manager next)
    (keeps : Manager.Keeps replied manager next) : Account history domain next host := by
  -- Rows stay, and a new row is a ticket that was neither consumed nor cleaned up.
  have rows : ∀ invocation row, manager.tickets.get? invocation = some row →
      next.tickets.get? invocation = some row := by
    intro invocation row found
    rcases keeps.tickets invocation with same | ⟨absent, _⟩
    · exact same.trans found
    · rw [absent] at found
      cases found
  have origin : ∀ invocation row, next.tickets.get? invocation = some row →
      manager.tickets.get? invocation = some row ∨ row.cleanup = none := by
    intro invocation row found
    rcases keeps.tickets invocation with same | ⟨_, _, _, _, _, _, _, new⟩
    · exact .inl (same.symm.trans found)
    · cases new.symm.trans found
      exact .inr rfl
  have proven : ∀ release, manager.Proven release → next.Proven release := by
    intro release before cleanup member
    rw [keeps.recovered]
    exact (before cleanup member).imp_left fun ⟨row, found, same⟩ => ⟨row, rows _ row found, same⟩
  refine ⟨⟨?_, ?_⟩, ?_, ?_, ?_, ?_, ?_, ?_, ?_, account.held, account.once⟩
  · intro invocation row cleanup found recorded
    rcases origin invocation row found with before | none
    · exact account.named.tickets invocation row cleanup before recorded
    · rw [none] at recorded
      cases recorded
  · rw [keeps.recovered]
    exact account.named.recovered
  · intro intent listed
    rcases keeps.lists intent listed with before | ⟨request, reply, hears, brings⟩
    · exact (account.lists intent before).mono keeps.applied
    · rw [hears.applied]
      exact (heard request reply hears.heard (isLocal.session _ hears.session)).1 intent brings
  · intro invocation cleanup found
    rw [keeps.recovered] at found
    rcases account.recovered invocation cleanup found with ⟨absent, given⟩
    refine ⟨?_, given.mono keeps.applied⟩
    rcases keeps.tickets invocation with same | ⟨_, request, reply, ticket, hears, brought, rfl, _⟩
    · exact same.trans absent
    · have late := (heard request reply hears.heard (isLocal.session _ hears.session)).2 ticket
        manager.applied brought hears.sequence
      exact absurd given late
  · intro ticket member
    rcases account.consumed ticket member with ⟨row, found, rest⟩
    exact ⟨row, rows _ row found, rest⟩
  · intro invocation row cleanup found recorded unused
    rcases origin invocation row found with before | none
    · exact account.unused invocation row cleanup before recorded unused
    · rw [none] at recorded
      cases recorded
  · intro invocation member
    rw [keeps.recovered]
    exact (account.cleaned invocation member).imp_left
      fun ⟨row, found, same⟩ => ⟨row, rows _ row found, same⟩
  · intro key member
    rcases account.sealed key member with ⟨release, sealed⟩
    exact ⟨release, effect.seals key release sealed⟩
  · intro key release sealed
    rcases keeps.seals key release sealed with before | now
    · exact proven release (account.seals key release before)
    · exact proven release now

/-- What the journal must say when an occurrence is logged. -/
def Justified (manager : Manager) (host : Host) : Occurrence → Prop
  | .consumed ticket =>
    (∃ row, manager.tickets.get? ticket.intent.invocationId = some row ∧ row.ticket = ticket ∧
      row.consumed = true) ∧
      ∀ other, .consumed other ∈ host.log →
        other.intent.invocationId ≠ ticket.intent.invocationId
  | .cleaned invocation =>
    (∃ row, manager.tickets.get? invocation = some row ∧ row.cleanup.isSome) ∨
      (manager.recoveredCleanup.get? invocation).isSome
  | .sealed key => ∃ release, Manager.sealAt manager.grants key = some release
  | .withheld _ => True

theorem mem_consumedInvocations {log : List Occurrence} :
    invocation ∈ log.filterMap Occurrence.consumedInvocation ↔
      ∃ ticket, .consumed ticket ∈ log ∧ ticket.intent.invocationId = invocation := by
  rw [List.mem_filterMap]
  constructor
  · rintro ⟨occurrence, member, same⟩
    cases occurrence with
    | consumed ticket => exact ⟨ticket, member, Option.some.inj same⟩
    | cleaned | sealed | withheld => cases same
  · rintro ⟨ticket, member, rfl⟩
    exact ⟨_, member, rfl⟩

section Marking

variable (account : Account history domain manager host)

include account

theorem Account.did {occurrence : Occurrence} (justified : Justified manager host occurrence) :
    Account history domain manager (host.did occurrence) := by
  refine ⟨account.named, account.lists, account.recovered, ?_, ?_, ?_, ?_, account.seals, ?_, ?_⟩
  · intro ticket member
    rcases List.mem_cons.mp member with rfl | before
    · exact justified.1
    · exact account.consumed ticket before
  · intro invocation row cleanup found recorded unused
    exact (account.unused invocation row cleanup found recorded unused).imp_right
      (List.mem_cons_of_mem _)
  · intro invocation member
    rcases List.mem_cons.mp member with rfl | before
    · exact justified
    · exact account.cleaned invocation before
  · intro key member
    rcases List.mem_cons.mp member with rfl | before
    · exact justified
    · exact account.sealed key before
  · exact fun proof member => List.mem_cons_of_mem _ (account.held proof member)
  · cases occurrence with
    | consumed ticket =>
      refine List.nodup_cons.mpr ⟨?_, account.once⟩
      rw [mem_consumedInvocations]
      rintro ⟨other, member, same⟩
      exact justified.2 other member same
    | cleaned | sealed | withheld => exact account.once

/-- Only a ticket row is marked. -/
theorem Account.mark (found : manager.tickets.get? invocation = some row)
    (same : marked.ticket = row.ticket) (consumed : row.consumed = true → marked.consumed = true)
    (kept : ∀ cleanup, row.cleanup = some cleanup → marked.cleanup = some cleanup)
    (named : ∀ cleanup, marked.cleanup = some cleanup → cleanup.invocationId = invocation)
    (unused : ∀ cleanup, marked.cleanup = some cleanup → cleanup.userCodeReleased = false →
      marked.consumed = false ∨ .withheld marked.ticket ∈ host.log) :
    Account history domain
      { manager with tickets := manager.tickets.set invocation marked } host := by
  have rows : ∀ other old, manager.tickets.get? other = some old →
      ∃ new, (manager.tickets.set invocation marked).get? other = some new ∧
        new.ticket = old.ticket ∧ (old.consumed = true → new.consumed = true) ∧
        ∀ cleanup, old.cleanup = some cleanup → new.cleanup = some cleanup := by
    intro other old lookup
    rw [Table.get?_set]
    split
    · next own =>
      subst own
      cases found.symm.trans lookup
      exact ⟨marked, rfl, same, consumed, kept⟩
    · exact ⟨old, lookup, rfl, id, fun _ recorded => recorded⟩
  refine ⟨⟨?_, account.named.recovered⟩, account.lists, ?_, ?_, ?_, ?_, account.sealed, ?_,
    account.held, account.once⟩
  · intro other new cleanup lookup recorded
    obtain ⟨rfl, rfl⟩ | ⟨_, lookup⟩ := Table.get?_set_eq_some.mp lookup
    · exact named cleanup recorded
    · exact account.named.tickets other new cleanup lookup recorded
  · intro other cleanup lookup
    rcases account.recovered other cleanup lookup with ⟨absent, given⟩
    refine ⟨?_, given⟩
    have different : other ≠ invocation := by
      rintro rfl
      rw [absent] at found
      cases found
    dsimp only
    rw [Table.get?_set, if_neg different]
    exact absent
  · intro ticket member
    rcases account.consumed ticket member with ⟨old, lookup, sameTicket, spent⟩
    rcases rows _ old lookup with ⟨new, stored, sameNew, stays, _⟩
    exact ⟨new, stored, sameNew.trans sameTicket, stays spent⟩
  · intro other new cleanup lookup recorded clean
    obtain ⟨_, rfl⟩ | ⟨_, lookup⟩ := Table.get?_set_eq_some.mp lookup
    · exact unused cleanup recorded clean
    · exact account.unused other new cleanup lookup recorded clean
  · intro other member
    rcases account.cleaned other member with ⟨old, lookup, recorded⟩ | recorded
    · rcases Option.isSome_iff_exists.mp recorded with ⟨cleanup, recorded⟩
      rcases rows _ old lookup with ⟨new, stored, _, _, stays⟩
      exact .inl ⟨new, stored, by rw [stays cleanup recorded]; rfl⟩
    · exact .inr recorded
  · intro key release sealed cleanup member
    rcases account.seals key release sealed cleanup member with ⟨old, lookup, recorded⟩ | recorded
    · rcases rows _ old lookup with ⟨new, stored, _, _, stays⟩
      exact .inl ⟨new, stored, stays cleanup recorded⟩
    · exact .inr recorded

/-- A ticket that is consumed was not consumed before, nor cleaned up, nor was its
allocation sealed. -/
theorem Account.fresh (keyed : ∀ invocation row, manager.tickets.get? invocation = some row →
      row.ticket.key = row.key) (consumes : manager.Consumes ticket next) :
    (∀ other, .consumed other ∈ host.log →
        other.intent.invocationId ≠ ticket.intent.invocationId) ∧
      .cleaned ticket.intent.invocationId ∉ host.log ∧ .sealed ticket.key ∉ host.log := by
  rcases consumes.row with ⟨row, found, same, unsealed, unspent, uncleaned, _⟩
  refine ⟨?_, ?_, ?_⟩
  · intro other member equal
    rcases account.consumed other member with ⟨old, foundOld, _, spent⟩
    rw [equal, found, Option.some.injEq] at foundOld
    rw [foundOld, spent] at unspent
    cases unspent
  · intro member
    rcases account.cleaned _ member with ⟨old, foundOld, recorded⟩ | recorded
    · rw [found, Option.some.injEq] at foundOld
      rw [← foundOld, uncleaned] at recorded
      cases recorded
    · rcases Option.isSome_iff_exists.mp recorded with ⟨cleanup, recorded⟩
      rw [(account.recovered _ cleanup recorded).1] at found
      cases found
  · intro member
    rcases account.sealed _ member with ⟨release, sealed⟩
    have sameKey := keyed _ row found
    rw [same] at sameKey
    rw [← sameKey, sealed] at unsealed
    cases unsealed

theorem Account.consume (consumes : manager.Consumes ticket next) :
    Account history domain next (host.did (.consumed ticket)) := by
  rcases consumes.row with ⟨row, found, same, _, unspent, uncleaned, rfl⟩
  have uncleanedStill : ∀ cleanup, row.cleanup ≠ some cleanup := by
    intro cleanup recorded
    rw [uncleaned] at recorded
    cases recorded
  have marked : Account history domain { manager with
      tickets := manager.tickets.set ticket.intent.invocationId { row with consumed := true } }
      host :=
    account.mark found rfl (fun _ => rfl) (fun _ recorded => recorded)
      (fun cleanup recorded => absurd recorded (uncleanedStill cleanup))
      (fun cleanup recorded => absurd recorded (uncleanedStill cleanup))
  refine marked.did ⟨⟨{ row with consumed := true }, ?_, same, rfl⟩, ?_⟩
  · dsimp only
    rw [Table.get?_set, if_pos rfl]
  · intro other member equal
    rcases account.consumed other member with ⟨old, foundOld, _, spent⟩
    rw [equal, found, Option.some.injEq] at foundOld
    rw [foundOld, spent] at unspent
    cases unspent

/-- A cleanup is recorded with its ticket. -/
theorem Account.markClean (found : manager.tickets.get? cleanup.invocationId = some row)
    (once : ∀ old, row.cleanup = some old → old = cleanup)
    (unused : cleanup.userCodeReleased = false →
      row.consumed = false ∨ .withheld row.ticket ∈ host.log) :
    Account history domain { manager with
      tickets := manager.tickets.set cleanup.invocationId { row with cleanup := some cleanup } }
      (host.did (.cleaned cleanup.invocationId)) := by
  have marked : Account history domain { manager with
      tickets := manager.tickets.set cleanup.invocationId { row with cleanup := some cleanup } }
      host := by
    refine account.mark found rfl id ?_ ?_ ?_
    · intro old recorded
      rw [once old recorded]
    · rintro _ ⟨⟩
      rfl
    · rintro _ ⟨⟩ clean
      exact unused clean
  refine marked.did (.inl ⟨{ row with cleanup := some cleanup }, ?_, rfl⟩)
  dsimp only
  rw [Table.get?_set, if_pos rfl]

theorem Account.clean (cleans : Manager.Cleans cleanup manager next) :
    Account history domain next (host.did (.cleaned cleanup.invocationId)) := by
  cases cleans with
  | @ticket row found same once =>
    exact account.markClean found once fun clean => .inl (same.symm.trans clean)
  | @recovered intent absent listed named unused once =>
    have given := account.lists intent listed
    rw [named] at given
    have stored : ∀ other old, manager.recoveredCleanup.get? other = some old →
        (manager.recoveredCleanup.set cleanup.invocationId cleanup).get? other = some old := by
      intro other old found
      rw [Table.get?_set]
      split
      · next same =>
        subst same
        rw [once old found]
      · exact found
    have kept : Account history domain { manager with
        recoveredCleanup := manager.recoveredCleanup.set cleanup.invocationId cleanup }
        host := by
      refine ⟨⟨account.named.tickets, ?_⟩, account.lists, ?_, account.consumed, account.unused,
        ?_, account.sealed, ?_, account.held, account.once⟩
      · intro other old found
        obtain ⟨rfl, rfl⟩ | ⟨_, found⟩ := Table.get?_set_eq_some.mp found
        · rfl
        · exact account.named.recovered other old found
      · intro other old found
        obtain ⟨rfl, _⟩ | ⟨_, found⟩ := Table.get?_set_eq_some.mp found
        · exact ⟨absent, given⟩
        · exact account.recovered other old found
      · intro other member
        rcases account.cleaned other member with ticket | recorded
        · exact .inl ticket
        · rcases Option.isSome_iff_exists.mp recorded with ⟨old, found⟩
          exact .inr (Option.isSome_iff_exists.mpr ⟨old, stored other old found⟩)
      · intro key release sealed proof member
        rcases account.seals key release sealed proof member with ticket | recorded
        · exact .inl ticket
        · exact .inr (stored _ proof recorded)
    apply kept.did
    right
    dsimp only
    rw [Table.get?_set, if_pos rfl]
    rfl

/-- A result of the release barrier is kept in memory. -/
theorem Account.withhold (result : Except JournalError Disposition) :
    Account history domain manager (host.keeps result) := by
  unfold Host.keeps Host.proofs
  split
  · next proof =>
    have grown := account.did (show Justified manager host (.withheld proof.ticket) from trivial)
    refine { grown with held := ?_ }
    intro other member
    rcases List.mem_cons.mp member with rfl | before
    · exact List.mem_cons_self
    · exact List.mem_cons_of_mem _ (account.held other before)
  · exact account

end Marking

theorem HostStep.step (step : HostStep encoding replied (manager, host) (next, after)) :
    next = manager ∨ Manager.Step encoding replied manager next := by
  cases step with
  | work one => exact .inr one.step
  | sealRelease done => exact .inr (.sealRelease done)
  | consumeTicket done => exact .inr (.consumeTicket done)
  | release done =>
    rcases (ReleaseBarrier.releases_of_release done).consumption with ⟨_, rfl⟩ | ⟨_, consumption⟩
    · exact .inl rfl
    · exact .inr (.consumeTicket consumption)
  | recordCleanup done => exact .inr (.recordCleanup done)
  | recordUnusedCleanup _ done => exact .inr (.recordUnusedCleanup done)
  | stop => exact .inl rfl

/-- A call that may have consumed its ticket. -/
theorem Account.consumption {consumed : Bool} (account : Account history domain manager host)
    (done : manager.consumeTicket ticket = .ok (next, consumed)) :
    Account history domain next (host.consumes ticket consumed) := by
  rcases Manager.consumeTicket_eq_ok done with ⟨rfl, rfl⟩ | ⟨rfl, consumes⟩
  · exact account
  · exact account.consume consumes

theorem HostStep.account (isLocal : manager.Local domain) (heard : Heard history domain replied)
    (account : Account history domain manager host)
    (step : HostStep encoding replied (manager, host) (next, after)) :
    Account history domain next after := by
  cases step with
  | work one =>
    exact account.keeps isLocal heard (one.step.effect isLocal) (one.keeps isLocal)
  | sealRelease done =>
    have kept := account.keeps isLocal heard (Manager.Step.effect isLocal (.sealRelease done))
      (Manager.sealRelease_keeps account.named done).mono
    exact kept.did (Manager.sealRelease_seals done)
  | consumeTicket done => exact account.consumption done
  | release done =>
    apply Account.withhold
    rcases (ReleaseBarrier.releases_of_release done).consumption with
      ⟨unspent, rfl⟩ | ⟨spent, consumption⟩
    · rw [unspent]
      exact account
    · rw [spent]
      exact account.consumption consumption
  | recordCleanup done => exact account.clean (Manager.recordCleanup_eq_ok done)
  | recordUnusedCleanup held done =>
    rcases Manager.recordUnusedCleanup_eq_ok done with
      ⟨row, found, same, _, _, once, rfl⟩
    refine account.markClean found once fun _ => .inr ?_
    rw [same]
    exact account.held _ held
  | stop => exact { account with held := fun _ member => (nomatch member) }

end Account

/-- The stores with the processes of each manager. -/
structure Executor where
  system : System
  hosts : ExecutionDomainId → Host

def Executor.initial (config : CoordinatorConfig) (storeUuid : ExecutionDomainId → Uuid) :
    Executor :=
  ⟨.initial config storeUuid, fun _ => ⟨[], []⟩⟩

/-- One step of the coordinator or of a message, a connection of a manager, or a
step of a manager and its processes. -/
inductive ExecutorStep (config : CoordinatorConfig) : Executor → Executor → Prop where
  | network {next : System} (step : SystemStep config executor.system next)
      (managers : next.managers = executor.system.managers) :
      ExecutorStep config executor { executor with system := next }
  | connect {domain : ExecutionDomainId} {next : Manager}
      (heard : (session, participant) ∈ executor.system.welcomes) (own : session.domainId = domain)
      (done : (executor.system.managers domain).connect config.encoding session participant =
        .ok next) :
      ExecutorStep config executor { executor with
        system := { executor.system.withManager domain next with
          welcomes := executor.system.welcomes.erase (session, participant) } }
  | host {domain : ExecutionDomainId} (one : HostStep config.encoding
        (fun request reply => (request, reply) ∈ executor.system.replies)
        (executor.system.managers domain, executor.hosts domain) (next, after)) :
      ExecutorStep config executor
        ⟨executor.system.withManager domain next, Function.update executor.hosts domain after⟩

/-- The states of a run from paired stores. -/
def Executor.Reached (config : CoordinatorConfig) (storeUuid : ExecutionDomainId → Uuid) :
    Executor → Prop :=
  Transition.Reachable (fun executor => executor = .initial config storeUuid)
    (ExecutorStep config)

/-- The committed operations explain the stores, the replies and the logs. -/
structure Story (config : CoordinatorConfig) (executor : Executor)
    (history : List (Request × Outcome)) : Prop where
  sound : System.Sound config executor.system
  recorded : Recorded executor.system.coordinator.store history
  authorized : Authorized executor.system.coordinator.store history
  replies : ∀ request reply, (request, reply) ∈ executor.system.replies →
    Matches history request.session.domainId request.requestSequence
      ⟨request.operationId, request.command, some reply.outcome⟩
  accounts : ∀ domain, Account history domain (executor.system.managers domain)
    (executor.hosts domain)

section Runs

variable {config : CoordinatorConfig} {storeUuid : ExecutionDomainId → Uuid}
  {executor next : Executor} {history : List (Request × Outcome)}

/-- The stores move as those of the system do. -/
theorem ExecutorStep.system (step : ExecutorStep config executor next) :
    next.system = executor.system ∨ SystemStep config executor.system next.system := by
  cases step with
  | network step => exact .inr step
  | connect heard own done => exact .inr (.connect heard own done)
  | host one =>
    rcases one.step with rfl | step
    · left
      simp [System.withManager]
    · exact .inr (.manager step)

theorem Story.initial : Story config (.initial config storeUuid) [] := by
  have chronicle : Chronicle (MachineStore.initial config) (.initial config storeUuid) [] :=
    .initial
  exact ⟨.initial config storeUuid, chronicle.recorded, .initial config, chronicle.replies,
    fun domain => .initial _⟩

/-- Replies that were sent bring start rights that were given, each once. -/
theorem Story.heard (story : Story config executor history) (domain : ExecutionDomainId) :
    Heard history domain (fun request reply => (request, reply) ∈ executor.system.replies) := by
  intro request reply member own
  rcases story.replies request reply member with ⟨entry, listed, number, _, _, same⟩
  have answered : entry.2 = reply.outcome := same _ rfl
  have inHistory := (mem_operationsOf.mp listed).1
  rw [own] at listed
  constructor
  · rintro intent (⟨grant, shown, carried⟩ | ⟨ticket, brought, rfl⟩)
    · rw [← answered] at shown
      rcases story.authorized.shown entry inHistory grant shown intent carried with
        ⟨earlier, present, ⟨ticket, gave, _, rfl⟩, older⟩
      rw [(mem_operationsOf.mp listed).2] at present
      exact ⟨earlier, present, ticket, gave, rfl, by omega⟩
    · exact ⟨entry, listed, ticket, answered.trans brought, rfl, Nat.le_of_eq number⟩
  · rintro ticket applied brought late ⟨earlier, present, other, gave, equal, before⟩
    have once := story.authorized.single earlier (mem_operationsOf.mp present).1 entry inHistory
      other ticket gave (answered.trans brought) equal
    omega

/-- The managers and their processes keep their accounts. -/
theorem ExecutorStep.accounts (story : Story config executor history)
    (step : ExecutorStep config executor next) (domain : ExecutionDomainId) :
    Account history domain (next.system.managers domain) (next.hosts domain) := by
  have before := story.accounts domain
  cases step with
  | network _ managers =>
    dsimp only
    rw [managers]
    exact before
  | @connect session participant _ other manager heard own done =>
    dsimp only [System.withManager]
    by_cases same : domain = other
    · subst same
      rw [Function.update_self]
      exact before.keeps (story.sound.isLocal domain) (story.heard domain)
        (Manager.connect_effect (story.sound.isLocal domain) own done)
        (Manager.connect_keeps done)
    · rw [Function.update_of_ne same]
      exact before
  | @host manager after _ other one =>
    dsimp only [System.withManager]
    by_cases same : domain = other
    · subst same
      rw [Function.update_self, Function.update_self]
      exact one.account (story.sound.isLocal domain) (story.heard domain) before
    · rw [Function.update_of_ne same, Function.update_of_ne same]
      exact before

theorem ExecutorStep.story (story : Story config executor history)
    (step : ExecutorStep config executor next) :
    ∃ commits, Story config next (history ++ commits) := by
  have accounts := step.accounts story
  rcases step.system with same | moves
  · refine ⟨[], ?_⟩
    rw [List.append_nil]
    refine ⟨?_, ?_, ?_, ?_, accounts⟩ <;> rw [same]
    · exact story.sound
    · exact story.recorded
    · exact story.authorized
    · exact story.replies
  · rcases moves.coordinatorRun story.sound with ⟨commits, run, asked, _⟩
    have recorded := run.recorded story.sound.store.keyed story.recorded
    refine ⟨commits, (story.sound.step moves).1, recorded, ?_, ?_, ?_⟩
    · exact run.authorized story.sound.store story.recorded story.authorized
        fun entry member => story.sound.requests entry.1 (asked entry member)
    · intro request reply member
      rcases moves.replies story.sound (request, reply) member with earlier | answers
      · exact (story.replies request reply earlier).append _
      · exact matches_of_answers recorded answers
    · exact fun domain => (accounts domain).append _

/-- Every state of a run has a story. -/
def Executor.Told (config : CoordinatorConfig) (executor : Executor) : Prop :=
  ∃ history, Story config executor history

theorem Executor.Reached.told (reached : executor.Reached config storeUuid) :
    executor.Told config := by
  refine Transition.Reachable.invariant ?_ ?_ reached
  · rintro _ rfl
    exact ⟨[], .initial⟩
  · rintro state next ⟨history, story⟩ step
    rcases step.story story with ⟨commits, later⟩
    exact ⟨history ++ commits, later⟩

/-- Two managers do not have tickets of one Invocation. -/
theorem Story.same_domain (story : Story config executor history)
    (found : (executor.system.managers domain).tickets.get? left = some row)
    (foundOther : (executor.system.managers elsewhere).tickets.get? right = some other)
    (same : other.ticket.intent.invocationId = row.ticket.intent.invocationId) :
    elsewhere = domain := by
  rcases story.sound.tickets domain _ row found with ⟨own, key, _, issued⟩
  rcases story.sound.tickets elsewhere _ other foundOther with ⟨otherOwn, otherKey, _, otherIssued⟩
  have unique := story.authorized.identified.unique otherIssued issued same
  rw [← own, ← otherOwn, ← key, ← otherKey, unique.1]

/-- A start ticket is consumed at most once.  In every run of the managers, with
lost, repeated and delayed messages, reconnections, crashes and recoveries:

* the calls that consumed a ticket consumed different Invocations, those of one
  manager and those of different managers;
* a call consumes a ticket only if no earlier call consumed one of the same
  Invocation or recorded a cleanup for it, its allocation was not sealed, no
  recovery is active, and the ticket was issued for the current session;
* a proof in a seal says that no user code was released only if no call consumed
  the ticket, or the release barrier said that its process never ran. -/
theorem ticket_is_consumed_once (reached : executor.Reached config storeUuid) :
    (∀ domain, ((executor.hosts domain).log.filterMap Occurrence.consumedInvocation).Nodup) ∧
      (∀ domain elsewhere ticket other, .consumed ticket ∈ (executor.hosts domain).log →
        .consumed other ∈ (executor.hosts elsewhere).log →
        other.intent.invocationId = ticket.intent.invocationId → elsewhere = domain) ∧
      (∀ domain ticket after,
        (executor.system.managers domain).consumeTicket ticket = .ok (after, true) →
          (∀ elsewhere other, .consumed other ∈ (executor.hosts elsewhere).log →
            other.intent.invocationId ≠ ticket.intent.invocationId) ∧
          .cleaned ticket.intent.invocationId ∉ (executor.hosts domain).log ∧
          .sealed ticket.key ∉ (executor.hosts domain).log ∧
          (executor.system.managers domain).recovery = none ∧
          (executor.system.managers domain).session = some ticket.session) ∧
      ∀ domain key release cleanup ticket,
        Manager.sealAt (executor.system.managers domain).grants key = some release →
        cleanup ∈ release.tickets → cleanup.userCodeReleased = false →
        ticket.intent.invocationId = cleanup.invocationId →
          .consumed ticket ∉ (executor.hosts domain).log ∨
            .withheld ticket ∈ (executor.hosts domain).log := by
  rcases reached.told with ⟨history, story⟩
  refine ⟨fun domain => (story.accounts domain).once, ?_, ?_, ?_⟩
  · intro domain elsewhere ticket other member otherMember same
    rcases (story.accounts domain).consumed ticket member with ⟨row, found, rfl, _⟩
    rcases (story.accounts elsewhere).consumed other otherMember with ⟨old, foundOld, rfl, _⟩
    exact story.same_domain found foundOld same
  · intro domain ticket after consumed
    rcases Manager.consumeTicket_eq_ok consumed with ⟨impossible, _⟩ | ⟨_, consumes⟩
    · cases impossible
    · have fresh := (story.accounts domain).fresh
        (fun invocation row found => (story.sound.tickets domain invocation row found).2.1) consumes
      refine ⟨?_, fresh.2.1, fresh.2.2, consumes.inactive, consumes.session⟩
      intro elsewhere other member same
      rcases consumes.row with ⟨row, found, rfl, _⟩
      rcases (story.accounts elsewhere).consumed other member with ⟨old, foundOld, rfl, _⟩
      have here := story.same_domain found foundOld same
      subst here
      exact fresh.1 _ member same
  · intro domain key release cleanup ticket sealed listed unused named
    by_cases spent : .consumed ticket ∈ (executor.hosts domain).log
    · have account := story.accounts domain
      rcases account.consumed ticket spent with ⟨row, found, rfl, consumed⟩
      rw [named] at found
      rcases account.seals key release sealed cleanup listed with
        ⟨proven, foundProven, recorded⟩ | recovered
      · cases found.symm.trans foundProven
        rcases account.unused _ row cleanup found recorded unused with unspent | withheld
        · rw [consumed] at unspent
          cases unspent
        · exact .inr withheld
      · rw [(account.recovered _ cleanup recovered).1] at found
        cases found
    · exact .inl spent

/-! ## Scripted runs -/

/-- What a move leaves in the log. -/
def Host.after (host : Host) (manager : Manager) : Move → Host
  | .sealRelease key _ => host.did (.sealed key)
  | .consumeTicket ticket =>
    host.consumes ticket (Stillyard.consumes (manager.consumeTicket ticket))
  | .recordCleanup cleanup => host.did (.cleaned cleanup.invocationId)
  | _ => host

/-- Make one event happen. -/
def Executor.play (config : CoordinatorConfig) (executor : Executor) (event : Event) :
    Option Executor :=
  (executor.system.play config event).map fun system => ⟨system, match event with
    | .manager domain move => Function.update executor.hosts domain
        ((executor.hosts domain).after (executor.system.managers domain) move)
    | _ => executor.hosts⟩

theorem hostStep_of_perform (host : Host)
    (done : manager.perform encoding replies move = some after) :
    HostStep encoding (fun request reply => (request, reply) ∈ replies) (manager, host)
      (after, host.after manager move) := by
  cases move with
  | enqueue | page | reconcile | accept => exact .work (Manager.work_of_perform rfl done)
  | sealRelease key operation =>
    rcases Manager.fst_of_succeeded done with ⟨_, sealed⟩
    exact .sealRelease sealed
  | consumeTicket ticket =>
    rcases Manager.fst_of_succeeded done with ⟨consumed, computed⟩
    have flag : Stillyard.consumes (manager.consumeTicket ticket) = consumed := by
      rw [computed]
      cases consumed <;> rfl
    rw [Host.after, flag]
    exact .consumeTicket computed
  | recordCleanup cleanup => exact .recordCleanup (toOption_eq_some.mp done)

theorem Executor.step_of_play (played : executor.play config event = some next) :
    ExecutorStep config executor next := by
  rcases Option.map_eq_some_iff.mp played with ⟨system, made, rfl⟩
  cases event with
  | connectBegin | offers | connectFinish | exchange | send =>
    exact .network (System.step_of_play made) (System.managers_of_quiet rfl made)
  | connect domain position =>
    rcases Option.bind_eq_some_iff.mp made with ⟨welcome, listed, rest⟩
    obtain ⟨manager, own, done, rfl⟩ := System.connected_eq_some rest
    exact .connect (List.mem_of_getElem? listed) own done
  | manager domain move =>
    rcases Option.map_eq_some_iff.mp made with ⟨manager, done, rfl⟩
    exact .host (hostStep_of_perform _ done)

/-- Run a script. -/
def Executor.run (config : CoordinatorConfig) (script : List Event) (executor : Executor) :
    Option Executor :=
  script.foldlM (fun executor event => executor.play config event) executor

theorem Executor.reached_of_run (reached : executor.Reached config storeUuid)
    (ran : executor.run config script = some final) : final.Reached config storeUuid :=
  reached.trans (Transition.steps_of_script ran step_of_play)

end Runs

/-- Whether the seal of an allocation has a proof without released user code. -/
def Manager.sealsUnused (manager : Manager) (key : AllocationKey) (invocation : EntityId) : Bool :=
  (sealAt manager.grants key).any fun release => release.tickets.any fun cleanup =>
    !cleanup.userCodeReleased && cleanup.invocationId = invocation

theorem demoTicket_consumed_once :
    (∃ executor next, Executor.Reached soloConfig (fun _ => 8) executor ∧
      (executor.system.managers 6).consumeTicket demoTicket = .ok (next, true) ∧
      .cleaned demoIntent.invocationId ∉ (executor.hosts 6).log ∧
      .sealed demoKey ∉ (executor.hosts 6).log ∧
      (executor.system.managers 6).session = some soloSession) ∧
    ∃ executor, Executor.Reached soloConfig (fun _ => 8) executor ∧
      (executor.system.managers 6).sealsUnused demoKey demoIntent.invocationId = true ∧
      (.consumed demoTicket ∉ (executor.hosts 6).log ∨
        .withheld demoTicket ∈ (executor.hosts 6).log) := by
  have started : (Executor.initial soloConfig fun _ => 8).Reached soloConfig (fun _ => 8) :=
    .start rfl
  constructor
  · have ran : ((Executor.initial soloConfig fun _ => 8).run soloConfig
        (demoConnects ++ demoOffers ++ demoStarts)).any (fun executor =>
          consumes ((executor.system.managers 6).consumeTicket demoTicket)) = true := by
      decide +kernel
    rcases (Option.any_eq_true _ _).mp ran with ⟨executor, computed, consumed⟩
    rcases consumes_eq_true consumed with ⟨next, consumed⟩
    have reached := Executor.reached_of_run started computed
    rcases (ticket_is_consumed_once reached).2.2.1 6 demoTicket next consumed with
      ⟨_, uncleaned, unsealed, _, session⟩
    exact ⟨executor, next, reached, consumed, uncleaned, unsealed, session⟩
  · have ran : ((Executor.initial soloConfig fun _ => 8).run soloConfig
        (demoConnects ++ demoOffers ++ demoStarts ++ demoSeals)).any (fun executor =>
          (executor.system.managers 6).sealsUnused demoKey demoIntent.invocationId) = true := by
      decide +kernel
    rcases (Option.any_eq_true _ _).mp ran with ⟨executor, computed, sealed⟩
    have reached := Executor.reached_of_run started computed
    refine ⟨executor, reached, sealed, ?_⟩
    rcases (Option.any_eq_true _ _).mp sealed with ⟨release, stored, proven⟩
    rcases List.any_eq_true.mp proven with ⟨cleanup, listed, unused⟩
    rw [Bool.and_eq_true, Bool.not_eq_true', decide_eq_true_eq] at unused
    exact (ticket_is_consumed_once reached).2.2.2 6 demoKey release cleanup demoTicket stored listed
      unused.1 unused.2.symm

end Stillyard
