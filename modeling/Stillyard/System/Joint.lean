import Stillyard.Manager.Effects
import Stillyard.Store.Safety

/-!
# A coordinator and its managers

The two kinds of store share no transaction.  Messages may be lost, delayed,
repeated and reordered: a request that was sent can be delivered at any later
time and any number of times, and so can a reply.  A completed handshake is used
by at most one connection.  Coordinator calls may be interrupted anywhere, and a
manager that stops between transactions loses nothing else.

The result is what the protocol is for: a process starts only while the
coordinator debits its allocation, and an allocation is released only after its
manager sealed it with a proof for each ticket.
-/

namespace Stillyard

open Relational Fallible

variable {manager : Manager}

/-- All stores, and every message that was sent so far. -/
structure System where
  coordinator : Coordinator
  managers : ExecutionDomainId → Manager
  requests : List Request
  replies : List (Request × Reply)
  welcomes : List (SessionIdentity × ParticipantSnapshot)

/-- Paired stores before the first connection. -/
def System.initial (config : CoordinatorConfig) (storeUuid : ExecutionDomainId → Uuid) :
    System where
  coordinator := .initial config
  managers domain := Manager.initialize (storeUuid domain)
  requests := []
  replies := []
  welcomes := []

/-- One transaction or one message.  A coordinator step whose answer is lost
leaves no message. -/
inductive SystemStep (config : CoordinatorConfig) : System → System → Prop where
  | coordinator
      (one : CoordinatorStep config (fun _ => True) (fun request => request ∈ system.requests)
        system.coordinator commits next) :
      SystemStep config system { system with coordinator := next }
  | reply {reply : Reply} (delivered : request ∈ system.requests)
      (answered : (machineExchange config input request system.coordinator).answer = .ok reply) :
      SystemStep config system { system with
        coordinator := (machineExchange config input request system.coordinator).coordinator
        replies := (request, reply) :: system.replies }
  | welcome {participant : ParticipantSnapshot}
      (answered : (machineConnectFinish config input challenge system.coordinator).answer =
        .ok participant) :
      SystemStep config system { system with
        coordinator := (machineConnectFinish config input challenge system.coordinator).coordinator
        welcomes := (challenge.session, participant) :: system.welcomes }
  | connect {next : Manager} (heard : (session, participant) ∈ system.welcomes)
      (own : session.domainId = domain)
      (done : (system.managers domain).connect config.encoding session participant = .ok next) :
      SystemStep config system { system with
        managers := Function.update system.managers domain next
        welcomes := system.welcomes.erase (session, participant) }
  | manager
      (one : Manager.Step config.encoding (fun request reply => (request, reply) ∈ system.replies)
        (system.managers domain) next) :
      SystemStep config system { system with
        managers := Function.update system.managers domain next }
  | send {request : Request} (queued : (system.managers domain).pending = .ok (some request)) :
      SystemStep config system { system with requests := request :: system.requests }

/-- The states of a run from paired stores. -/
def System.Reached (config : CoordinatorConfig) (storeUuid : ExecutionDomainId → Uuid) :
    System → Prop :=
  Transition.Reachable (fun system => system = .initial config storeUuid) (SystemStep config)

/-- The manager of the allocation sealed it with this release. -/
def System.Sealed (system : System) (release : SealedRelease) : Prop :=
  (system.managers release.key.domainId).Sealed release

/-! ## The joint invariant -/

/-- What the coordinator, the managers and the messages in flight have in
common: only seals that are in place travel, and only issued tickets do. -/
structure System.Sound (config : CoordinatorConfig) (system : System) : Prop where
  pending : PendingSound config (fun request => request ∈ system.requests) system.coordinator
  store : StoreSound system.Sealed system.coordinator.store
  requests : ∀ request ∈ system.requests, ∀ release, request.command.Carries release →
    system.Sealed release
  replies : ∀ request reply ticket, (request, reply) ∈ system.replies →
    reply.outcome = .ticket ticket → IssuedIn system.coordinator.store.grants ticket
  isLocal : ∀ domain, (system.managers domain).Local domain
  outbox : ∀ domain sequence row release,
    (system.managers domain).outbox.get? sequence = some row → row.command.Carries release →
      system.Sealed release
  tickets : ∀ domain invocation row, (system.managers domain).tickets.get? invocation = some row →
    row.key.domainId = domain ∧ row.ticket.key = row.key ∧
      row.ticket.intent.invocationId = invocation ∧
      IssuedIn system.coordinator.store.grants row.ticket

theorem Manager.Local.sealed_domain (isLocal : manager.Local domain)
    (sealed : manager.Sealed release) : release.key.domainId = domain := by
  rcases Option.bind_eq_some_iff.mp sealed with ⟨row, found, _⟩
  exact isLocal.grants _ row found

theorem System.Sound.initial (config : CoordinatorConfig)
    (storeUuid : ExecutionDomainId → Uuid) : System.Sound config (.initial config storeUuid) where
  pending := .of_none rfl
  store := .initial config
  requests _ member := nomatch member
  replies _ _ _ member := nomatch member
  isLocal _ := ⟨nofun, fun _ _ found => (nomatch found), fun _ _ found => (nomatch found),
    fun _ _ found => (nomatch found)⟩
  outbox _ _ _ _ found := (nomatch found)
  tickets _ _ _ found := (nomatch found)

section Steps

variable {config : CoordinatorConfig} {system next : System}

theorem SystemStep.managers (sound : System.Sound config system)
    (step : SystemStep config system next) (domain : ExecutionDomainId) :
    Manager.Effect domain (fun request reply => (request, reply) ∈ system.replies)
      (system.managers domain) (next.managers domain) := by
  have changed : ∀ {other : ExecutionDomainId} {after : Manager},
      Manager.Effect other (fun request reply => (request, reply) ∈ system.replies)
        (system.managers other) after →
      Manager.Effect domain (fun request reply => (request, reply) ∈ system.replies)
        (system.managers domain) (Function.update system.managers other after domain) := by
    intro other after effect
    by_cases same : domain = other
    · subst same
      rw [Function.update_self]
      exact effect
    · rw [Function.update_of_ne same]
      exact .refl (sound.isLocal domain)
  cases step with
  | coordinator | reply | welcome | send => exact .refl (sound.isLocal domain)
  | connect heard own done =>
    exact changed (Manager.connect_effect (sound.isLocal _) own done)
  | manager one => exact changed (one.effect (sound.isLocal _))

theorem SystemStep.coordinatorRun (sound : System.Sound config system)
    (step : SystemStep config system next) :
    ∃ commits, StoreRun config system.coordinator.store commits next.coordinator.store ∧
      (∀ entry ∈ commits, entry.1 ∈ system.requests) ∧
      PendingSound config (fun request => request ∈ next.requests) next.coordinator := by
  have still : StoreRun config system.coordinator.store [] system.coordinator.store ∧
      (∀ entry ∈ ([] : List (Request × Outcome)), entry.1 ∈ system.requests) :=
    ⟨.refl _, fun _ member => (nomatch member)⟩
  cases step with
  | coordinator one => exact ⟨_, one.effect sound.pending⟩
  | @reply request input _ reply delivered answered =>
    have effect := machineExchange_effect input sound.pending delivered
    exact ⟨_, effect.run, effect.asked, effect.sound⟩
  | @welcome input challenge _ participant answered =>
    have effect := machineConnectFinish_effect input challenge sound.pending
    exact ⟨_, effect.run, effect.asked, effect.sound⟩
  | connect | manager => exact ⟨[], still.1, still.2, sound.pending⟩
  | send queued =>
    refine ⟨[], still.1, still.2, sound.pending.mono ?_⟩
    exact fun _ member => List.mem_cons_of_mem _ member

theorem SystemStep.requests (step : SystemStep config system next) :
    ∀ request ∈ next.requests, request ∈ system.requests ∨
      ∃ domain, (system.managers domain).pending = .ok (some request) := by
  intro request member
  cases step with
  | coordinator | reply | welcome | connect | manager => exact .inl member
  | send queued =>
    rcases List.mem_cons.mp member with rfl | before
    · exact .inr ⟨_, queued⟩
    · exact .inl before

theorem SystemStep.replies (sound : System.Sound config system)
    (step : SystemStep config system next) :
    ∀ entry ∈ next.replies, entry ∈ system.replies ∨
      Answers entry.1 next.coordinator.store entry.2 := by
  intro entry member
  cases step with
  | coordinator | welcome | connect | manager | send => exact .inl member
  | reply delivered answered =>
    rcases List.mem_cons.mp member with rfl | before
    · exact .inr (machineExchange_answers _ sound.pending delivered answered)
    · exact .inl before

theorem mem_oldest {sequence : Nat} (first : manager.oldest = some (sequence, row)) :
    manager.outbox.get? sequence = some row ∧ row.outcome = none := by
  have member := List.mem_of_mem_head? (Option.mem_def.mpr first)
  rw [List.mem_insertionSort, List.mem_filter, Option.isNone_iff_eq_none] at member
  exact ⟨Table.mem_rows.mp member.1, member.2⟩

theorem pending_eq_ok (queued : manager.pending = .ok (some request)) :
    manager.session = some request.session ∧
      manager.outbox.get? request.requestSequence =
        some ⟨request.operationId, request.command, none⟩ := by
  simp only [Manager.pending, ok_iff, Option.map_eq_some_iff] at queued
  rcases queued with ⟨session, bound, ⟨sequence, row⟩, first, rfl⟩
  rcases mem_oldest first with ⟨found, unanswered⟩
  refine ⟨bound, ?_⟩
  rw [found, ← unanswered]

/-- The joint invariant survives every step, and so does every seal. -/
theorem System.Sound.step (sound : System.Sound config system)
    (step : SystemStep config system next) :
    System.Sound config next ∧ ∀ release, system.Sealed release → next.Sealed release := by
  have kept : ∀ release, system.Sealed release → next.Sealed release :=
    fun release sealed => (step.managers sound release.key.domainId).seals _ _ sealed
  rcases step.coordinatorRun sound with ⟨commits, run, asked, pending⟩
  have made : ∀ entry ∈ commits, ∀ release, entry.1.command.Carries release →
      system.Sealed release :=
    fun entry member => sound.requests entry.1 (asked entry member)
  have store : StoreSound next.Sealed next.coordinator.store :=
    (run.sound sound.store made).mono kept
  have issued : ∀ ticket, IssuedIn system.coordinator.store.grants ticket →
      IssuedIn next.coordinator.store.grants ticket :=
    fun ticket before => run.issued sound.store made before
  refine ⟨⟨pending, store, ?_, ?_, fun domain => (step.managers sound domain).isLocal, ?_, ?_⟩,
    kept⟩
  · intro request member release carries
    rcases step.requests request member with before | ⟨domain, queued⟩
    · exact kept release (sound.requests request before release carries)
    · exact kept release (sound.outbox domain _ _ release (pending_eq_ok queued).2 carries)
  · intro request reply ticket member answered
    rcases step.replies sound (request, reply) member with before | answers
    · exact issued ticket (sound.replies request reply ticket before answered)
    · exact store.operations _ _ ticket answers.recorded answered
  · intro domain sequence row release found carries
    have effect := step.managers sound domain
    rcases effect.outbox sequence row found with ⟨old, foundOld, same⟩ | fresh
    · rw [same] at carries
      exact kept release (sound.outbox domain sequence old release foundOld carries)
    · have sealed := fresh release carries
      rw [System.Sealed, effect.isLocal.sealed_domain sealed]
      exact sealed
  · intro domain invocation row found
    rcases (step.managers sound domain).tickets invocation row found with
      ⟨old, foundOld, sameKey, same⟩ | received
    · rw [sameKey, same]
      rcases sound.tickets domain invocation old foundOld with ⟨own, key, named, listed⟩
      exact ⟨own, key, named, issued _ listed⟩
    · rcases received.heard with ⟨request, reply, heard, answered⟩
      exact ⟨received.own, received.key, received.invocation,
        issued _ (sound.replies request reply _ heard answered)⟩

theorem System.Reached.sound (reached : system.Reached config storeUuid) :
    System.Sound config system := by
  refine Transition.Reachable.invariant ?_ (fun _ _ sound step => (sound.step step).1) reached
  rintro _ rfl
  exact .initial config storeUuid

end Steps

end Stillyard
