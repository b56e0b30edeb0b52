import Stillyard.System.Joint

/-!
# Scripted runs

A script names what happens next: which message is delivered, which transaction
a manager makes, when offers are handed out.  Running a script computes the
state it leads to, and that state is reached by steps of the system, so facts
about particular runs are settled by evaluation.
-/

namespace Stillyard

open Relational Fallible

variable {manager : Manager} {encoding : Encoding} {replies : List (Request × Reply)} {move : Move}
  {config : CoordinatorConfig} {system : System} {script : List Event}

/-- One transaction of a manager.  Replies are named by their position, latest
first. -/
inductive Move where
  | enqueue (operation : Uuid) (command : Command)
  | page (operation : Uuid)
  | reconcile (snapshotId : Uuid) (operations : List Uuid)
  | sealRelease (key : AllocationKey) (operation : Uuid)
  | accept (position : Nat)
  | consumeTicket (ticket : InvocationTicket)
  | recordCleanup (cleanup : TicketCleanup)

/-- Make a move. -/
def Manager.perform (encoding : Encoding) (replies : List (Request × Reply)) (manager : Manager) :
    Move → Option Manager
  | .enqueue operation command =>
    if command.isWork then
      (Except.toOption (manager.enqueue encoding operation command)).map Prod.fst
    else none
  | .page operation =>
    if manager.oldest.isNone then
      (Except.toOption manager.nextPage).bind fun page => page.bind fun command =>
        (Except.toOption (manager.enqueue encoding operation command)).map Prod.fst
    else none
  | .reconcile snapshotId operations =>
    (Except.toOption (manager.reconciliation encoding snapshotId)).bind fun commands =>
      if operations.length = commands.length then
        Except.toOption (manager.enqueueAll encoding (operations.zip commands))
      else none
  | .sealRelease key operation =>
    (Except.toOption (manager.sealRelease encoding key operation)).map Prod.fst
  | .accept position => replies[position]?.bind fun entry =>
    (Except.toOption (manager.accept encoding entry.1 entry.2)).map Prod.fst
  | .consumeTicket ticket => (Except.toOption (manager.consumeTicket ticket)).map Prod.fst
  | .recordCleanup cleanup => Except.toOption (manager.recordCleanup cleanup)

/-- Moves that neither consume nor clean up nor seal. -/
def Move.isWork : Move → Bool
  | .sealRelease .. | .consumeTicket _ | .recordCleanup _ => false
  | _ => true

theorem Manager.fst_of_succeeded (mapped : (Except.toOption computation).map Prod.fst = some next) :
    ∃ value, computation = .ok (next, value) := by
  rcases Option.map_eq_some_iff.mp mapped with ⟨⟨_, value⟩, found, rfl⟩
  exact ⟨value, toOption_eq_some.mp found⟩

theorem Manager.work_of_perform (work : move.isWork = true)
    (done : manager.perform encoding replies move = some next) :
    Manager.Work encoding (fun request reply => (request, reply) ∈ replies) manager next := by
  cases move with
  | enqueue operation command =>
    rw [perform] at done
    split at done
    · next work =>
      rcases fst_of_succeeded done with ⟨_, queued⟩
      exact .enqueue work queued
    · cases done
  | page operation =>
    rw [perform] at done
    split at done
    · next idle =>
      rcases Option.bind_eq_some_iff.mp done with ⟨page, asked, rest⟩
      rcases Option.bind_eq_some_iff.mp rest with ⟨command, rfl, queued⟩
      rcases fst_of_succeeded queued with ⟨_, queued⟩
      exact .page (Option.isNone_iff_eq_none.mp idle) (toOption_eq_some.mp asked) queued
    · cases done
  | reconcile snapshotId operations =>
    rcases Option.bind_eq_some_iff.mp done with ⟨commands, computed, rest⟩
    split at rest
    · next sameLength =>
      have whole := toOption_eq_some.mp computed
      rw [← List.map_snd_zip (Nat.le_of_eq sameLength.symm)] at whole
      exact .reconcile whole (toOption_eq_some.mp rest)
    · cases rest
  | accept position =>
    rcases Option.bind_eq_some_iff.mp done with ⟨entry, listed, rest⟩
    rcases fst_of_succeeded rest with ⟨_, accepted⟩
    exact .accept (List.mem_of_getElem? listed) accepted
  | sealRelease | consumeTicket | recordCleanup => cases work

theorem Manager.step_of_perform (done : manager.perform encoding replies move = some next) :
    Manager.Step encoding (fun request reply => (request, reply) ∈ replies) manager next := by
  cases move with
  | enqueue | page | reconcile | accept => exact (work_of_perform rfl done).step
  | sealRelease key operation =>
    rcases fst_of_succeeded done with ⟨_, sealed⟩
    exact .sealRelease sealed
  | consumeTicket ticket =>
    rcases fst_of_succeeded done with ⟨_, consumed⟩
    exact .consumeTicket consumed
  | recordCleanup cleanup => exact .recordCleanup (toOption_eq_some.mp done)

/-- One event of a script.  Requests and handshakes are named by their position,
latest first. -/
inductive Event where
  | connectBegin (input : ConnectInput) (hello : ConnectHello)
  | connectFinish (input : ConnectInput) (challenge : ConnectChallenge)
  | connect (domain : ExecutionDomainId) (position : Nat)
  | send (domain : ExecutionDomainId)
  | exchange (input : ExchangeInput) (position : Nat)
  | offers (input : OfferInput) (view : NativeView)
  | manager (domain : ExecutionDomainId) (move : Move)

/-- The state with a changed manager. -/
def System.withManager (system : System) (domain : ExecutionDomainId)
    (manager : Manager) : System :=
  { system with managers := Function.update system.managers domain manager }

/-- The state after an answered exchange. -/
def System.answered (config : CoordinatorConfig) (system : System) (input : ExchangeInput)
    (request : Request) : Option System :=
  match (machineExchange config input request system.coordinator).answer with
  | .error _ => none
  | .ok reply => some { system with
      coordinator := (machineExchange config input request system.coordinator).coordinator
      replies := (request, reply) :: system.replies }

/-- The state after an answered handshake. -/
def System.welcomed (config : CoordinatorConfig) (system : System) (input : ConnectInput)
    (challenge : ConnectChallenge) : Option System :=
  match (machineConnectFinish config input challenge system.coordinator).answer with
  | .error _ => none
  | .ok participant => some { system with
      coordinator := (machineConnectFinish config input challenge system.coordinator).coordinator
      welcomes := (challenge.session, participant) :: system.welcomes }

/-- The state after a pass. -/
def System.offered (config : CoordinatorConfig) (system : System) (input : OfferInput)
    (view : NativeView) : Option System :=
  match machineOfferBeforeNative config (false || system.coordinator.journal.blocked) input view
      system.coordinator.store with
  | .ok (some result) =>
    some { system with coordinator := ⟨result.store, system.coordinator.journal⟩ }
  | _ => none

/-- The state after a connection of a manager. -/
def System.connected (config : CoordinatorConfig) (system : System) (domain : ExecutionDomainId)
    (welcome : SessionIdentity × ParticipantSnapshot) : Option System :=
  if welcome.1.domainId = domain then
    (Except.toOption ((system.managers domain).connect config.encoding welcome.1 welcome.2)).map
      fun manager => { system.withManager domain manager with
        welcomes := system.welcomes.erase welcome }
  else none

/-- Make one event happen. -/
def System.play (config : CoordinatorConfig) (system : System) : Event → Option System
  | .connectBegin input hello => some { system with
      coordinator := (machineConnectBegin config input hello system.coordinator).coordinator }
  | .connectFinish input challenge => system.welcomed config input challenge
  | .connect domain position =>
    system.welcomes[position]?.bind (fun welcome => system.connected config domain welcome)
  | .send domain =>
    (Except.toOption (system.managers domain).pending).bind fun queued =>
      queued.map fun request => { system with requests := request :: system.requests }
  | .exchange input position =>
    system.requests[position]?.bind (system.answered config input)
  | .offers input view => system.offered config input view
  | .manager domain move =>
    ((system.managers domain).perform config.encoding system.replies move).map
      (system.withManager domain)

/-- The manager that an event changes. -/
def Event.changes : Event → Option ExecutionDomainId
  | .connect domain _ | .manager domain _ => some domain
  | _ => none

theorem System.connected_eq_some {next : System} {domain : ExecutionDomainId}
    {welcome : SessionIdentity × ParticipantSnapshot}
    (done : system.connected config domain welcome = some next) :
    ∃ manager, welcome.1.domainId = domain ∧
      (system.managers domain).connect config.encoding welcome.1 welcome.2 = .ok manager ∧
      next = { system.withManager domain manager with
        welcomes := system.welcomes.erase welcome } := by
  rw [connected] at done
  split at done
  · next own =>
    obtain ⟨manager, connected, rfl⟩ := Option.map_eq_some_iff.mp done
    exact ⟨manager, own, toOption_eq_some.mp connected, rfl⟩
  · cases done

theorem System.managers_of_quiet {next : System} {event : Event} (quiet : event.changes = none)
    (played : system.play config event = some next) : next.managers = system.managers := by
  cases event with
  | connect | manager => cases quiet
  | connectBegin =>
    cases played
    rfl
  | connectFinish =>
    rw [play, welcomed] at played
    split at played <;> cases played
    rfl
  | send =>
    obtain ⟨_, _, rest⟩ := Option.bind_eq_some_iff.mp played
    obtain ⟨_, _, rfl⟩ := Option.map_eq_some_iff.mp rest
    rfl
  | exchange =>
    obtain ⟨_, _, rest⟩ := Option.bind_eq_some_iff.mp played
    rw [answered] at rest
    split at rest <;> cases rest
    rfl
  | offers =>
    rw [play, offered] at played
    split at played <;> cases played
    rfl

theorem System.step_of_play {next : System} {event : Event}
    (played : system.play config event = some next) : SystemStep config system next := by
  cases event with
  | connectBegin input hello =>
    cases played
    exact .coordinator (.connectBegin trivial)
  | connectFinish input challenge =>
    rw [play, welcomed] at played
    split at played
    · cases played
    · next answered =>
      cases played
      exact .welcome answered
  | connect domain position =>
    rcases Option.bind_eq_some_iff.mp played with ⟨welcome, listed, rest⟩
    obtain ⟨manager, own, done, rfl⟩ := connected_eq_some rest
    exact .connect (List.mem_of_getElem? listed) own done
  | send domain =>
    rcases Option.bind_eq_some_iff.mp played with ⟨queued, found, rest⟩
    rcases Option.map_eq_some_iff.mp rest with ⟨request, rfl, rfl⟩
    exact .send (toOption_eq_some.mp found)
  | exchange input position =>
    rcases Option.bind_eq_some_iff.mp played with ⟨request, listed, rest⟩
    rw [answered] at rest
    split at rest
    · cases rest
    · next answered =>
      cases rest
      exact .reply (List.mem_of_getElem? listed) answered
  | offers input view =>
    rw [play, offered] at played
    split at played
    · next made =>
      cases played
      exact .coordinator (.offers made)
    · cases played
  | manager domain move =>
    rcases Option.map_eq_some_iff.mp played with ⟨manager, done, rfl⟩
    exact .manager (Manager.step_of_perform done)

/-- Run a script. -/
def System.run (config : CoordinatorConfig) (script : List Event) (system : System) :
    Option System :=
  script.foldlM (fun system event => system.play config event) system

theorem System.steps_of_run (ran : system.run config script = some final) :
    Relation.ReflTransGen (SystemStep config) system final :=
  Transition.steps_of_script ran step_of_play

/-- A script from the paired stores leads to a reached state. -/
theorem System.reached_of_run
    (ran : (System.initial config storeUuid).run config script = some final) :
    final.Reached config storeUuid :=
  ⟨_, rfl, steps_of_run ran⟩

end Stillyard
