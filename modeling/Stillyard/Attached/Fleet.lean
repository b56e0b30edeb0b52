import Stillyard.Attached.Effects

/-!
# A coordinator and its attached stores

Each manager of the system is the journal of an attached store.  A transaction of
the store is a run of journal steps, so every run of the fleet is a run of the
coordinator with its managers, and what holds there holds here.
-/

namespace Stillyard

open Relational Fallible

namespace AttachedStore

section Run

variable {encoding : Encoding} {replied : Request → Reply → Prop} {store next : AttachedStore}

theorem Maintains.run (maintains : Maintains encoding replied operation store next) :
    Relation.ReflTransGen (Manager.Step encoding replied) store.manager next.manager := by
  cases maintains with
  | quiet quiet => exact quiet.run
  | ready quiet _ sealed | stale quiet sealed =>
    obtain ⟨manager, sequence, sealing, rfl⟩ := sealRelease_eq_ok sealed
    exact quiet.run.tail (.sealRelease sealing)

/-- A transaction of the store is a run of its journal. -/
theorem Step.run (step : Step encoding replied store next) :
    Relation.ReflTransGen (Manager.Step encoding replied) store.manager next.manager := by
  cases step with
  | offline | native | pruneLeases => exact .refl
  | page idle due done =>
    obtain ⟨manager, sequence, queued, rfl⟩ := enqueue_eq_ok done
    exact .single (.page idle due queued)
  | reconcile computed done => exact .single (.reconcile computed done)
  | maintain _ _ done => exact (maintain_eq_ok done).run
  | accept sent heard done =>
    obtain ⟨manager, accepted, accepts⟩ := @acceptReply_eq_ok encoding replied _ _ _ _ _ _ sent done
    rw [accepts.next]
    exact .head (.accept heard accepts.journal) accepts.follows.run
  | prepare _ done =>
    cases prepare_eq_ok done with
    | idle | reuse => exact .refl
    | create _ _ queued => exact .single (.enqueue rfl queued)
  | insertLease done =>
    simp only [AttachedStore.insertLease, ok_iff] at done
    obtain ⟨_, _, _, _, rfl⟩ := done
    exact .refl
  | releaseLeases done =>
    rw [(releaseLeases_eq_ok done).manager]
  | ticket done => exact (enqueue_quiet rfl rfl done).run
  | consume done => exact .single (.consumeTicket done)
  | cleanup done => exact (recordAttachedCleanup_quiet done).run

end Run

/-- The mode agrees with the journal: the store is connected only after a
completed reconciliation, and then it knows its session and configuration. -/
structure Coupled (store : AttachedStore) : Prop where
  session : store.mode.session = store.manager.session
  connected : store.mode.connected = true → store.manager.session.isSome ∧
    store.manager.recovery = none
  recovered : store.manager.session.isSome → store.manager.recovery = none →
    store.mode.configuration.isSome
  complete : ∀ recovery, store.manager.recovery = some recovery → recovery.complete = true →
    store.mode.configuration.isSome

section Coupled

variable {encoding : Encoding} {replied : Request → Reply → Prop} {store next : AttachedStore}

theorem Coupled.install (storeUuid : Uuid) (native : NativeStore) :
    (install storeUuid native).Coupled :=
  ⟨rfl, nofun, nofun, nofun⟩

/-- The same session, recovery and mode. -/
theorem Coupled.same (coupled : store.Coupled) (mode : next.mode = store.mode)
    (session : next.manager.session = store.manager.session)
    (recovery : next.manager.recovery = store.manager.recovery) : next.Coupled := by
  constructor
  · rw [mode, session]
    exact coupled.session
  · rw [mode, session, recovery]
    exact coupled.connected
  · rw [mode, session, recovery]
    exact coupled.recovered
  · rw [mode, recovery]
    exact coupled.complete

theorem Coupled.quiet (coupled : store.Coupled) (quiet : Quiet encoding replied store next) :
    next.Coupled :=
  coupled.same quiet.mode quiet.still.session quiet.still.recovery

theorem Coupled.seals (coupled : store.Coupled)
    (sealed : store.sealRelease encoding operation key = .ok next) : next.Coupled := by
  obtain ⟨manager, sequence, sealing, rfl⟩ := sealRelease_eq_ok sealed
  have seals := Manager.sealRelease_sealsOnly sealing
  exact coupled.same rfl seals.session seals.recovery

theorem Coupled.connect {session : SessionIdentity} {participant : ParticipantSnapshot}
    (done : store.connect encoding session participant = .ok next) : next.Coupled := by
  simp only [AttachedStore.connect, ok_iff, mapError_eq_ok] at done
  obtain ⟨manager, connected, rfl⟩ := done
  have shape := (Manager.connect_eq_ok connected).shape
  constructor
  · rw [shape]
  · nofun
  · intro _ recovered
    rw [shape] at recovered
    cases recovered
  · intro recovery found complete
    rw [shape] at found
    cases found
    cases complete

theorem Coupled.accept {now : Int} {request : Request} {reply : Reply} (coupled : store.Coupled)
    (sent : store.manager.pending = .ok (some request))
    (done : store.acceptReply encoding now operation request reply = .ok next) : next.Coupled := by
  obtain ⟨manager, accepted, accepts⟩ :=
    @acceptReply_eq_ok encoding (fun _ _ => True) _ _ _ _ _ _ sent done
  have follows := accepts.follows
  obtain ⟨impossible, _⟩ | ⟨_, applies⟩ := Manager.accept_eq_ok accepts.journal
  · cases impossible
  obtain ⟨middle, outcome, shape⟩ := applies.applied
  have took := Manager.acceptOutcome_eq_ok outcome
  have recovers := took.recovers
  have sameSession : next.manager.session = store.manager.session := by
    rw [accepts.next, follows.still.session]
    rw [shape, Manager.recordAnswer, took.shape]
  have sameRecovery : next.manager.recovery = middle.recovery := by
    rw [accepts.next, follows.still.recovery]
    simp [shape, Manager.recordAnswer]
  have known : store.manager.session.isSome := by rw [applies.session]; rfl
  have mode : next.mode = LocalMode.hear store.mode reply.outcome := by
    rw [accepts.next, follows.mode]
  -- Every outcome but a page or a reconciliation leaves the recovery alone.
  have plain : Manager.Recovers store.manager middle reply.outcome →
      LocalMode.hear store.mode reply.outcome = store.mode →
      middle.recovery = store.manager.recovery → next.Coupled :=
    fun _ same recovery => coupled.same (mode.trans same) sameSession (sameRecovery.trans recovery)
  cases heard : reply.outcome with
  | inventoryPage grants cursor configuration =>
    rw [heard] at recovers mode
    constructor
    · rw [mode, sameSession]
      exact coupled.session
    · intro connected
      rw [mode] at connected
      rw [sameSession, sameRecovery]
      obtain ⟨bound, none_⟩ := coupled.connected connected
      exact ⟨bound, recovers none_⟩
    · rw [mode]
      exact fun _ _ => rfl
    · rw [mode]
      exact fun _ _ _ => rfl
  | reconciled sequence released =>
    rw [heard] at recovers mode
    have configured : store.mode.configuration.isSome := by
      cases recovery : store.manager.recovery with
      | none => exact coupled.recovered known recovery
      | some recovery_ => exact coupled.complete _ recovery (recovers.2 _ recovery)
    constructor
    · rw [mode, sameSession]
      exact coupled.session
    · rw [sameSession, sameRecovery]
      exact fun _ => ⟨known, recovers.1⟩
    · rw [mode]
      exact fun _ _ => configured
    · rw [mode]
      exact fun _ _ _ => configured
  | grant | ticket | released | acknowledged | accepted | inspection | rejected =>
    rw [heard] at recovers plain
    exact plain recovers rfl recovers

theorem Coupled.step (coupled : store.Coupled) (step : Step encoding replied store next) :
    next.Coupled := by
  cases step with
  | offline =>
    exact ⟨coupled.session, nofun, coupled.recovered, coupled.complete⟩
  | page _ due done =>
    obtain ⟨manager, sequence, queued, rfl⟩ := enqueue_eq_ok done
    have still := Manager.enqueue_still (Manager.nextPage_quiet due) queued
    exact coupled.same rfl still.session still.recovery
  | reconcile computed done =>
    have still := Manager.enqueueAll_still (fun operation member =>
      Manager.reconciliation_quiet computed _ (List.mem_map_of_mem member)) done
    exact coupled.same rfl still.session still.recovery
  | maintain _ _ done =>
    cases @maintain_eq_ok encoding replied _ _ _ _ _ done with
    | quiet quiet => exact coupled.quiet quiet
    | ready quiet _ sealed => exact (coupled.quiet quiet).seals sealed
    | stale quiet sealed =>
      apply Coupled.seals _ sealed
      exact (coupled.quiet quiet).same rfl rfl rfl
  | accept sent _ done => exact coupled.accept sent done
  | prepare _ done =>
    cases prepare_eq_ok done with
    | idle => exact coupled
    | reuse => exact coupled.same rfl rfl rfl
    | create _ _ queued =>
      have still := Manager.enqueue_still rfl queued
      exact coupled.same rfl still.session still.recovery
  | insertLease done =>
    simp only [AttachedStore.insertLease, ok_iff] at done
    obtain ⟨_, _, _, _, rfl⟩ := done
    exact coupled.same rfl rfl rfl
  | releaseLeases done =>
    have releases := releaseLeases_eq_ok done
    exact coupled.same releases.mode (by rw [releases.manager]) (by rw [releases.manager])
  | pruneLeases | native => exact coupled.same rfl rfl rfl
  | ticket done => exact coupled.quiet (@enqueue_quiet encoding replied _ _ _ _ rfl rfl done)
  | consume done =>
    have still := (Manager.consumeTicket_marks done).still
    exact coupled.same rfl still.session still.recovery
  | cleanup done =>
    exact coupled.quiet (@recordAttachedCleanup_quiet encoding replied _ _ _ _ _ done)

end Coupled

end AttachedStore

theorem Manager.Numbered.run {encoding : Encoding} {replied : Request → Reply → Prop}
    {manager next : Manager} (numbered : manager.Numbered)
    (run : Relation.ReflTransGen (Manager.Step encoding replied) manager next) : next.Numbered := by
  induction run with
  | refl => exact numbered
  | tail _ last before => exact (last.numbers before).1

/-! ## The fleet -/

/-- The coordinator, the attached stores, and every message that was sent so
far. -/
structure Fleet where
  coordinator : Coordinator
  stores : ExecutionDomainId → AttachedStore
  requests : List Request
  replies : List (Request × Reply)
  welcomes : List (SessionIdentity × ParticipantSnapshot)

namespace Fleet

/-- The coordinator with the journals of the stores. -/
def system (fleet : Fleet) : System where
  coordinator := fleet.coordinator
  managers domain := (fleet.stores domain).manager
  requests := fleet.requests
  replies := fleet.replies
  welcomes := fleet.welcomes

/-- Newly installed attachments. -/
def initial (config : CoordinatorConfig) (storeUuid : ExecutionDomainId → Uuid)
    (native : ExecutionDomainId → NativeStore) : Fleet where
  coordinator := .initial config
  stores domain := .install (storeUuid domain) (native domain)
  requests := []
  replies := []
  welcomes := []

/-- `install_attached_configuration` refuses a store with granted Leases. -/
def Installed (config : CoordinatorConfig) (storeUuid : ExecutionDomainId → Uuid)
    (fleet : Fleet) : Prop :=
  ∃ native : ExecutionDomainId → NativeStore,
    (∀ domain id row, (native domain).leases.get? id = some row → row.state = .released) ∧
      fleet = initial config storeUuid native

/-- One transaction or one message. -/
inductive Step (config : CoordinatorConfig) : Fleet → Fleet → Prop where
  | remote (one : SystemStep config fleet.system next)
      (same : next.managers = fleet.system.managers) :
      Step config fleet { fleet with
        coordinator := next.coordinator
        requests := next.requests
        replies := next.replies
        welcomes := next.welcomes }
  | connect {next : AttachedStore} (heard : (session, participant) ∈ fleet.welcomes)
      (own : session.domainId = domain)
      (done : (fleet.stores domain).connect config.encoding session participant = .ok next) :
      Step config fleet { fleet with
        stores := Function.update fleet.stores domain next
        welcomes := fleet.welcomes.erase (session, participant) }
  | store {next : AttachedStore} (one : AttachedStore.Step config.encoding
        (fun request reply => (request, reply) ∈ fleet.replies) (fleet.stores domain) next) :
      Step config fleet { fleet with stores := Function.update fleet.stores domain next }

/-- The states of a run from newly installed attachments. -/
def Reached (config : CoordinatorConfig) (storeUuid : ExecutionDomainId → Uuid) : Fleet → Prop :=
  Transition.Reachable (Installed config storeUuid) (Step config)

section Reached

variable {config : CoordinatorConfig} {storeUuid : ExecutionDomainId → Uuid} {fleet next : Fleet}

private theorem managers_update (fleet : Fleet) (domain : ExecutionDomainId)
    (store : AttachedStore) :
    (fun other => (Function.update fleet.stores domain store other).manager) =
      Function.update fleet.system.managers domain store.manager := by
  funext other
  by_cases same : other = domain
  · subst same
    simp
  · simp [Function.update_of_ne same, system]

/-- A run of one journal is a run of the system. -/
theorem systemRun {system : System} {domain : ExecutionDomainId} {manager : Manager}
    (run : Relation.ReflTransGen (Manager.Step config.encoding
      fun request reply => (request, reply) ∈ system.replies) (system.managers domain) manager) :
    Relation.ReflTransGen (SystemStep config) system
      { system with managers := Function.update system.managers domain manager } := by
  induction run with
  | refl =>
    rw [Function.update_eq_self]
  | tail _ one hypothesis =>
    apply hypothesis.tail
    have step := @SystemStep.manager config _
      { system with managers := Function.update system.managers domain _ } domain
      (by simpa only [Function.update_self] using one)
    simpa only [Function.update_idem] using step

/-- A step of the fleet is a run of the coordinator with its managers. -/
theorem Step.system (step : Step config fleet next) :
    Relation.ReflTransGen (SystemStep config) fleet.system next.system := by
  cases step with
  | remote one same =>
    have shape : ∀ after : System, after.managers = fleet.system.managers →
        ({ fleet with
          coordinator := after.coordinator
          requests := after.requests
          replies := after.replies
          welcomes := after.welcomes } : Fleet).system = after := by
      rintro ⟨coordinator, managers, requests, replies, welcomes⟩ rfl
      rfl
    rw [shape _ same]
    exact .single one
  | @connect session participant domain _ store heard own done =>
    simp only [AttachedStore.connect, ok_iff, mapError_eq_ok] at done
    obtain ⟨manager, connected, rfl⟩ := done
    have step := @SystemStep.connect config session participant domain fleet.system manager heard
      own connected
    simp only [Fleet.system, managers_update] at step ⊢
    exact .single step
  | @store _ domain store one =>
    have run := @systemRun config fleet.system domain store.manager one.run
    simp only [Fleet.system, managers_update] at run ⊢
    exact run

theorem Reached.system (reached : fleet.Reached config storeUuid) :
    fleet.system.Reached config storeUuid := by
  obtain ⟨start, ⟨native, _, rfl⟩, run⟩ := reached
  induction run with
  | refl => exact .start rfl
  | tail _ step before => exact before.trans step.system

/-- A store stays as it is, connects, or makes a transaction of its own. -/
theorem Step.stores (step : Step config fleet next) (domain : ExecutionDomainId) :
    next.stores domain = fleet.stores domain ∨
      (∃ session participant, session.domainId = domain ∧
        (fleet.stores domain).connect config.encoding session participant =
          .ok (next.stores domain)) ∨
      AttachedStore.Step config.encoding (fun request reply => (request, reply) ∈ fleet.replies)
        (fleet.stores domain) (next.stores domain) := by
  cases step with
  | remote => exact .inl rfl
  | @connect session participant other _ store heard own done =>
    by_cases same : domain = other
    · subst same
      exact .inr (.inl ⟨session, participant, own, by simpa only [Function.update_self] using done⟩)
    · exact .inl (Function.update_of_ne same _ _)
  | @store _ other store one =>
    by_cases same : domain = other
    · subst same
      exact .inr (.inr (by simpa only [Function.update_self] using one))
    · exact .inl (Function.update_of_ne same _ _)

theorem Reached.coupled (reached : fleet.Reached config storeUuid) (domain : ExecutionDomainId) :
    (fleet.stores domain).Coupled := by
  obtain ⟨start, ⟨native, _, rfl⟩, run⟩ := reached
  induction run with
  | refl => exact .install _ _
  | tail _ step coupled =>
    obtain same | ⟨_, _, _, done⟩ | one := step.stores domain
    · rw [same]
      exact coupled
    · exact .connect done
    · exact coupled.step one

theorem Reached.numbered (reached : fleet.Reached config storeUuid) (domain : ExecutionDomainId) :
    (fleet.stores domain).manager.Numbered := by
  obtain ⟨start, ⟨native, _, rfl⟩, run⟩ := reached
  induction run with
  | refl => exact .start _
  | tail _ step numbered =>
    obtain same | ⟨_, _, _, done⟩ | one := step.stores domain
    · rw [same]
      exact numbered
    · simp only [AttachedStore.connect, ok_iff, mapError_eq_ok] at done
      obtain ⟨manager, connected, shape⟩ := done
      rw [← shape]
      exact Manager.connect_numbers numbered connected
    · exact numbered.run one.run

end Reached

end Fleet

end Stillyard
