import Stillyard.Manager.Doubt
import Stillyard.System.Agreement

/-!
# Reports of uncertainty

A manager that reports an allocation as uncertain starts nothing of it any more,
as long as no reply takes the doubt back.  A second arm that was waiting in the
outbox brings such a reply: the coordinator answers it with the Armed Grant.
-/

namespace Stillyard

open Relational Fallible

/-- Whether an event accepts no reviving reply. -/
def System.calm (system : System) : Event → Bool
  | .manager domain (.accept position) => system.replies[position]?.all fun entry =>
    !(system.managers domain).revives entry.2
  | _ => true

/-- Run a script of calm events. -/
def System.runCalmly (config : CoordinatorConfig) (script : List Event) (system : System) :
    Option System :=
  script.foldlM
    (fun system event => if system.calm event then system.play config event else none) system

section Calm

variable {config : CoordinatorConfig} {system next : System}

/-- A move that accepts nothing, or a reply that revives nothing. -/
private theorem cautious_of_perform
    (calm : ∀ position entry, move = .accept position → replies[position]? = some entry →
      manager.revives entry.2 = false) (done : manager.perform encoding replies move = some after) :
    Manager.Cautious encoding manager after := by
  have quiet : ∀ other : Move, manager.perform encoding [] other = some after →
      Manager.Step encoding (fun _ reply => manager.revives reply = false) manager after := by
    intro other performed
    cases Manager.step_of_perform performed with
    | accept heard => cases heard
    | enqueue work done => exact .enqueue work done
    | page idle asked done => exact .page idle asked done
    | reconcile computed done => exact .reconcile computed done
    | sealRelease done => exact .sealRelease done
    | consumeTicket done => exact .consumeTicket done
    | recordCleanup done => exact .recordCleanup done
    | recordUnusedCleanup done => exact .recordUnusedCleanup done
    | acknowledgeAbandoned done => exact .acknowledgeAbandoned done
  apply Manager.Operation.step
  cases move with
  | accept position =>
    rcases Option.bind_eq_some_iff.mp done with ⟨entry, listed, rest⟩
    rcases Option.map_eq_some_iff.mp rest with ⟨⟨_, applied⟩, accepted, rfl⟩
    exact .accept (calm position entry rfl listed) (toOption_eq_some.mp accepted)
  | enqueue operation command => exact quiet (.enqueue operation command) done
  | page operation => exact quiet (.page operation) done
  | reconcile snapshotId operations => exact quiet (.reconcile snapshotId operations) done
  | sealRelease key operation => exact quiet (.sealRelease key operation) done
  | consumeTicket ticket => exact quiet (.consumeTicket ticket) done
  | recordCleanup cleanup => exact quiet (.recordCleanup cleanup) done

theorem System.cautious_of_play (calm : system.calm event = true)
    (played : system.play config event = some next) (domain : ExecutionDomainId) :
    Relation.ReflTransGen (Manager.Cautious config.encoding) (system.managers domain)
      (next.managers domain) := by
  have changed : ∀ {other : ExecutionDomainId} {after : Manager},
      Manager.Cautious config.encoding (system.managers other) after →
        Relation.ReflTransGen (Manager.Cautious config.encoding) (system.managers domain)
          (Function.update system.managers other after domain) := by
    intro other after one
    by_cases same : domain = other
    · subst same
      rw [Function.update_self]
      exact .single one
    · rw [Function.update_of_ne same]
  cases event with
  | connectBegin | connectFinish | send | exchange | offers =>
    rw [managers_of_quiet rfl played]
  | connect other position =>
    obtain ⟨welcome, _, rest⟩ := Option.bind_eq_some_iff.mp played
    obtain ⟨manager, _, done, rfl⟩ := connected_eq_some rest
    exact changed (.connect done)
  | manager other move =>
    rcases Option.map_eq_some_iff.mp played with ⟨manager, done, rfl⟩
    apply changed
    apply cautious_of_perform _ done
    rintro position entry rfl listed
    rw [System.calm, listed, Option.all_some, Bool.not_eq_true'] at calm
    exact calm

/-- A calm script takes every manager along cautious operations. -/
theorem System.cautious_of_run (ran : system.runCalmly config script = some final)
    (domain : ExecutionDomainId) :
    Relation.ReflTransGen (Manager.Cautious config.encoding) (system.managers domain)
      (final.managers domain) := by
  induction script generalizing system with
  | nil =>
    cases ran
    exact .refl
  | cons event rest ih =>
    rcases Option.bind_eq_some_iff.mp ran with ⟨middle, played, others⟩
    dsimp only at played
    split at played
    · next calm => exact (System.cautious_of_play calm played domain).trans (ih others)
    · cases played

end Calm

/-! ## Sticky doubt -/

/-- Local doubt is sticky as long as no reply takes it back: after a report was
queued, no later `consume_ticket` starts anything of the allocation. -/
theorem doubt_is_sticky {encoding : Encoding} {storeUuid operation offerNonce : Uuid}
    {manager doubted later : Manager} {key : AllocationKey} {reason : String} {sequence : Nat}
    (before : Relation.ReflTransGen (Manager.Cautious encoding)
      (Manager.initial storeUuid) manager)
    (queued : manager.enqueue encoding operation (.reportUncertain key offerNonce reason) =
      .ok (doubted, sequence))
    (after : Relation.ReflTransGen (Manager.Cautious encoding) doubted later) :
    ∀ ticket next, ticket.key = key → later.consumeTicket ticket ≠ .ok (next, true) := by
  intro ticket next named
  have earlier := (Manager.Doubtful.start storeUuid).run before
  have reported := Manager.enqueue_remembers earlier.doubtful queued
  have final := reported.doubtful.run after
  rcases Manager.enqueue_waits queued with ⟨number, row, found, asked⟩
  apply Manager.Doubted.refuses final.doubtful
  rw [named]
  exact (reported.queued number row key offerNonce reason found asked).kept final.kept

/-- Queue a report of the allocation under an operation, and go on. -/
def System.reported (system : System) (operation : Uuid) : Option System :=
  (Except.toOption ((system.managers 6).enqueue soloConfig.encoding operation
    (.reportUncertain demoKey 51 "lost"))).map fun queued => system.withManager 6 queued.1

theorem System.reported_eq_some {system : System} (done : system.reported operation = some after) :
    ∃ sequence, (system.managers 6).enqueue soloConfig.encoding operation
      (.reportUncertain demoKey 51 "lost") = .ok (after.managers 6, sequence) ∧
      after = system.withManager 6 (after.managers 6) := by
  rcases Option.map_eq_some_iff.mp done with ⟨⟨manager, sequence⟩, queued, rfl⟩
  have own : (system.withManager 6 manager).managers 6 = manager := by
    simp [withManager]
  refine ⟨sequence, ?_, ?_⟩
  · rw [own]
    exact toOption_eq_some.mp queued
  · rw [own]

theorem demoKey_doubt_is_sticky : ∃ manager doubted later sequence,
    Relation.ReflTransGen (Manager.Cautious soloConfig.encoding)
      (Manager.initial 8) manager ∧
    manager.enqueue soloConfig.encoding 36 (.reportUncertain demoKey 51 "lost") =
      .ok (doubted, sequence) ∧
    Relation.ReflTransGen (Manager.Cautious soloConfig.encoding) doubted later ∧
    ∀ next, later.consumeTicket demoTicket ≠ .ok (next, true) := by
  have ran : ((System.initial soloConfig fun _ => 8).runCalmly soloConfig
      (demoConnects ++ demoOffers ++ demoStarts)).any (fun system => (system.reported 36).any
        fun after => (after.runCalmly soloConfig roundTrip).isSome) = true := by
    decide +kernel
  rcases (Option.any_eq_true _ _).mp ran with ⟨system, earlier, rest⟩
  rcases (Option.any_eq_true _ _).mp rest with ⟨after, reported, others⟩
  rcases Option.isSome_iff_exists.mp others with ⟨final, later⟩
  rcases System.reported_eq_some reported with ⟨sequence, queued, _⟩
  have before := System.cautious_of_run earlier 6
  have onward := System.cautious_of_run later 6
  exact ⟨_, _, _, sequence, before, queued, onward, fun next =>
    doubt_is_sticky before queued onward demoTicket next rfl⟩

/-- A second arm was waiting in the outbox when the report was queued.  Its reply
arms the local Grant again, and the ticket of the allocation is consumed. -/
theorem second_arm_revives_doubt : ∃ (system after later : System) (sequence : Nat)
    (next : Manager),
    system.Reached soloConfig (fun _ => 8) ∧
    (system.managers 6).enqueue soloConfig.encoding 37 (.reportUncertain demoKey 51 "lost") =
      .ok (after.managers 6, sequence) ∧
    after = system.withManager 6 (after.managers 6) ∧
    Relation.ReflTransGen (SystemStep soloConfig) after later ∧
    demoTicket.key = demoKey ∧
    (later.managers 6).consumeTicket demoTicket = .ok (next, true) := by
  have ran : ((System.initial soloConfig fun _ => 8).run soloConfig
      (demoConnects ++ demoOffers ++ demoStarts ++
        [.manager 6 (.enqueue 36 (.arm demoKey 51))])).any (fun system =>
          (system.reported 37).any fun after => (after.run soloConfig roundTrip).any
            fun later => consumes ((later.managers 6).consumeTicket demoTicket)) = true := by
    decide +kernel
  rcases (Option.any_eq_true _ _).mp ran with ⟨system, earlier, rest⟩
  rcases (Option.any_eq_true _ _).mp rest with ⟨after, reported, rest⟩
  rcases (Option.any_eq_true _ _).mp rest with ⟨later, onward, consumed⟩
  rcases System.reported_eq_some reported with ⟨sequence, queued, same⟩
  rcases consumes_eq_true consumed with ⟨next, consumed⟩
  exact ⟨system, after, later, sequence, next, System.reached_of_run earlier, queued, same,
    System.steps_of_run onward, rfl, consumed⟩

end Stillyard
