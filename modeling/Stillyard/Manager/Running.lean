import Stillyard.Manager.Doubt

/-!
# Local Grants that may run

A local Grant comes to run only because a reply or the recovered inventory shows
it.  Once it was armed it stays armed, uncertain or released, and it becomes
released only under a seal, when a reply says so.
-/

namespace Stillyard.Manager

open Relational Fallible

variable {sequence : Nat} {key : AllocationKey} {grant : GrantSnapshot}
  {grants : List GrantSnapshot} {session : SessionIdentity} {request : Request}

/-! ## Steps that leave the Grants alone -/

/-- The session, the recovery, the inventory and the local Grants are the same. -/
structure Still (manager next : Manager) : Prop where
  session : next.session = manager.session
  recovery : next.recovery = manager.recovery
  inventory : next.inventory = manager.inventory
  grants : next.grants = manager.grants

section Still

variable {encoding : Encoding} {manager middle next : Manager}

theorem Still.refl (manager : Manager) : Still manager manager := ⟨rfl, rfl, rfl, rfl⟩

theorem Still.trans (earlier : Still manager middle) (later : Still middle next) :
    Still manager next :=
  ⟨later.session.trans earlier.session, later.recovery.trans earlier.recovery,
    later.inventory.trans earlier.inventory, later.grants.trans earlier.grants⟩

/-- The command reports uncertainty. -/
def reports : Command → Bool
  | .reportUncertain .. => true
  | _ => false

theorem enqueue_still (quiet : reports command = false)
    (done : manager.enqueue encoding operation command = .ok (next, sequence)) :
    Still manager next := by
  obtain ⟨rfl, _⟩ | enqueued := enqueue_eq_ok done
  · exact .refl _
  · obtain ⟨grants, reported, rfl⟩ := enqueued.shape
    have same : grants = manager.grants := by
      cases command with
      | reportUncertain => cases quiet
      | _ => exact (congrArg Manager.grants (Except.ok.inj reported)).symm
    exact ⟨rfl, rfl, rfl, same⟩

theorem enqueueAll_still (quiet : ∀ operation ∈ operations, reports operation.2 = false)
    (done : manager.enqueueAll encoding operations = .ok next) : Still manager next := by
  refine foldlM_invariant (Still manager) ?_ (.refl _) done
  intro state operation queued member still round
  obtain ⟨result, enqueued, rfl⟩ := map_eq_ok.mp round
  exact still.trans (enqueue_still (quiet operation member) enqueued)

theorem nextPage_quiet (due : manager.nextPage = .ok (some command)) : reports command = false := by
  simp only [nextPage, ok_iff] at due
  obtain ⟨recovery, _, due⟩ := due
  split at due
  · cases due
  · obtain rfl := Option.some.inj due
    rfl

theorem reconciliation_quiet {commands : List Command}
    (computed : manager.reconciliation encoding snapshotId = .ok commands) :
    ∀ command ∈ commands, reports command = false := by
  simp only [reconciliation, ok_iff] at computed
  obtain ⟨_, _, _, _, pages, _, _, _, _, _, rfl⟩ := computed
  intro command member
  simp only [List.cons_append, List.nil_append, List.mem_cons, List.mem_append, List.mem_map,
    List.not_mem_nil, or_false] at member
  obtain rfl | ⟨page, _, rfl⟩ | rfl := member <;> rfl

theorem Marked.still (marks : Marked manager next) : Still manager next := by
  cases marks <;> exact ⟨rfl, rfl, rfl, rfl⟩

/-- A release is sealed: only the seal of its allocation is new. -/
structure Seals (key : AllocationKey) (manager next : Manager) : Prop where
  session : next.session = manager.session
  recovery : next.recovery = manager.recovery
  inventory : next.inventory = manager.inventory
  grants : ∀ other, (next.grants.get? other).map LocalGrant.grant =
    (manager.grants.get? other).map LocalGrant.grant
  seals : ∀ other, other ≠ key → sealAt next.grants other = sealAt manager.grants other

theorem Still.seals (still : Still manager next) (key : AllocationKey) : Seals key manager next :=
  ⟨still.session, still.recovery, still.inventory, fun _ => by rw [still.grants],
    fun _ _ => by rw [still.grants]⟩

theorem sendSeal_still (done : manager.sendSeal encoding operation release = .ok (next, sequence)) :
    Still manager next := by
  unfold sendSeal at done
  split at done
  · cases done
    exact .refl _
  · exact enqueue_still rfl done

theorem sealRelease_sealsOnly
    (done : manager.sealRelease encoding key operation = .ok (next, sequence)) :
    Seals key manager next := by
  obtain ⟨_, _, row, release, found, ⟨_, sent⟩ | ⟨_, proofs, _, rfl, sent⟩⟩ :=
    sealRelease_eq_ok done
  · exact (sendSeal_still sent).seals key
  · have still := sendSeal_still sent
    constructor
    · exact still.session
    · exact still.recovery
    · exact still.inventory
    · intro other
      rw [still.grants]
      simp only [withSeal, Table.get?_set]
      split
      next same => rw [same, found, Option.map_some, Option.map_some]
      next => rfl
    · intro other different
      rw [still.grants]
      simp only [withSeal, sealAt, Table.get?_set, different, ↓reduceIte]

end Still

/-- Released local Grants are sealed. -/
def Settled (grants : Table AllocationKey LocalGrant) : Prop :=
  ∀ key row, grants.get? key = some row → row.grant.state = .released →
    row.sealedRelease.isSome = true

/-- A change of the local Grants; `shown` are the Grants that a reply shows, and
`confirmed` the releases that it confirms. -/
structure GrantsFollow (shown : GrantSnapshot → Prop) (confirmed : AllocationKey → Prop)
    (before after : Table AllocationKey LocalGrant) : Prop where
  keyed : LocalKeyed after
  running : ∀ key row, after.get? key = some row → row.grant.state.mayRun = true →
    (∃ old, before.get? key = some old ∧ old.grant.state.mayRun = true) ∨
      ∃ grant, shown grant ∧ grant.candidate.key = key ∧ grant.state.mayRun = true
  held : ∀ key old, before.get? key = some old → old.grant.state.held = true →
    ∃ row, after.get? key = some row ∧ row.grant.state.held = true
  released : ∀ key row, after.get? key = some row → row.grant.state = .released →
    (∃ old, before.get? key = some old ∧ old.grant.state = .released) ∨ confirmed key
  settled : Settled after

/-- What is known about the local Grants and the recovered inventory. -/
structure Running (manager : Manager) : Prop where
  keyed : LocalKeyed manager.grants
  settled : Settled manager.grants
  inventory : ∀ key grant, manager.inventory.get? key = some grant →
    grant.candidate.key = key ∧ grant.state.outstanding = true

section GrantsFollow

variable {shown : GrantSnapshot → Prop} {confirmed : AllocationKey → Prop}
  {before middle : Table AllocationKey LocalGrant} {key : AllocationKey} {row : LocalGrant}

theorem GrantsFollow.refl (keyed : LocalKeyed before) (settled : Settled before) :
    GrantsFollow shown confirmed before before where
  keyed := keyed
  running _ row found runs := .inl ⟨row, found, runs⟩
  held _ row found held := ⟨row, found, held⟩
  released _ row found released := .inl ⟨row, found, released⟩
  settled := settled

/-- Writing one more row after a change. -/
theorem GrantsFollow.set (follows : GrantsFollow shown confirmed before middle)
    (own : row.grant.candidate.key = key) (running : row.grant.state.mayRun = true →
      (∃ old, before.get? key = some old ∧ old.grant.state.mayRun = true) ∨
        ∃ grant, shown grant ∧ grant.candidate.key = key ∧ grant.state.mayRun = true)
    (held : ∀ old, before.get? key = some old → old.grant.state.held = true →
      row.grant.state.held = true)
    (released : row.grant.state = .released → row.sealedRelease.isSome = true ∧
      ((∃ old, before.get? key = some old ∧ old.grant.state = .released) ∨ confirmed key)) :
    GrantsFollow shown confirmed before (middle.set key row) := by
  constructor
  · intro other found lookup
    obtain ⟨rfl, rfl⟩ | ⟨_, before⟩ := Table.get?_set_eq_some.mp lookup
    · exact own
    · exact follows.keyed other found before
  · intro other found lookup runs
    obtain ⟨rfl, rfl⟩ | ⟨_, before⟩ := Table.get?_set_eq_some.mp lookup
    · exact running runs
    · exact follows.running other found before runs
  · intro other old found keeps
    rw [Table.get?_set]
    split
    next same =>
      rw [same] at found
      exact ⟨row, rfl, held old found keeps⟩
    next => exact follows.held other old found keeps
  · intro other found lookup done
    obtain ⟨rfl, rfl⟩ | ⟨_, before⟩ := Table.get?_set_eq_some.mp lookup
    · exact (released done).2
    · exact follows.released other found before done
  · intro other found lookup done
    obtain ⟨rfl, rfl⟩ | ⟨_, before⟩ := Table.get?_set_eq_some.mp lookup
    · exact (released done).1
    · exact follows.settled other found before done

/-- Writing a row over one in the same state. -/
theorem GrantsFollow.set_same (keyed : LocalKeyed before) (settled : Settled before)
    (found : before.get? key = some old) (candidate : row.grant.candidate = old.grant.candidate)
    (state : row.grant.state = old.grant.state)
    (sealed : old.sealedRelease.isSome = true → row.sealedRelease.isSome = true) :
    GrantsFollow shown confirmed before (before.set key row) := by
  apply (GrantsFollow.refl keyed settled).set
  · rw [candidate]
    exact keyed key old found
  · rw [state]
    exact fun runs => .inl ⟨old, found, runs⟩
  · intro other lookup held
    obtain rfl := Option.some.inj (found.symm.trans lookup)
    rw [state]
    exact held
  · rw [state]
    exact fun released => ⟨sealed (settled key old found released), .inl ⟨old, found, released⟩⟩

/-- Writing a row that is released under a seal. -/
theorem GrantsFollow.set_released (follows : GrantsFollow shown confirmed before middle)
    (own : row.grant.candidate.key = key) (state : row.grant.state = .released)
    (sealed : row.sealedRelease.isSome = true) (confirms : confirmed key) :
    GrantsFollow shown confirmed before (middle.set key row) := by
  apply follows.set own
  · rw [state]
    exact fun runs => (nomatch runs)
  · rw [state]
    exact fun _ _ _ => rfl
  · exact fun _ => ⟨sealed, .inr confirms⟩

/-- Writing a row that is not released and that was told to run. -/
theorem GrantsFollow.set_shown (follows : GrantsFollow shown confirmed before middle)
    (shows : shown grant) (own : grant.candidate.key = key)
    (sameKey : row.grant.candidate.key = key) (state : row.grant.state = grant.state)
    (unreleased : grant.state ≠ .released)
    (held : ∀ old, before.get? key = some old → old.grant.state.held = true →
      grant.state.held = true) : GrantsFollow shown confirmed before (middle.set key row) := by
  apply follows.set sameKey
  · rw [state]
    exact fun runs => .inr ⟨grant, shows, own, runs⟩
  · rw [state]
    exact held
  · rw [state]
    exact fun released => absurd released unreleased

end GrantsFollow

/-- The Grants that a reply shows, or the pages before it. -/
def Shown (manager : Manager) (outcome : Outcome) (grant : GrantSnapshot) : Prop :=
  grant ∈ outcome.shows ∨ ∃ key, manager.inventory.get? key = some grant

/-- The releases that a reply confirms. -/
def Confirms (request : Request) (outcome : Outcome) (key : AllocationKey) : Prop :=
  (∃ release grantId sequence, request.command = .release release ∧ release.key = key ∧
      outcome = .released grantId sequence) ∨
    (∃ sequence released, outcome = .reconciled sequence released ∧ key ∈ released) ∨
    ∃ grants configuration, outcome = .inventoryPage grants none configuration

section Replies

variable {encoding : Encoding} {manager next : Manager} {shown : GrantSnapshot → Prop}
  {confirmed : AllocationKey → Prop}
variable {stored : Table AllocationKey LocalGrant} {outcome : Outcome}

theorem find?_localGrants_of_none (keyed : LocalKeyed manager.grants)
    (absent : manager.grants.get? key = none) :
    (manager.localGrants.find? fun known => known.candidate.key = key) = none := by
  rw [List.find?_eq_none]
  intro grant member named
  obtain ⟨other, row, found, rfl⟩ := mem_localGrants.mp member
  rw [decide_eq_true_eq, keyed other row found] at named
  rw [named, absent] at found
  cases found

/-- Importing a Grant that the inventory shows. -/
theorem GrantsFollow.imported (keyed : LocalKeyed manager.grants)
    (follows : GrantsFollow shown confirmed manager.grants stored) (shows : shown grant)
    (outstanding : grant.state.outstanding = true) (known : manager.importKnown
      (manager.localGrants.find? fun known => known.candidate.key = grant.candidate.key) grant =
        .ok ()) :
    GrantsFollow shown confirmed manager.grants (storeGrant stored (importedGrant
      (manager.localGrants.find? fun known =>
        known.candidate.key = grant.candidate.key) grant)) := by
  have unreleased : grant.state ≠ .released := by
    intro released
    rw [released] at outstanding
    cases outstanding
  rw [storeGrant, importedGrant_candidate]
  cases found : manager.grants.get? grant.candidate.key with
  | none =>
    -- Without a local record nothing is compared or kept.
    have plain : importedGrant
        (manager.localGrants.find? fun known => known.candidate.key = grant.candidate.key)
          grant = grant := by
      rw [find?_localGrants_of_none keyed found]
      rfl
    rw [plain]
    apply follows.set_shown shows rfl rfl rfl unreleased
    intro old lookup
    rw [found] at lookup
    cases lookup
  | some old =>
    rw [find?_localGrants keyed found] at known ⊢
    simp only [importKnown, require_eq_ok, test_iff,
      Bool.not_eq_true', Bool.and_eq_false_iff, decide_eq_false_iff_not] at known
    obtain ⟨⟨⟨_, unsettled⟩, kept⟩, _⟩ := known
    have held : old.grant.state.held = true → grant.state.held = true := by
      intro held
      cases state : old.grant.state <;> cases shownState : grant.state <;>
        simp_all [GrantState.held, GrantState.mayRun, GrantState.outstanding]
    by_cases doubt : old.grant.state = .uncertain
    · rw [importedGrant, if_pos doubt]
      apply follows.set (by rfl)
      · exact fun _ => .inl ⟨old, found, by rw [doubt]; rfl⟩
      · exact fun _ _ _ => rfl
      · intro released
        cases released
    · rw [importedGrant, if_neg doubt]
      apply follows.set_shown shows rfl rfl rfl unreleased
      intro other lookup
      obtain rfl := Option.some.inj (found.symm.trans lookup)
      exact held

/-- What a reply does to local Grants and inventory. -/
structure Follows (shown : GrantSnapshot → Prop) (confirmed : AllocationKey → Prop)
    (manager next : Manager) : Prop where
  grants : GrantsFollow shown confirmed manager.grants next.grants
  inventory : ∀ key grant, next.inventory.get? key = some grant →
    (grant.candidate.key = key ∧ grant.state.outstanding = true) ∧ shown grant

theorem Follows.running (follows : Follows shown confirmed manager next) : next.Running :=
  ⟨follows.grants.keyed, follows.grants.settled,
    fun key grant found => (follows.inventory key grant found).1⟩

/-- The inventory stays, and its Grants were shown before. -/
theorem Running.follows (running : manager.Running)
    (shows : ∀ key grant, manager.inventory.get? key = some grant → shown grant)
    (inventory : next.inventory = manager.inventory)
    (grants : GrantsFollow shown confirmed manager.grants next.grants) :
    Follows shown confirmed manager next := by
  refine ⟨grants, ?_⟩
  intro key grant found
  rw [inventory] at found
  exact ⟨running.inventory key grant found, shows key grant found⟩

theorem Written.follows (running : manager.Running)
    (runs : ∀ grant, outcome = .grant grant → grant.state.mayRun = true)
    (written : Written manager request outcome stored) :
    GrantsFollow (manager.Shown outcome) (Confirms request outcome) manager.grants stored := by
  induction written with
  | same => exact .refl running.keyed running.settled
  | @granted grant owns =>
    have mayRun := runs grant rfl
    have shows : manager.Shown (.grant grant) grant := .inl (List.mem_singleton.mpr rfl)
    apply (GrantsFollow.refl running.keyed running.settled).set_shown shows rfl rfl rfl
    · intro released
      rw [released] at mayRun
      cases mayRun
    · exact fun _ _ _ => GrantState.held_of_mayRun mayRun
  | noted found =>
    apply GrantsFollow.set_same running.keyed running.settled found
    · simp only [withIntent]
      split <;> rfl
    · simp only [withIntent]
      split <;> rfl
    · exact id
  | @released release grantId row sequence asked found sealed =>
    apply (GrantsFollow.refl running.keyed running.settled).set_released
    · exact running.keyed _ row found
    · rfl
    · exact Option.isSome_of_eq_some sealed
    · exact .inl ⟨release, grantId, sequence, asked, rfl, rfl⟩
  | @imported _ _ _ key grant _ listed known ih =>
    obtain old | staged := listed
    · exact (ih runs).imported running.keyed (.inr ⟨key, old⟩) (running.inventory key grant old).2
        known
    · exact (ih runs).imported running.keyed (.inl staged.listed) staged.outstanding known
  | omitted _ _ _ _ ih => exact (ih runs).set_released rfl rfl rfl (.inr (.inr ⟨_, _, rfl⟩))
  | @settled released _ sequence key row _ _ member found _ ih =>
    have follows := ih runs
    exact follows.set_released (follows.keyed key row found) rfl rfl
      (.inr (.inl ⟨sequence, released, rfl, member⟩))

theorem acceptOutcome_follows (running : manager.Running)
    (runs : ∀ grant, outcome = .grant grant → grant.state.mayRun = true)
    (accepted : Accepted request outcome manager next) :
    Follows (manager.Shown outcome) (Confirms request outcome) manager next := by
  refine ⟨accepted.written.follows running runs, ?_⟩
  intro key grant found
  obtain old | ⟨grants, cursor, configuration, rfl, staged⟩ := accepted.inventory key grant found
  · exact ⟨running.inventory key grant old, .inr ⟨key, old⟩⟩
  · exact ⟨⟨staged.keyed, staged.outstanding⟩, .inl staged.listed⟩

/-- A reply whose Grants may run. -/
theorem accept_follows {applied : Bool} (running : manager.Running)
    (runs : ∀ grant, reply.outcome = .grant grant → grant.state.mayRun = true)
    (done : manager.accept encoding request reply = .ok (next, applied)) :
    Follows (manager.Shown reply.outcome) (Confirms request reply.outcome) manager next := by
  obtain ⟨_, rfl⟩ | ⟨_, applies⟩ := accept_eq_ok done
  · exact running.follows (fun key _ found => .inr ⟨key, found⟩) rfl
      (.refl running.keyed running.settled)
  · obtain ⟨middle, accepted, rfl⟩ := applies.applied
    have follows := acceptOutcome_follows running runs (acceptOutcome_eq_ok accepted)
    exact ⟨follows.grants, follows.inventory⟩

end Replies

/-- The Grants that some reply shows, or the pages of the inventory. -/
def Heard (replied : Request → Reply → Prop) (manager : Manager) (grant : GrantSnapshot) : Prop :=
  (∃ request reply, replied request reply ∧ grant ∈ reply.outcome.shows) ∨
    ∃ key, manager.inventory.get? key = some grant

section Steps

variable {encoding : Encoding} {replied : Request → Reply → Prop} {manager next : Manager}
  {shown : GrantSnapshot → Prop} {confirmed : AllocationKey → Prop}

theorem GrantsFollow.mono (follows : GrantsFollow shown confirmed before after)
    (shows : ∀ grant, shown grant → wider grant) (confirms : ∀ key, confirmed key → looser key) :
    GrantsFollow wider looser before after where
  keyed := follows.keyed
  running key row found runs := by
    obtain old | ⟨grant, shown, rest⟩ := follows.running key row found runs
    · exact .inl old
    · exact .inr ⟨grant, shows grant shown, rest⟩
  held := follows.held
  released key row found done := (follows.released key row found done).imp id (confirms key)
  settled := follows.settled

section Local

variable (running : manager.Running)
  (shows : ∀ key grant, manager.inventory.get? key = some grant → shown grant)

include running shows

/-- A transaction that leaves Grants and inventory alone. -/
theorem Still.follows (still : Still manager next) : Follows shown confirmed manager next := by
  apply running.follows shows still.inventory
  rw [still.grants]
  exact .refl running.keyed running.settled

/-- A report of uncertainty keeps a Grant among those that may run. -/
theorem Enqueued.follows (enqueued : Enqueued operation command manager next) :
    Follows shown confirmed manager next := by
  obtain ⟨grants, locally, rfl⟩ := enqueued.shape
  obtain ⟨_, same, changed⟩ := reportLocally_eq_ok locally
  cases same
  apply running.follows shows
  · rfl
  · have initially : GrantsFollow shown confirmed manager.grants manager.grants :=
      .refl running.keyed running.settled
    obtain unchanged | ⟨key, _, _, row, _, found, _, _, mayRun, changed⟩ := changed
    · dsimp only
      rw [unchanged]
      exact initially
    · dsimp only
      rw [changed]
      apply initially.set
      · exact running.keyed key row found
      · exact fun _ => .inl ⟨row, found, mayRun⟩
      · exact fun _ _ _ => rfl
      · exact fun released => (nomatch released)

theorem enqueue_follows (done : manager.enqueue encoding operation command = .ok (next, sequence)) :
    Follows shown confirmed manager next := by
  obtain ⟨rfl, _⟩ | enqueued := enqueue_eq_ok done
  · exact (Still.refl _).follows running shows
  · exact enqueued.follows running shows

theorem sealRelease_follows
    (done : manager.sealRelease encoding key operation = .ok (next, sequence)) :
    Follows shown confirmed manager next := by
  obtain ⟨_, _, row, release, found, ⟨_, sent⟩ | ⟨_, proofs, _, rfl, sent⟩⟩ :=
    sealRelease_eq_ok done
  · exact (sendSeal_still sent).follows running shows
  · have still := sendSeal_still sent
    apply running.follows shows still.inventory
    rw [still.grants]
    exact .set_same running.keyed running.settled found rfl rfl fun _ => rfl

end Local

theorem Step.follows (running : manager.Running) (runs : ∀ request reply, replied request reply →
      ∀ grant, reply.outcome = .grant grant → grant.state.mayRun = true)
    (step : Step encoding replied manager next) :
    Follows (Heard replied manager) (fun _ => True) manager next := by
  have shows : ∀ key grant, manager.inventory.get? key = some grant →
      Heard replied manager grant := fun key _ found => .inr ⟨key, found⟩
  cases step with
  | enqueue _ done | page _ _ done => exact enqueue_follows running shows done
  | reconcile computed done =>
    have quiet := reconciliation_quiet computed
    apply (enqueueAll_still _ done).follows running shows
    exact fun operation member => quiet _ (List.mem_map_of_mem member)
  | sealRelease done => exact sealRelease_follows running shows done
  | @accept reply _ _ request _ heard done =>
    have follows := accept_follows running (runs request reply heard) done
    have wider : ∀ grant, manager.Shown reply.outcome grant → Heard replied manager grant :=
      fun grant shown => shown.imp (fun member => ⟨request, reply, heard, member⟩) id
    exact ⟨follows.grants.mono wider fun _ _ => trivial,
      fun key grant found => (follows.inventory key grant found).imp id (wider grant)⟩
  | consumeTicket done => exact (consumeTicket_marks done).still.follows running shows
  | recordCleanup done => exact (recordCleanup_marks done).still.follows running shows
  | recordUnusedCleanup done => exact (recordUnusedCleanup_marks done).still.follows running shows
  | acknowledgeAbandoned done => exact (acknowledgeAbandoned_marks done).still.follows running shows

/-- A connection keeps the Grants and drops the inventory. -/
theorem connect_follows (running : manager.Running)
    (done : manager.connect encoding session participant = .ok next) :
    Follows shown confirmed manager next := by
  rw [(connect_eq_ok done).shape]
  exact ⟨.refl running.keyed running.settled, fun _ _ found => (nomatch found)⟩

theorem Running.start (storeUuid : Uuid) : Running (.initial storeUuid) :=
  ⟨fun _ _ found => (nomatch found), fun _ _ found => (nomatch found),
    fun _ _ found => (nomatch found)⟩

end Steps

end Stillyard.Manager
