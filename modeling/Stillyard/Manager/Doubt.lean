import Stillyard.Manager.Effects

/-!
# Local doubt

Queueing an uncertainty report marks the local Grant as uncertain at once, while
replies to operations queued earlier are still on their way.  This module follows
the mark through every operation of the journal.  It is lost in one place only:
`accept` stores the Grant of a reply as it is, so an Armed Grant that answers an
earlier arm takes the doubt back.
-/

namespace Stillyard

open Relational Fallible

namespace Manager

variable {old new row : LocalGrant} {grants before : Table AllocationKey LocalGrant}
  {key : AllocationKey} {manager next : Manager} {operation : Uuid} {command : Command}
  {sequence : Nat} {grant : GrantSnapshot} {reply : Reply}

/-- Whether a reply takes back the doubt of an allocation. -/
def revives (manager : Manager) (reply : Reply) : Bool :=
  match reply.outcome with
  | .grant grant => grant.state ≠ .uncertain &&
      (manager.grants.get? grant.candidate.key).any fun row => row.grant.state = .uncertain
  | _ => false

/-- One operation of the journal, with any command and any handshake. -/
inductive Operation (encoding : Encoding) (replied : Request → Reply → Prop) :
    Manager → Manager → Prop where
  | enqueue {manager next : Manager} {operation : Uuid} {command : Command} {sequence : Nat}
      (done : manager.enqueue encoding operation command = .ok (next, sequence)) :
      Operation encoding replied manager next
  | connect {manager next : Manager} {session : SessionIdentity} {participant : ParticipantSnapshot}
      (done : manager.connect encoding session participant = .ok next) :
      Operation encoding replied manager next
  | step {manager next : Manager} (one : Step encoding replied manager next) :
      Operation encoding replied manager next

/-- An operation that accepts no reviving reply. -/
def Cautious (encoding : Encoding) (manager next : Manager) : Prop :=
  Operation encoding (fun _ reply => manager.revives reply = false) manager next

/-- A row keeps its doubt until it is sealed, and its seal for good. -/
structure KeepsDoubt (old new : LocalGrant) : Prop where
  sealed : old.sealedRelease.isSome → new.sealedRelease.isSome
  doubted : old.grant.state = .uncertain →
    new.grant.state = .uncertain ∨ new.sealedRelease.isSome

theorem KeepsDoubt.refl (row : LocalGrant) : KeepsDoubt row row := ⟨id, .inl⟩

theorem KeepsDoubt.trans (earlier : KeepsDoubt first second) (later : KeepsDoubt second third) :
    KeepsDoubt first third := by
  constructor
  · intro sealed
    exact later.sealed (earlier.sealed sealed)
  · intro doubted
    rcases earlier.doubted doubted with still | sealed
    · exact later.doubted still
    · exact .inr (later.sealed sealed)

theorem KeepsDoubt.of_sealed (sealed : new.sealedRelease.isSome) : KeepsDoubt old new :=
  ⟨fun _ => sealed, fun _ => .inr sealed⟩

theorem KeepsDoubt.of_same (sameSeal : new.sealedRelease = old.sealedRelease)
    (state : new.grant.state = old.grant.state) : KeepsDoubt old new := by
  constructor
  · rw [sameSeal]
    exact id
  · rw [state]
    exact .inl

/-- Local Grants are stored under their own keys. -/
def LocalKeyed (grants : Table AllocationKey LocalGrant) : Prop :=
  ∀ key row, grants.get? key = some row → row.grant.candidate.key = key

/-- A change of the local Grants that keeps every doubt. -/
structure DoubtKept (before after : Table AllocationKey LocalGrant) : Prop where
  keyed : LocalKeyed after
  rows : ∀ key old, before.get? key = some old →
    ∃ new, after.get? key = some new ∧ KeepsDoubt old new

theorem DoubtKept.refl (keyed : LocalKeyed grants) : DoubtKept grants grants :=
  ⟨keyed, fun _ row found => ⟨row, found, .refl row⟩⟩

theorem DoubtKept.trans (earlier : DoubtKept first second) (later : DoubtKept second third) :
    DoubtKept first third := by
  constructor
  · exact later.keyed
  · intro key old found
    rcases earlier.rows key old found with ⟨middle, foundMiddle, kept⟩
    rcases later.rows key middle foundMiddle with ⟨new, foundNew, stillKept⟩
    exact ⟨new, foundNew, kept.trans stillKept⟩

/-- Writing one more row after a change. -/
theorem DoubtKept.set (kept : DoubtKept before grants) (own : row.grant.candidate.key = key)
    (keeps : ∀ old, before.get? key = some old → KeepsDoubt old row) :
    DoubtKept before (grants.set key row) := by
  constructor
  · intro other found lookup
    obtain ⟨rfl, rfl⟩ | ⟨_, lookup⟩ := Table.get?_set_eq_some.mp lookup
    · exact own
    · exact kept.keyed other found lookup
  · intro other old found
    rw [Table.get?_set]
    split
    · next same =>
      subst same
      exact ⟨row, rfl, keeps old found⟩
    · exact kept.rows other old found

theorem DoubtKept.set_found (keyed : LocalKeyed grants) (found : grants.get? key = some old)
    (own : row.grant.candidate = old.grant.candidate) (keeps : KeepsDoubt old row) :
    DoubtKept grants (grants.set key row) := by
  apply (DoubtKept.refl keyed).set
  · rw [own]
    exact keyed key old found
  · intro other lookup
    cases found.symm.trans lookup
    exact keeps

/-- The allocation is in doubt, or sealed. -/
def Doubted (grants : Table AllocationKey LocalGrant) (key : AllocationKey) : Prop :=
  ∃ row, grants.get? key = some row ∧
    (row.grant.state = .uncertain ∨ row.sealedRelease.isSome)

theorem Doubted.kept (doubted : Doubted before key) (kept : DoubtKept before after) :
    Doubted after key := by
  rcases doubted with ⟨old, found, doubt⟩
  rcases kept.rows key old found with ⟨new, foundNew, keeps⟩
  refine ⟨new, foundNew, ?_⟩
  rcases doubt with uncertain | sealed
  · exact keeps.doubted uncertain
  · exact .inr (keeps.sealed sealed)

/-! ## The journal -/

/-- Every queued report has left its mark, and a ticket names its allocation. -/
structure Doubtful (manager : Manager) : Prop where
  keyed : LocalKeyed manager.grants
  tickets : ∀ invocation row, manager.tickets.get? invocation = some row →
    row.ticket.key = row.key
  queued : ∀ sequence row key offerNonce reason, manager.outbox.get? sequence = some row →
    row.command = .reportUncertain key offerNonce reason → Doubted manager.grants key

/-- What an operation leaves: the old doubts and the marks of new reports. -/
structure Remembers (manager next : Manager) : Prop where
  kept : DoubtKept manager.grants next.grants
  tickets : ∀ invocation row, next.tickets.get? invocation = some row →
    row.ticket.key = row.key
  queued : ∀ sequence row key offerNonce reason, next.outbox.get? sequence = some row →
    row.command = .reportUncertain key offerNonce reason → Doubted next.grants key

theorem Remembers.doubtful (remembers : Remembers manager next) : Doubtful next :=
  ⟨remembers.kept.keyed, remembers.tickets, remembers.queued⟩

theorem Remembers.trans (earlier : Remembers manager middle) (later : Remembers middle next) :
    Remembers manager next :=
  ⟨earlier.kept.trans later.kept, later.tickets, later.queued⟩

section Operations

variable {encoding : Encoding} {manager next : Manager}

/-- An operation that queues nothing new. -/
theorem Doubtful.remembers (doubtful : Doubtful manager)
    (kept : DoubtKept manager.grants next.grants)
    (tickets : ∀ invocation row, next.tickets.get? invocation = some row →
      row.ticket.key = row.key) (outbox : ∀ sequence row, next.outbox.get? sequence = some row →
      ∃ old, manager.outbox.get? sequence = some old ∧ row.command = old.command) :
    Remembers manager next := by
  refine ⟨kept, tickets, ?_⟩
  intro sequence row key offerNonce reason found asked
  rcases outbox sequence row found with ⟨old, foundOld, same⟩
  rw [same] at asked
  exact (doubtful.queued sequence old key offerNonce reason foundOld asked).kept kept

theorem Doubtful.same (doubtful : Doubtful manager) : Remembers manager manager :=
  doubtful.remembers (.refl doubtful.keyed) doubtful.tickets fun _ row found => ⟨row, found, rfl⟩

theorem Enqueued.remembers (doubtful : Doubtful manager)
    (enqueued : Enqueued operation command manager next) : Remembers manager next := by
  rcases enqueued.shape with ⟨grants, locally, rfl⟩
  rcases reportLocally_eq_ok locally with ⟨_, same, changed⟩
  cases same
  have kept : DoubtKept manager.grants grants := by
    rcases changed with rfl | ⟨key, _, _, row, _, found, _, _, _, rfl⟩
    · exact .refl doubtful.keyed
    · exact .set_found doubtful.keyed found rfl ⟨id, fun _ => .inl rfl⟩
  refine ⟨kept, doubtful.tickets, ?_⟩
  intro sequence row key offerNonce reason found asked
  dsimp only at found
  rw [Table.get?_set] at found
  split at found
  · -- The new report has just marked its own allocation.
    cases found
    rcases changed with rfl | ⟨named, _, _, old, report, foundOld, _, _, _, rfl⟩
    · subst asked
      simp only [reportLocally, ok_iff] at locally
      rcases locally with ⟨old, foundOld, _, _, same⟩
      have written : manager.grants.get? key = some { old with grant := { old.grant with
          state := .uncertain, uncertaintyReason := some reason } } := by
        have grants := congrArg Manager.grants same
        dsimp only at grants
        rw [← grants, Table.get?_set, if_pos rfl]
      exact ⟨_, written, .inl rfl⟩
    · cases report.symm.trans asked
      have written := Table.get?_set manager.grants key key { old with grant := { old.grant with
        state := .uncertain, uncertaintyReason := some reason } }
      rw [if_pos rfl] at written
      exact ⟨_, written, .inl rfl⟩
  · exact (doubtful.queued sequence row key offerNonce reason found asked).kept kept

theorem enqueue_remembers (doubtful : Doubtful manager)
    (done : manager.enqueue encoding operation command = .ok (next, sequence)) :
    Remembers manager next := by
  rcases enqueue_eq_ok done with ⟨rfl, _⟩ | enqueued
  · exact doubtful.same
  · exact enqueued.remembers doubtful

/-- The record that `import_inventory` compares with is the stored one. -/
theorem find?_localGrants (keyed : LocalKeyed manager.grants)
    (found : manager.grants.get? key = some row) :
    (manager.localGrants.find? fun known => known.candidate.key = key) = some row.grant := by
  have present : row.grant ∈ manager.localGrants := mem_localGrants.mpr ⟨key, row, found, rfl⟩
  cases chosen : manager.localGrants.find? fun known => known.candidate.key = key with
  | none =>
    have absent := List.find?_eq_none.mp chosen row.grant present
    rw [keyed key row found] at absent
    simp at absent
  | some grant =>
    have named := List.find?_some chosen
    rw [decide_eq_true_eq] at named
    rcases mem_localGrants.mp (List.mem_of_find?_eq_some chosen) with
      ⟨other, stored, foundStored, rfl⟩
    rw [keyed other stored foundStored] at named
    subst named
    cases found.symm.trans foundStored
    rfl

theorem Written.doubt (keyed : LocalKeyed manager.grants) (cautious : manager.revives reply = false)
    (written : Written manager request reply.outcome stored) : DoubtKept manager.grants stored := by
  generalize outcome : reply.outcome = told at written
  induction written with
  | same => exact .refl keyed
  | granted owns =>
    refine (DoubtKept.refl keyed).set rfl ?_
    intro old found
    constructor
    · intro sealed
      rw [found]
      exact sealed
    · intro uncertain
      simp only [revives, outcome, found, Option.any_some, uncertain, decide_true, Bool.and_true,
        decide_eq_false_iff_not, not_not] at cautious
      exact .inl cautious
  | @noted ticket row found =>
    have same : (withIntent row.grant ticket.intent).candidate = row.grant.candidate ∧
        (withIntent row.grant ticket.intent).state = row.grant.state := by
      unfold withIntent
      split <;> exact ⟨rfl, rfl⟩
    exact .set_found keyed found same.1 (.of_same rfl same.2)
  | released _ found sealed =>
    exact .set_found keyed found rfl (.of_sealed (Option.isSome_of_eq_some sealed))
  | imported _ _ _ ih =>
    have kept := ih outcome
    rw [storeGrant, importedGrant_candidate]
    apply kept.set (by rw [importedGrant_candidate])
    intro old found
    rw [find?_localGrants keyed found]
    constructor
    · intro sealed
      obtain ⟨current, foundCurrent, keeps⟩ := kept.rows _ old found
      rw [foundCurrent]
      exact keeps.sealed sealed
    · intro uncertain
      left
      simp only [importedGrant, if_pos uncertain]
  | omitted _ _ _ _ ih => exact (ih outcome).set rfl fun _ _ => .of_sealed rfl
  | @settled _ _ _ key row _ _ _ found _ ih =>
    have kept := ih outcome
    exact kept.set (kept.keyed key row found) fun _ _ => .of_sealed rfl

section Steps

variable (doubtful : Doubtful manager)

include doubtful

theorem acceptOutcome_remembers (cautious : manager.revives reply = false)
    (accepted : Accepted request reply.outcome manager next) : Remembers manager next := by
  refine doubtful.remembers (accepted.written.doubt doubtful.keyed cautious) ?_
    fun _ row found => ⟨row, accepted.outbox found, rfl⟩
  intro invocation received lookup
  obtain same | ⟨ticket, row, _, _, _, _, added⟩ := accepted.tickets
  · exact doubtful.tickets invocation received (same ▸ lookup)
  · rw [added, Table.get?_set_eq_some] at lookup
    obtain ⟨rfl, rfl⟩ | ⟨_, before⟩ := lookup
    · rfl
    · exact doubtful.tickets invocation received before

theorem Applies.remembers (cautious : manager.revives reply = false)
    (applies : Applies encoding request reply manager next) : Remembers manager next := by
  rcases applies.applied with ⟨middle, accepted, rfl⟩
  have remembers := acceptOutcome_remembers doubtful cautious (acceptOutcome_eq_ok accepted)
  apply remembers.trans
  exact remembers.doubtful.remembers (.refl remembers.kept.keyed) remembers.tickets
    fun _ _ found => recordAnswer_command found

theorem Marked.remembers (marks : Marked manager next) : Remembers manager next := by
  cases marks with
  | @ticket invocation row marked found sameKey same =>
    refine doubtful.remembers (.refl doubtful.keyed) ?_ fun _ row found => ⟨row, found, rfl⟩
    intro other ticket lookup
    obtain ⟨rfl, rfl⟩ | ⟨_, before⟩ := Table.get?_set_eq_some.mp lookup
    · rw [sameKey, same]
      exact doubtful.tickets _ row found
    · exact doubtful.tickets other ticket before
  | aside => exact ⟨.refl doubtful.keyed, doubtful.tickets, doubtful.queued⟩

theorem Change.remembers (change : Change encoding manager next) : Remembers manager next := by
  cases change with
  | enqueued enqueued => exact enqueued.remembers doubtful
  | sealed found =>
    exact doubtful.remembers (.set_found doubtful.keyed found rfl (.of_sealed rfl))
      doubtful.tickets fun _ row found => ⟨row, found, rfl⟩
  | marked marks => exact marks.remembers doubtful

theorem connect_remembers {session : SessionIdentity}
    (done : manager.connect encoding session participant = .ok next) : Remembers manager next := by
  rw [(connect_eq_ok done).shape]
  refine doubtful.remembers (.refl doubtful.keyed) doubtful.tickets ?_
  intro sequence row found
  dsimp only at found
  rw [Table.get?_filter] at found
  exact ⟨row, (Option.filter_eq_some_iff.mp found).1, rfl⟩

theorem Step.remembers
    (step : Step encoding (fun _ reply => manager.revives reply = false) manager next) :
    Remembers manager next := by
  obtain changes | ⟨request, reply, cautious, applies⟩ := step.changes
  · clear step
    induction changes with
    | refl => exact doubtful.same
    | tail _ change ih => exact ih.trans (change.remembers ih.doubtful)
  · exact applies.remembers doubtful cautious

theorem Cautious.remembers (one : Cautious encoding manager next) : Remembers manager next := by
  cases one with
  | enqueue done => exact enqueue_remembers doubtful done
  | connect done => exact connect_remembers doubtful done
  | step one => exact one.remembers doubtful

end Steps

theorem Doubtful.start (storeUuid : Uuid) : Doubtful (.initial storeUuid) :=
  ⟨fun _ _ found => (nomatch found), fun _ _ found => (nomatch found),
    fun _ _ _ _ _ found => (nomatch found)⟩

theorem Doubtful.run (doubtful : Doubtful manager)
    (run : Relation.ReflTransGen (Cautious encoding) manager next) : Remembers manager next := by
  induction run with
  | refl => exact doubtful.same
  | tail _ one ih => exact ih.trans (one.remembers ih.doubtful)

/-- A doubted allocation starts nothing. -/
theorem Doubted.refuses (doubtful : Doubtful manager)
    (doubted : Doubted manager.grants ticket.key) :
    manager.consumeTicket ticket ≠ .ok (next, true) := by
  intro consumed
  rcases consumeTicket_eq_ok consumed with ⟨impossible, _⟩ | ⟨_, consumes⟩
  · cases impossible
  · rcases consumes.armed with ⟨armed, foundArmed, state⟩
    rcases doubted with ⟨row, found, doubt⟩
    cases found.symm.trans foundArmed
    rcases doubt with uncertain | sealed
    · cases uncertain.symm.trans state
    · rcases consumes.row with ⟨received, foundReceived, rfl, unsealed, _⟩
      rw [← doubtful.tickets _ received foundReceived, sealAt, found, Option.bind_some] at unsealed
      rw [unsealed] at sealed
      cases sealed

/-- A queued command waits in the outbox, also if it was queued before. -/
theorem enqueue_waits (done : manager.enqueue encoding operation command = .ok (next, sequence)) :
    ∃ number row, next.outbox.get? number = some row ∧ row.command = command := by
  rcases enqueue_eq_ok done with ⟨rfl, row, found, _, asked⟩ | enqueued
  · exact ⟨sequence, row, found, asked⟩
  · rcases enqueued.shape with ⟨_, _, rfl⟩
    refine ⟨manager.nextSequence, ⟨operation, command, none⟩, ?_, rfl⟩
    rw [Table.get?_set, if_pos rfl]

end Operations

end Manager

end Stillyard
