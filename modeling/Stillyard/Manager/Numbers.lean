import Stillyard.Manager.Effects

/-!
# Sequence numbers of the outbox

A manager numbers its operations, applies the answers in order, and retires
answered operations from the front.  `Numbered` says how the watermarks and the
outbox fit together.  A step either queues operations at the end of the outbox
or applies the answer to the first unanswered one.
-/

namespace Stillyard

open Relational Fallible

namespace Manager

variable {sequence : Nat} {request : Request} {session : SessionIdentity}
  {participant : ParticipantSnapshot}

/-- The watermarks fit the outbox: the operations after `applied` are the
unanswered ones, and none of them is missing. -/
structure Numbered (manager : Manager) : Prop where
  floor : manager.retiredFloor ≤ manager.applied
  next : manager.applied < manager.nextSequence
  bound : manager.nextSequence ≤ i64Max
  below : ∀ sequence row, manager.outbox.get? sequence = some row →
    sequence < manager.nextSequence
  answered : ∀ sequence row, manager.outbox.get? sequence = some row →
    (row.outcome = none ↔ manager.applied < sequence)
  full : ∀ sequence, manager.applied < sequence → sequence < manager.nextSequence →
    ∃ row, manager.outbox.get? sequence = some row

theorem Numbered.start (storeUuid : Uuid) : Numbered (.initial storeUuid) where
  floor := Nat.le_refl 0
  next := Nat.zero_lt_one
  bound := by
    change 1 ≤ i64Max
    decide
  below _ _ found := (nomatch found)
  answered _ _ found := (nomatch found)
  full sequence above below := by
    have : 0 < sequence ∧ sequence < 1 := ⟨above, below⟩
    omega

/-- A step that queues operations, or does nothing to the outbox. -/
structure Queues (manager next : Manager) : Prop where
  session : next.session = manager.session
  applied : next.applied = manager.applied
  later : manager.nextSequence ≤ next.nextSequence
  outbox : ∀ sequence row, next.outbox.get? sequence = some row →
    manager.outbox.get? sequence = some row ∨ manager.nextSequence ≤ sequence

theorem Queues.refl (manager : Manager) : Queues manager manager :=
  ⟨rfl, rfl, Nat.le_refl _, fun _ _ found => .inl found⟩

theorem Queues.trans (earlier : Queues manager middle) (later : Queues middle next) :
    Queues manager next := by
  refine ⟨later.session.trans earlier.session, later.applied.trans earlier.applied,
    earlier.later.trans later.later, ?_⟩
  intro sequence row found
  rcases later.outbox sequence row found with before | new
  · exact earlier.outbox sequence row before
  · exact .inr (earlier.later.trans new)

/-- A step that applies the answer to the first unanswered operation. -/
structure Answered (request : Request) (reply : Reply) (manager next : Manager) : Prop where
  bound : manager.session = some request.session
  session : next.session = manager.session
  sequence : request.requestSequence = manager.applied + 1
  applied : next.applied = request.requestSequence
  later : next.nextSequence = manager.nextSequence
  queued : manager.outbox.get? request.requestSequence =
    some ⟨request.operationId, request.command, none⟩
  outbox : ∀ sequence row, next.outbox.get? sequence = some row →
    (sequence ≠ request.requestSequence ∧ manager.outbox.get? sequence = some row) ∨
      (sequence = request.requestSequence ∧
        row = ⟨request.operationId, request.command, some reply.outcome⟩)

section Journal

variable {encoding : Encoding} {replied : Request → Reply → Prop} {manager next : Manager}

/-- The same numbers and the same outbox. -/
theorem Numbered.same (numbered : Numbered manager) (session : next.session = manager.session)
    (later : next.nextSequence = manager.nextSequence) (applied : next.applied = manager.applied)
    (floor : next.retiredFloor = manager.retiredFloor) (outbox : next.outbox = manager.outbox) :
    Numbered next ∧ Queues manager next := by
  refine ⟨⟨?_, ?_, ?_, ?_, ?_, ?_⟩, ⟨session, applied, Nat.le_of_eq later.symm, ?_⟩⟩
  · rw [floor, applied]
    exact numbered.floor
  · rw [later, applied]
    exact numbered.next
  · rw [later]
    exact numbered.bound
  · rw [outbox, later]
    exact numbered.below
  · rw [outbox, applied]
    exact numbered.answered
  · rw [outbox, applied, later]
    exact numbered.full
  · intro sequence row found
    rw [outbox] at found
    exact .inl found

theorem lt_of_outboxHasRoom (fits : manager.outboxHasRoom encoding command = true) :
    manager.nextSequence < i64Max := by
  unfold outboxHasRoom at fits
  extract_lets acknowledges bytes at fits
  -- The limits are large numbers, which the simplifier is kept from unfolding.
  generalize i64Max = limit at fits ⊢
  generalize maxFrameBytes = frame at fits
  simp only [test_iff] at fits
  exact fits.1.1.1

section Steps

variable (numbered : Numbered manager)

include numbered

theorem Enqueued.numbers (enqueued : Enqueued operation command manager next)
    (fits : manager.outboxHasRoom encoding command = true) :
    Numbered next ∧ Queues manager next := by
  rcases enqueued.shape with ⟨grants, _, rfl⟩
  refine ⟨⟨numbered.floor, Nat.lt_succ_of_lt numbered.next, lt_of_outboxHasRoom fits, ?_, ?_, ?_⟩,
    ⟨rfl, rfl, Nat.le_succ _, ?_⟩⟩
  all_goals dsimp only
  · intro number row found
    obtain ⟨rfl, _⟩ | ⟨_, found⟩ := Table.get?_set_eq_some.mp found
    · exact Nat.lt_succ_self _
    · exact Nat.lt_succ_of_lt (numbered.below number row found)
  · intro number row found
    obtain ⟨rfl, rfl⟩ | ⟨_, found⟩ := Table.get?_set_eq_some.mp found
    · exact iff_of_true rfl numbered.next
    · exact numbered.answered number row found
  · intro number above below
    rw [Table.get?_set]
    split
    · exact ⟨_, rfl⟩
    · exact numbered.full number above (by omega)
  · intro number row found
    obtain ⟨rfl, _⟩ | ⟨_, found⟩ := Table.get?_set_eq_some.mp found
    · exact .inr (Nat.le_refl _)
    · exact .inl found

theorem Change.numbers (change : Change encoding manager next) :
    Numbered next ∧ Queues manager next := by
  cases change with
  | enqueued enqueued fits => exact enqueued.numbers numbered fits
  | sealed => exact numbered.same rfl rfl rfl rfl rfl
  | marked marks => cases marks <;> exact numbered.same rfl rfl rfl rfl rfl

theorem acceptOutcome_numbers (done : manager.acceptOutcome encoding request outcome = .ok next) :
    next.session = manager.session ∧ next.nextSequence = manager.nextSequence ∧
      next.applied = manager.applied ∧ next.retiredFloor ≤ manager.applied ∧
      (∀ sequence row, next.outbox.get? sequence = some row →
        manager.outbox.get? sequence = some row) ∧
      ∀ sequence, manager.applied < sequence →
        next.outbox.get? sequence = manager.outbox.get? sequence := by
  have accepted := acceptOutcome_eq_ok done
  have session : next.session = manager.session := by rw [accepted.shape]
  have later : next.nextSequence = manager.nextSequence := by rw [accepted.shape]
  have same : next.applied = manager.applied := by rw [accepted.shape]
  obtain ⟨_, floor, outbox⟩ | ⟨through, _, _, applied, floor, outbox⟩ := accepted.queue
  · rw [floor, outbox]
    exact ⟨session, later, same, numbered.floor, fun _ _ found => found, fun _ _ => rfl⟩
  · rw [floor]
    refine ⟨session, later, same, Nat.max_le.mpr ⟨numbered.floor, applied⟩,
      fun _ _ found => accepted.outbox found, ?_⟩
    intro sequence above
    rw [outbox, Table.get?_filter]
    cases manager.outbox.get? sequence with
    | none => rfl
    | some row =>
      rw [Option.filter_some, if_pos]
      rw [decide_eq_true_eq]
      omega

theorem Applies.numbers (applies : Applies encoding request reply manager next) :
    Numbered next ∧ Answered request reply manager next := by
  rcases applies.applied with ⟨middle, accepted, rfl⟩
  rcases applies.queued with ⟨row, found, named, asked, unanswered⟩
  rcases acceptOutcome_numbers numbered accepted with
    ⟨session, later, same, floor, rows, kept⟩
  have inOrder := applies.sequence
  have queued : manager.outbox.get? request.requestSequence =
      some ⟨request.operationId, request.command, none⟩ := by
    rw [found, ← named, ← asked, ← unanswered]
  have there : middle.outbox.get? request.requestSequence =
      some ⟨request.operationId, request.command, none⟩ := by
    rw [kept _ (by omega), queued]
  have lookup : ∀ sequence row,
      (middle.recordAnswer request.requestSequence reply.outcome).outbox.get? sequence =
        some row →
      (sequence ≠ request.requestSequence ∧ manager.outbox.get? sequence = some row) ∨
        (sequence = request.requestSequence ∧
          row = ⟨request.operationId, request.command, some reply.outcome⟩) := by
    intro sequence row found
    rcases Table.get?_update_eq_some.mp found with ⟨rfl, _, before, rfl⟩ | ⟨other, found⟩
    · cases there.symm.trans before
      exact .inr ⟨rfl, rfl⟩
    · exact .inl ⟨other, rows sequence row found⟩
  have below := numbered.below _ row found
  constructor
  · refine ⟨?_, ?_, ?_, ?_, ?_, ?_⟩
    · change middle.retiredFloor ≤ request.requestSequence
      omega
    · change request.requestSequence < middle.nextSequence
      omega
    · change middle.nextSequence ≤ i64Max
      rw [later]
      exact numbered.bound
    · intro sequence row found
      change sequence < middle.nextSequence
      rw [later]
      rcases lookup sequence row found with ⟨_, before⟩ | ⟨rfl, _⟩
      · exact numbered.below sequence row before
      · exact below
    · intro sequence row found
      change row.outcome = none ↔ request.requestSequence < sequence
      rcases lookup sequence row found with ⟨other, before⟩ | ⟨rfl, rfl⟩
      · rw [numbered.answered sequence row before]
        omega
      · exact iff_of_false (fun none => nomatch none) (Nat.lt_irrefl _)
    · intro sequence above inside
      change request.requestSequence < sequence at above
      change sequence < middle.nextSequence at inside
      rcases numbered.full sequence (by omega) (by omega) with ⟨row, present⟩
      refine ⟨row, ?_⟩
      rw [recordAnswer, Table.get?_update, if_neg (by omega), kept sequence (by omega)]
      exact present
  · exact ⟨applies.session, session, inOrder, rfl, later, queued, lookup⟩

theorem Step.numbers (step : Step encoding replied manager next) :
    Numbered next ∧ (Queues manager next ∨
      ∃ request reply, replied request reply ∧ Answered request reply manager next) := by
  obtain changes | ⟨request, reply, heard, applies⟩ := step.changes
  · have both : Numbered next ∧ Queues manager next := by
      clear step
      induction changes with
      | refl => exact ⟨numbered, .refl _⟩
      | tail _ change ih =>
        have one := change.numbers ih.1
        exact ⟨one.1, ih.2.trans one.2⟩
    exact ⟨both.1, .inl both.2⟩
  · obtain ⟨kept, answered⟩ := applies.numbers numbered
    exact ⟨kept, .inr ⟨request, reply, heard, answered⟩⟩

end Steps

/-! ## Connections -/

/-- What a connection checks about the session and the peer's watermarks. -/
structure Fenced (session : SessionIdentity) (participant : ParticipantSnapshot)
    (manager : Manager) : Prop where
  newer : ∀ prior, manager.session = some prior →
    prior.connectionEpoch ≤ session.connectionEpoch
  floor : participant.retiredSequenceFloor ≤ participant.acceptedSequence

theorem beginRecovery_fenced
    (done : manager.beginRecovery encoding session participant = .ok next) :
    Fenced session participant manager := by
  simp only [beginRecovery, ok_iff, test_iff] at done
  rcases done with ⟨prior, bound, _, checked, _⟩
  refine ⟨?_, checked.2⟩
  intro other same
  cases bound.symm.trans same
  exact checked.1.1.1.1.1.1.1.1.1.1.2

theorem connect_fenced (done : manager.connect encoding session participant = .ok next) :
    Fenced session participant manager := by
  simp only [connect, bind_eq_ok] at done
  rcases done with ⟨bound, binds, begins⟩
  have fenced := beginRecovery_fenced begins
  unfold bindFirst at binds
  split at binds
  · next unbound =>
    refine ⟨?_, fenced.floor⟩
    intro prior same
    cases unbound.symm.trans same
  · cases binds
    exact fenced

theorem connect_numbers (numbered : Numbered manager)
    (done : manager.connect encoding session participant = .ok next) : Numbered next := by
  have connected := connect_eq_ok done
  have fenced := connect_fenced done
  have lookup : ∀ sequence row, next.outbox.get? sequence = some row →
      manager.outbox.get? sequence = some row ∧ row.outcome.isSome := by
    intro sequence row found
    rw [connected.shape] at found
    dsimp only at found
    rw [Table.get?_filter] at found
    exact Option.filter_eq_some_iff.mp found
  have old : ∀ sequence row, next.outbox.get? sequence = some row →
      sequence ≤ participant.acceptedSequence ∧ row.outcome ≠ none := by
    intro sequence row found
    rcases lookup sequence row found with ⟨before, answered⟩
    have nonempty : row.outcome ≠ none := Option.isSome_iff_ne_none.mp answered
    have applied := (numbered.answered sequence row before).not.mp nonempty
    have covered := connected.applied
    exact ⟨by omega, nonempty⟩
  have shape := connected.shape
  have accepted : next.applied = participant.acceptedSequence := by rw [shape]
  have later : next.nextSequence = participant.acceptedSequence + 1 := by rw [shape]
  have floor : next.retiredFloor = participant.retiredSequenceFloor := by rw [shape]
  refine ⟨?_, ?_, ?_, ?_, ?_, ?_⟩
  · rw [floor, accepted]
    exact fenced.floor
  · omega
  · have known := connected.known
    have bound := numbered.bound
    omega
  · intro sequence row found
    have bound := (old sequence row found).1
    omega
  · intro sequence row found
    rcases old sequence row found with ⟨bound, answered⟩
    exact iff_of_false answered (by omega)
  · intro sequence above below
    omega

end Journal

end Manager

end Stillyard
