import Stillyard.Manager.Budget

/-!
# The reserve for acknowledgements

An acknowledgement compacts the outbox, and `enqueue` keeps one row and one MiB
for it.  The MiB holds the placeholder of its own reply.  The bytes of the
acknowledgement, and those of the answered one that it will retire, come from the
15 MiB that other operations may fill to the last byte.
-/

namespace Stillyard.Manager

open Relational Fallible

/-- No acknowledgement waits for its reply. -/
def Idle (manager : Manager) : Prop :=
  ∀ sequence row, manager.outbox.get? sequence = some row → acknowledges row.command = true →
    row.outcome ≠ none

/-- A call of `enqueue` or of `accept`. -/
inductive OutboxCall where
  | enqueue (operation : Uuid) (command : Command)
  | accept (request : Request) (reply : Reply)

/-- The journal after a call. -/
def OutboxCall.run (encoding : Encoding) (manager : Manager) :
    OutboxCall → Except JournalError Manager
  | .enqueue operation command => (manager.enqueue encoding operation command).map Prod.fst
  | .accept request reply => (manager.accept encoding request reply).map Prod.fst

/-- The outcome of a reply serializes to at most one frame. -/
def OutboxCall.Framed (encoding : Encoding) : OutboxCall → Prop
  | .enqueue .. => True
  | .accept _ reply => encoding.outcomeBytes reply.outcome ≤ maxFrameBytes

/-- Runs of `enqueue` and `accept` whose calls meet a condition on the journal
before them. -/
def Calls (encoding : Encoding) (condition : Manager → OutboxCall → Prop) :
    Manager → Manager → Prop :=
  Relation.ReflTransGen fun manager next =>
    ∃ call : OutboxCall, call.Framed encoding ∧ condition manager call ∧
      call.run encoding manager = .ok next

/-- The longest acknowledgement and the longest answer to it, as JSON. -/
structure AckBytes (encoding : Encoding) : Prop where
  command : ∀ through < i64Max, encoding.commandBytes (.acknowledge through) ≤ 66
  outcome : ∀ through < i64Max, encoding.outcomeBytes (.acknowledged through) ≤ 64

/-- Two acknowledgements and one answer. -/
def ackReserve : Nat := 66 + 66 + 64

/-- The condition under which the reserve suffices.  Other operations leave the
bytes of the acknowledgements; an acknowledgement covers every applied operation,
waits for the one before it, and is not rejected. -/
def Spares (encoding : Encoding) (manager : Manager) : OutboxCall → Prop
  | .enqueue _ (.acknowledge through) => manager.Idle ∧ through = manager.applied
  | .enqueue _ command =>
    manager.outboxBytes encoding + encoding.commandBytes command + maxFrameBytes + ackReserve ≤
      15 * 1024 * 1024
  | .accept request reply =>
    acknowledges request.command = true → ∃ through, reply.outcome = .acknowledged through

variable {encoding : Encoding} {manager next : Manager}

/-- What a row takes of the byte budget. -/
def rowBytes (encoding : Encoding) (row : OutboxRow) : Nat :=
  encoding.commandBytes row.command + (row.outcome.map encoding.outcomeBytes).getD 1048576

/-- The bytes of the rows whose commands pass a test. -/
def bytesWhere (encoding : Encoding) (manager : Manager) (test : Command → Bool) : Nat :=
  manager.outbox.sum fun _ row => if test row.command then rowBytes encoding row else 0

theorem outboxBytes_eq_sum (encoding : Encoding) (manager : Manager) :
    manager.outboxBytes encoding = manager.outbox.sum fun _ row => rowBytes encoding row := by
  simp [outboxBytes, rowBytes, Table.values, Table.sum, Function.comp_def]

theorem outboxBytes_split (encoding : Encoding) (manager : Manager) :
    manager.outboxBytes encoding =
      manager.bytesWhere encoding (fun command => !acknowledges command) +
      manager.bytesWhere encoding acknowledges := by
  rw [outboxBytes_eq_sum, bytesWhere, bytesWhere, ← Table.sum_add]
  congr
  funext _ row
  cases acknowledges row.command <;> simp

/-- The capacity check of an acknowledgement. -/
theorem outboxHasRoom_acknowledge :
    manager.outboxHasRoom encoding (.acknowledge through) = true ↔
      manager.nextSequence < i64Max ∧ manager.outbox.keys.length < 16384 ∧
        encoding.commandBytes (.acknowledge through) ≤ maxFrameBytes ∧
        manager.outboxBytes encoding + encoding.commandBytes (.acknowledge through) ≤
          15 * 1024 * 1024 := by
  have frame : maxFrameBytes = 1048576 := rfl
  unfold outboxHasRoom
  generalize i64Max = limit
  simp only [↓reduceIte, test_iff, frame]
  omega

/-! ## What the condition keeps -/

/-- The outbox of a run that spares the reserve. -/
structure Reserved (encoding : Encoding) (manager : Manager) : Prop where
  numbered : manager.Numbered
  spared : manager.bytesWhere encoding (fun command => !acknowledges command) + ackReserve ≤
    15 * 1024 * 1024
  short : ∀ sequence row, manager.outbox.get? sequence = some row →
    acknowledges row.command = true → encoding.commandBytes row.command ≤ 66 ∧
      ∀ outcome, row.outcome = some outcome → encoding.outcomeBytes outcome ≤ 64
  /-- Of two acknowledgements the later one waits, and it will retire the earlier one. -/
  single : ∀ earlier later first second, manager.outbox.get? earlier = some first →
    manager.outbox.get? later = some second → acknowledges first.command = true →
    acknowledges second.command = true → earlier < later →
    second.outcome = none ∧ ∃ through, second.command = .acknowledge through ∧ earlier ≤ through
  /-- The last row is taken only while an acknowledgement waits that will retire one. -/
  count : manager.outbox.keys.length ≤ 16383 ∨ manager.outbox.keys.length ≤ 16384 ∧
    ∃ sequence row through retired, manager.outbox.get? sequence = some row ∧
      row.outcome = none ∧ row.command = .acknowledge through ∧
      retired ∈ manager.outbox.keys ∧ retired ≤ through

/-- An idle outbox holds at most one acknowledgement, which is answered. -/
theorem Reserved.acknowledgements (reserved : Reserved encoding manager) (idle : manager.Idle) :
    manager.bytesWhere encoding acknowledges ≤ 66 + 64 := by
  have alone : ∃ only, ∀ sequence row, manager.outbox.get? sequence = some row →
      acknowledges row.command = true → sequence = only := by
    by_cases any : ∃ sequence row, manager.outbox.get? sequence = some row ∧
        acknowledges row.command = true
    · obtain ⟨only, kept, found, acks⟩ := any
      refine ⟨only, ?_⟩
      intro sequence row here acknowledging
      rcases Nat.lt_trichotomy sequence only with before | same | after
      · exact absurd (reserved.single _ _ _ _ here found acknowledging acks before).1
          (idle _ _ found acks)
      · exact same
      · exact absurd (reserved.single _ _ _ _ found here acks acknowledging after).1
          (idle _ _ here acknowledging)
    · exact ⟨0, fun sequence row found acks => absurd ⟨sequence, row, found, acks⟩ any⟩
  obtain ⟨only, alone⟩ := alone
  have bounded : manager.bytesWhere encoding acknowledges ≤
      manager.outbox.sum fun sequence _ => if sequence = only then 66 + 64 else 0 := by
    apply Table.sum_le_sum
    intro sequence row found
    by_cases acks : acknowledges row.command = true
    · have short := reserved.short sequence row found acks
      rw [if_pos acks, if_pos (alone sequence row found acks), rowBytes]
      cases answer : row.outcome with
      | none => exact absurd answer (idle sequence row found acks)
      | some outcome => exact Nat.add_le_add short.1 (short.2 outcome answer)
    · rw [if_neg acks]
      exact Nat.zero_le _
  rw [Table.sum_ite_key manager.outbox only fun _ => 66 + 64] at bounded
  cases there : manager.outbox.get? only with
  | none => simp [there] at bounded; omega
  | some row => simpa [there] using bounded

theorem Reserved.hasRoom (sizes : AckBytes encoding) (reserved : Reserved encoding manager)
    (idle : manager.Idle) :
    manager.outboxHasRoom encoding (.acknowledge manager.applied) = true ↔
      manager.nextSequence < i64Max := by
  have numbers := reserved.numbered
  have size := sizes.command manager.applied (Nat.lt_of_lt_of_le numbers.next numbers.bound)
  have spared := reserved.spared
  have acks := reserved.acknowledgements idle
  have split := outboxBytes_split encoding manager
  have frame : maxFrameBytes = 1048576 := rfl
  have counted : manager.outbox.keys.length < 16384 := by
    rcases reserved.count with count | ⟨_, sequence, row, through, _, found, waits, asked, _⟩
    · exact Nat.lt_succ_of_le count
    · exact absurd waits (idle sequence row found (by rw [asked]; rfl))
  rw [outboxHasRoom_acknowledge]
  unfold ackReserve at spared
  constructor
  · exact fun room => room.1
  · intro numbersLeft
    exact ⟨numbersLeft, counted, by omega, by omega⟩

/-- Sixteen unanswered operations overflow the outbox, so that a crowded one holds
an answered operation. -/
theorem exists_applied (numbered : manager.Numbered) (crowded : 15 < manager.outbox.keys.length)
    (fits : manager.outboxBytes encoding ≤ 15 * 1024 * 1024) :
    ∃ retired ∈ manager.outbox.keys, retired ≤ manager.applied := by
  by_contra none
  have reserved : (manager.outbox.sum fun _ _ => 1048576) ≤ manager.outboxBytes encoding := by
    rw [outboxBytes_eq_sum]
    apply Table.sum_le_sum
    intro sequence row found
    have listed : sequence ∈ manager.outbox.keys := by
      rw [← Table.get?_isSome, found]
      rfl
    have waits : row.outcome = Option.none :=
      (numbered.answered sequence row found).mpr (Nat.lt_of_not_le fun applied =>
        none ⟨sequence, listed, applied⟩)
    simp [rowBytes, waits]
  simp only [Table.sum, Table.keys, List.map_const', List.sum_replicate_nat, List.length_map]
    at reserved crowded
  omega

section Queue

variable {operation : Uuid} {command : Command}

/-- The row of a new operation. -/
theorem Reserved.bytesWhere_queue (reserved : Reserved encoding manager)
    (outbox : next.outbox = manager.outbox.set manager.nextSequence ⟨operation, command, none⟩)
    (test : Command → Bool) : next.bytesWhere encoding test = manager.bytesWhere encoding test +
      if test command then encoding.commandBytes command + 1048576 else 0 := by
  rw [bytesWhere, outbox, Table.sum_set_of_absent _ (free_of_below reserved.numbered.below)]
  rfl

theorem Reserved.keys_queue (reserved : Reserved encoding manager)
    (outbox : next.outbox = manager.outbox.set manager.nextSequence ⟨operation, command, none⟩) :
    next.outbox.keys = manager.outbox.keys ++ [manager.nextSequence] := by
  rw [outbox, Table.keys_set_of_absent _ (free_of_below reserved.numbered.below)]

/-- An operation that leaves the reserve. -/
theorem Reserved.queue (reserved : Reserved encoding manager) (numbered : next.Numbered)
    (outbox : next.outbox = manager.outbox.set manager.nextSequence ⟨operation, command, none⟩)
    (other : acknowledges command = false) (room : manager.HasRoom encoding [command])
    (spares : manager.outboxBytes encoding + encoding.commandBytes command + maxFrameBytes +
      ackReserve ≤ 15 * 1024 * 1024) : Reserved encoding next := by
  have lookup : ∀ sequence row, next.outbox.get? sequence = some row →
      acknowledges row.command = true → manager.outbox.get? sequence = some row := by
    intro sequence row found acks
    rw [outbox] at found
    rcases Table.get?_set_eq_some.mp found with ⟨_, rfl⟩ | ⟨_, before⟩
    · exact absurd acks (by simp [other])
    · exact before
  refine ⟨numbered, ?_, ?_, ?_, ?_⟩
  · have split := outboxBytes_split encoding manager
    have frame : maxFrameBytes = 1048576 := rfl
    rw [reserved.bytesWhere_queue outbox, if_pos (by simp [other])]
    omega
  · intro sequence row found acks
    exact reserved.short sequence row (lookup sequence row found acks) acks
  · intro earlier later first second foundFirst foundSecond ackFirst ackSecond
    exact reserved.single earlier later first second (lookup earlier first foundFirst ackFirst)
      (lookup later second foundSecond ackSecond) ackFirst ackSecond
  · left
    rw [reserved.keys_queue outbox, List.length_append]
    exact room.count

/-- An acknowledgement of every applied operation, while none waits. -/
theorem Reserved.acknowledge (sizes : AckBytes encoding) (reserved : Reserved encoding manager)
    (numbered : next.Numbered) (idle : manager.Idle)
    (outbox : next.outbox = manager.outbox.set manager.nextSequence
      ⟨operation, .acknowledge manager.applied, none⟩)
    (fits : manager.outboxHasRoom encoding (.acknowledge manager.applied) = true) :
    Reserved encoding next := by
  obtain ⟨_, count, _, budget⟩ := outboxHasRoom_acknowledge.mp fits
  have numbers := reserved.numbered
  have short := sizes.command manager.applied (Nat.lt_of_lt_of_le numbers.next numbers.bound)
  refine ⟨numbered, ?_, ?_, ?_, ?_⟩
  · rw [reserved.bytesWhere_queue outbox]
    exact reserved.spared
  · intro sequence row found acks
    rw [outbox] at found
    rcases Table.get?_set_eq_some.mp found with ⟨_, rfl⟩ | ⟨_, before⟩
    · exact ⟨short, fun _ answered => (nomatch answered)⟩
    · exact reserved.short sequence row before acks
  · intro earlier later first second foundFirst foundSecond ackFirst ackSecond order
    rw [outbox] at foundFirst foundSecond
    rcases Table.get?_set_eq_some.mp foundFirst with ⟨rfl, _⟩ | ⟨_, before⟩
    · rcases Table.get?_set_eq_some.mp foundSecond with ⟨rfl, _⟩ | ⟨_, after⟩
      · exact absurd order (Nat.lt_irrefl _)
      · exact absurd order (Nat.lt_asymm (numbers.below later second after))
    · rcases Table.get?_set_eq_some.mp foundSecond with ⟨_, rfl⟩ | ⟨_, after⟩
      -- Nothing waits, so every earlier acknowledgement was applied.
      · refine ⟨rfl, manager.applied, rfl, Nat.le_of_not_lt fun unapplied => ?_⟩
        exact idle earlier first before ackFirst
          ((numbers.answered earlier first before).mpr unapplied)
      · exact reserved.single earlier later first second before after ackFirst ackSecond order
  · rw [reserved.keys_queue outbox, List.length_append, List.length_singleton]
    by_cases few : manager.outbox.keys.length < 16383
    · exact .inl few
    · obtain ⟨retired, listed, applied⟩ := exists_applied numbers (by omega)
        (Nat.le_trans (Nat.le_add_right _ _) budget)
      exact .inr ⟨count, manager.nextSequence, _, manager.applied, retired,
        by rw [outbox, Table.get?_set, if_pos rfl], rfl, rfl, List.mem_append_left _ listed,
          applied⟩

theorem Reserved.enqueue {sequence : Nat} (sizes : AckBytes encoding)
    (reserved : Reserved encoding manager)
    (spares : Spares encoding manager (.enqueue operation command))
    (done : manager.enqueue encoding operation command = .ok (next, sequence)) :
    Reserved encoding next := by
  rcases enqueue_eq_ok done with ⟨rfl, _⟩ | enqueued
  · exact reserved
  · have fits := enqueued.fits done
    have numbered := (enqueued.numbers reserved.numbered fits).1
    rcases enqueued.shape with ⟨_, _, rfl⟩
    cases command with
    | acknowledge through =>
      obtain ⟨idle, rfl⟩ := spares
      exact reserved.acknowledge sizes numbered idle rfl fits
    | _ => exact reserved.queue numbered rfl rfl ((outboxHasRoom_iff rfl).mp fits) spares

end Queue

section Reply

variable {request : Request} {reply : Reply}

/-- Retiring operations and recording an answer that fits its placeholder. -/
theorem bytesWhere_answer {sequence : Nat} (keep : Nat → OutboxRow → Bool)
    (retired : kept = manager.outbox.filter keep)
    (waits : ∀ row, manager.outbox.get? sequence = some row → row.outcome = none)
    (frame : encoding.outcomeBytes outcome ≤ maxFrameBytes)
    (outbox : next.outbox = kept.update sequence fun row => { row with outcome := some outcome })
    (test : Command → Bool) : next.bytesWhere encoding test ≤ manager.bytesWhere encoding test := by
  subst retired
  rw [bytesWhere, outbox]
  refine Nat.le_trans (Table.sum_update_le ?_) (Table.sum_filter_le _ keep _)
  intro row found
  rw [Table.get?_filter] at found
  have before := waits row (Option.filter_eq_some_iff.mp found).1
  dsimp only
  split
  · rw [rowBytes, rowBytes, before]
    exact Nat.add_le_add_left frame _
  · exact Nat.le_refl 0

/-- The rows that stay when an outcome is applied.  The answer to an acknowledgement
is short and retires the rows that it covers. -/
theorem acceptOutcome_retires (sizes : AckBytes encoding) (numbered : manager.Numbered)
    (spares : Spares encoding manager (.accept request reply))
    (accepted : manager.acceptOutcome encoding request reply.outcome = .ok next) :
    ∃ keep : Nat → OutboxRow → Bool, next.outbox = manager.outbox.filter keep ∧
      ∀ through, request.command = .acknowledge through →
        encoding.outcomeBytes reply.outcome ≤ 64 ∧
          keep = fun sequence _ => decide (through < sequence) := by
  obtain ⟨other, _, same⟩ | ⟨through, answer, asked, below, _, filtered⟩ :=
    (acceptOutcome_eq_ok accepted).queue
  · refine ⟨fun _ _ => true, ?_, ?_⟩
    · simp [same, Table.filter]
    · intro through asked
      obtain ⟨_, answer⟩ := spares (by rw [asked]; rfl)
      exact absurd answer (other _)
  · refine ⟨_, filtered, ?_⟩
    intro named again
    cases asked.symm.trans again
    have small := sizes.outcome through (Nat.lt_of_le_of_lt below
      (Nat.lt_of_lt_of_le numbered.next numbered.bound))
    exact ⟨answer ▸ small, rfl⟩

theorem Reserved.accept {applied : Bool} (sizes : AckBytes encoding)
    (reserved : Reserved encoding manager)
    (frame : encoding.outcomeBytes reply.outcome ≤ maxFrameBytes)
    (spares : Spares encoding manager (.accept request reply))
    (done : manager.accept encoding request reply = .ok (next, applied)) :
    Reserved encoding next := by
  have numbers := reserved.numbered
  rcases accept_eq_ok done with ⟨_, rfl⟩ | ⟨_, applies⟩
  · exact reserved
  obtain ⟨numbered, answered⟩ := applies.numbers numbers
  obtain ⟨middle, accepted, rfl⟩ := applies.applied
  have untouched := (acceptOutcome_numbers numbers accepted).2.2.2.2.2
  obtain ⟨keep, kept, retires⟩ := acceptOutcome_retires sizes numbers spares accepted
  have retired : ∀ sequence row, (middle.recordAnswer request.requestSequence
      reply.outcome).outbox.get? sequence = some row →
      ∀ through, request.command = .acknowledge through → through < sequence := by
    intro sequence row found through asked
    have tested := (retires through asked).2
    rw [recordAnswer, Table.get?_update, kept, Table.get?_filter, tested] at found
    split at found
    · obtain ⟨old, there, _⟩ := Option.map_eq_some_iff.mp found
      exact of_decide_eq_true (Option.filter_eq_some_iff.mp there).2
    · exact of_decide_eq_true (Option.filter_eq_some_iff.mp found).2
  refine ⟨numbered, ?_, ?_, ?_, ?_⟩
  · refine Nat.le_trans (Nat.add_le_add_right (bytesWhere_answer keep kept ?_ frame rfl _) _)
      reserved.spared
    intro row found
    cases answered.queued.symm.trans found
    rfl
  · intro sequence row found acks
    rcases answered.outbox sequence row found with ⟨_, before⟩ | ⟨rfl, rfl⟩
    · exact reserved.short sequence row before acks
    · refine ⟨(reserved.short _ _ answered.queued acks).1, ?_⟩
      intro outcome same
      cases same
      cases asked : request.command with
      | acknowledge through => exact (retires through asked).1
      | _ => rw [asked] at acks; cases acks
  · intro earlier later first second foundFirst foundSecond ackFirst ackSecond order
    rcases answered.outbox earlier first foundFirst with ⟨_, before⟩ | ⟨rfl, rfl⟩
    · rcases answered.outbox later second foundSecond with ⟨_, after⟩ | ⟨rfl, rfl⟩
      · exact reserved.single _ _ _ _ before after ackFirst ackSecond order
      · obtain ⟨_, through, asked, covered⟩ :=
          reserved.single _ _ _ _ before answered.queued ackFirst ackSecond order
        exact absurd (retired earlier first foundFirst through asked) (Nat.not_lt.mpr covered)
    · rcases answered.outbox later second foundSecond with ⟨_, after⟩ | ⟨rfl, rfl⟩
      · exact reserved.single _ _ _ _ answered.queued after ackFirst ackSecond order
      · exact absurd order (Nat.lt_irrefl _)
  · have keys : (middle.recordAnswer request.requestSequence reply.outcome).outbox.keys =
        middle.outbox.keys := Table.keys_modify ..
    have rows : middle.outbox.keys.length ≤ manager.outbox.keys.length := by
      simpa [kept, Table.keys, Table.filter] using List.length_filter_le _ manager.outbox.rows
    rw [keys]
    rcases reserved.count with few |
      ⟨full, sequence, row, through, old, found, waits, asked, listed, covered⟩
    · exact .inl (Nat.le_trans rows few)
    by_cases stays : old ∈ middle.outbox.keys
    · refine .inr ⟨Nat.le_trans rows full, sequence, row, through, old, ?_, waits, asked, stays,
        covered⟩
      have unapplied := (numbers.answered sequence row found).mp waits
      rw [recordAnswer, Table.get?_update, untouched sequence unapplied, found, if_neg]
      rintro rfl
      cases answered.queued.symm.trans found
      obtain ⟨kept, there⟩ := Table.exists_of_mem_keys (keys ▸ stays)
      exact Nat.not_lt.mpr covered (retired old kept there through asked)
    · left
      have fewer : middle.outbox.keys.length ≠ manager.outbox.keys.length := by
        intro same
        apply stays
        rw [kept] at same ⊢
        have all : (manager.outbox.filter keep).keys = manager.outbox.keys :=
          List.Sublist.eq_of_length (List.filter_sublist.map Prod.fst) same
        rw [all]
        exact listed
      omega

end Reply

theorem Reserved.run {start : Manager} (sizes : AckBytes encoding)
    (reserved : Reserved encoding start) (run : Calls encoding (Spares encoding) start manager) :
    Reserved encoding manager := by
  induction run with
  | refl => exact reserved
  | tail _ step held =>
    obtain ⟨call, framed, spares, done⟩ := step
    cases call with
    | enqueue operation command =>
      obtain ⟨result, queued, rfl⟩ := map_eq_ok.mp done
      exact held.enqueue sizes spares queued
    | accept request reply =>
      obtain ⟨result, accepted, rfl⟩ := map_eq_ok.mp done
      exact held.accept sizes framed spares accepted

/-- From an empty outbox, calls that spare the reserve always leave room for an
acknowledgement of every applied operation. -/
theorem acknowledge_queued_iff {start : Manager} {operation : Uuid} (sizes : AckBytes encoding)
    (numbered : start.Numbered) (empty : start.outbox = .empty)
    (run : Calls encoding (Spares encoding) start manager) (idle : manager.Idle)
    (fresh : manager.Fresh [operation]) :
    (∃ queued, (manager.enqueue encoding operation (.acknowledge manager.applied)).map Prod.fst =
        .ok queued) ↔ manager.nextSequence < i64Max := by
  have absent : ∀ sequence row, start.outbox.get? sequence ≠ some row := by
    intro sequence row found
    rw [empty] at found
    cases found
  have started : Reserved encoding start := by
    refine ⟨numbered, ?_, ?_, ?_, ?_⟩
    · rw [bytesWhere, empty]
      exact (by decide : 0 + ackReserve ≤ 15 * 1024 * 1024)
    · exact fun sequence row found => absurd found (absent sequence row)
    · exact fun earlier _ first _ found => absurd found (absent earlier first)
    · rw [empty]
      exact .inl (Nat.zero_le _)
  have reserved := started.run sizes run
  have allowed : manager.allow (.acknowledge manager.applied) = .ok () := by
    unfold allow
    cases manager.recovery <;> rfl
  simp only [enqueue_iff (free_of_below reserved.numbered.below) fresh allowed rfl rfl,
    reserved.hasRoom sizes idle, exists_eq_right]

/-- Queueing a list of operations is a run of `enqueue`. -/
theorem calls_of_enqueueAll (meets : ∀ manager operation, operation ∈ operations →
      condition manager (.enqueue operation.1 operation.2))
    (done : manager.enqueueAll encoding operations = .ok next) :
    Calls encoding condition manager next := by
  refine foldlM_invariant (Calls encoding condition manager) ?_ .refl done
  intro state operation queued member run round
  exact run.tail ⟨.enqueue operation.1 operation.2, trivial, meets state operation member, round⟩

/-- Sizes as the JSON texts have them, with candidates of 896 KiB. -/
def bulkyEncoding : Encoding :=
  { Json.encoding with
    commandBytes
      | .acknowledge _ => 66
      | .candidateUpsert _ => 917504
      | _ => 400
    outcomeBytes
      | .acknowledged _ => 64
      | _ => 1000 }

theorem bulkyEncoding_ackBytes : AckBytes bulkyEncoding :=
  ⟨fun _ _ => Nat.le_refl 66, fun _ _ => Nat.le_refl 64⟩

/-- A connected journal without operations. -/
def connectedManager : Manager := { Manager.initial 8 with session := some soloSession }

theorem connectedManager_numbered : connectedManager.Numbered :=
  have start := Numbered.start 8
  ⟨start.floor, start.next, start.bound, start.below, start.answered, start.full⟩

/-- An inspection was answered, and a candidate waits. -/
theorem acknowledge_queued_after_inspection :
    ∃ manager queued, Calls bulkyEncoding (Spares bulkyEncoding) connectedManager manager ∧
      manager.outbox.keys = [1, 2] ∧ manager.applied = 1 ∧
      (manager.enqueue bulkyEncoding 9 (.acknowledge manager.applied)).map Prod.fst =
        .ok queued := by
  let inspected := connectedManager.queue 1 (.inspect none)
  let asked := inspected.queue 2 (.candidateUpsert demoCandidate)
  let manager := asked.recordAnswer 1 (.inspection [] false)
  have run : Calls bulkyEncoding (Spares bulkyEncoding) connectedManager manager :=
    ((Relation.ReflTransGen.single
      ⟨.enqueue 1 (.inspect none), trivial, by unfold Spares; decide, rfl⟩).tail
      ⟨.enqueue 2 (.candidateUpsert demoCandidate), trivial, by unfold Spares; decide, rfl⟩).tail
      ⟨.accept ⟨soloSession, 1, 1, .inspect none⟩ ⟨soloSession, 1, 1, 4, .inspection [] false⟩,
        by unfold OutboxCall.Framed; decide, (fun acks => by cases acks), rfl⟩
  have idle : manager.Idle := by
    have rows : ∀ row ∈ manager.outbox.rows, acknowledges row.2.command = false := by decide
    intro sequence row found acks
    have other := rows _ (Table.mem_rows.mpr found)
    exact absurd acks (by simp [other])
  have fresh : manager.Fresh [9] := ⟨by decide, by decide, by decide, nofun⟩
  obtain ⟨queued, done⟩ := (acknowledge_queued_iff bulkyEncoding_ackBytes
    connectedManager_numbered rfl run idle fresh).mpr (by decide)
  exact ⟨manager, queued, run, rfl, rfl, done⟩

/-- Eight candidates of 896 KiB and their placeholders fill the 15 MiB, and the
acknowledgement is refused although nothing waits but operations. -/
theorem acknowledge_refused :
    AckBytes bulkyEncoding ∧ ∃ manager,
      Calls bulkyEncoding (fun _ _ => True) (Manager.initial 8) manager ∧ manager.Idle ∧
        manager.nextSequence < i64Max ∧ manager.Fresh [9] ∧
        ¬ ∃ queued, (manager.enqueue bulkyEncoding 9 (.acknowledge manager.applied)).map Prod.fst =
          .ok queued := by
  let operations := (List.range 8).map fun index =>
    (index + 1, Command.candidateUpsert demoCandidate)
  let manager := operations.foldl (fun manager operation => manager.queue operation.1 operation.2)
    (Manager.initial 8)
  have queued : (Manager.initial 8).enqueueAll bulkyEncoding operations = .ok manager := rfl
  have rows : ∀ row ∈ manager.outbox.rows, acknowledges row.2.command = false ∧
      row.2.operationId ≠ 9 := by
    decide
  have fresh : manager.Fresh [9] := by
    refine ⟨by decide, by decide, ?_, nofun⟩
    intro row member listed
    exact (rows row member).2 (by simpa using listed)
  refine ⟨bulkyEncoding_ackBytes, manager, calls_of_enqueueAll (fun _ _ _ => trivial) queued,
    ?_, by decide, fresh, ?_⟩
  · intro sequence row found acks
    have other := (rows _ (Table.mem_rows.mpr found)).1
    exact absurd acks (by simp [other])
  · rintro ⟨_, done⟩
    have free : manager.outbox.get? manager.nextSequence = none :=
      Table.get?_eq_none.mpr (by decide)
    have fits := ((enqueue_iff free fresh rfl rfl rfl).mp done).1
    exact absurd fits (by decide +kernel)

end Stillyard.Manager
