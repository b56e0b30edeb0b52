import Stillyard.Executor.Runs

/-!
# The space reserved for cleanup

`create` only accepts an Invocation if the file keeps room for 16 KiB more for
every record without a seal.  The potential of a state counts each such record
with 16 KiB and each sealed one with its own length.  Nothing but an accepted
creation adds to it, so no later publication is too long.
-/

namespace Stillyard.ExecutorJournal

open Relational Fallible

variable {β : Type} (codec : Codec β) (anchor : Anchor)

/-- The values of a record keep within the lengths that a creation allows for. -/
structure Record.Modest (record : Record) : Prop where
  creation : Widths.entity + 2 * Widths.uuid + codec.process record.creator < 1024
  launch : Widths.optional codec.identity record.boundary +
    Widths.optional codec.process record.root +
    Widths.optional codec.text record.executableSha256 < 6144
  ticket : Widths.optional codec.ticket record.releaseIntent ≤ 8192

/-- What an event brings is modest: the arguments of `create` and the boundary
it makes, the root and the executable of `ready` together with the boundary. -/
def Event.Modest (state : State) : Event → Prop
  | .create creation answers => ∀ boundary, boundary = none ∨ boundary = answers.boundary →
      (creation.record boundary).Modest codec
  | .ready invocation launch _ _ => ∀ record, state.records.get? invocation = some record →
      Widths.optional codec.identity record.boundary + codec.process launch.root +
        codec.text launch.requestedSha256 < 6144
  | _ => True

/-- A step of a run whose records keep within their lengths. -/
def Host.ModestStep (host later : Host β) : Prop :=
  ∃ event, (∀ state, openJournal codec anchor host.disk anchor true = .ok ⟨state, false⟩ →
    event.Modest codec state) ∧ (host.run codec anchor event).2 = later

/-- What a record counts with: the reserved length until it is sealed. -/
def Record.reserve (record : Record) : Nat :=
  if record.sealed.isNone then 16384 else codec.entry record

/-- The length of a state without its records. -/
def State.base (state : State) : Nat := codec.state { state with records := .empty }

structure State.Reserved (state : State) : Prop where
  modest : ∀ invocation record, state.records.get? invocation = some record → record.Modest codec
  potential : state.base codec + state.records.sum (fun _ record => record.reserve codec) ≤
    maxBytes - 1024 * 1024 + 1

variable {codec anchor} {emptied : List Identity} {state next : State} {invocation : EntityId}
  {record after : Record} {host : Host β} {event : Event}

private theorem ofSeal_le (stamp : Option Seal) : Widths.optional Widths.ofSeal stamp ≤ 250 := by
  cases stamp with
  | none => decide
  | some stamp =>
    rw [Widths.optional, Widths.ofSeal]
    split <;> decide +kernel

/-- A modest record never outgrows its reserve. -/
theorem Record.Modest.entry_le (modest : record.Modest codec) : codec.entry record ≤ 16384 := by
  have creation := modest.creation
  have launch := modest.launch
  have ticket := modest.ticket
  have stamp := ofSeal_le record.sealed
  have names : "containment".length = 11 ∧ "lease".length = 5 ∧ "daemon_generation".length = 17 ∧
      "creator".length = 7 ∧ "boundary".length = 8 ∧ "root".length = 4 ∧
      "executable_sha256".length = 17 ∧ "release_intent".length = 14 ∧ "seal".length = 4 := by
    decide +kernel
  simp only [Widths.entry, Widths.record, objectWidth, List.map_cons, List.map_nil, List.sum_cons,
    List.sum_nil, Widths.entity, Widths.uuid] at creation ⊢
  omega

private theorem state_eq (codec : Codec β) (state : State) : codec.state state + 1 =
    state.base codec + max 1 (state.records.sum fun _ record => codec.entry record) := by
  simp only [State.base, Widths.state, objectWidth, List.map_cons, List.map_nil, List.sum_cons,
    List.sum_nil, Table.sum, Table.empty]
  omega

private theorem sum_active (rows : List (EntityId × Record)) :
    (rows.map fun row => if row.2.sealed.isNone then 16384 else 0).sum =
      (rows.map Prod.snd).countP (fun record => record.sealed.isNone) * 16384 := by
  induction rows with
  | nil => rfl
  | cons row rest ih =>
    rw [List.map_cons, List.sum_cons, ih, List.map_cons, List.countP_cons]
    split <;> omega

/-- Each record without a seal adds at most its reserve to the potential. -/
theorem sum_reserve_le (codec : Codec β) (state : State) :
    state.records.sum (fun _ record => record.reserve codec) ≤
      state.records.sum (fun _ record => codec.entry record) + state.active * 16384 := by
  have active : state.records.sum (fun _ record => if record.sealed.isNone then 16384 else 0) =
      state.active * 16384 := sum_active state.records.rows
  rw [← active, ← Table.sum_add]
  apply Table.sum_le_sum
  intro invocation record _
  rw [Record.reserve]
  split <;> omega

/-- A state within its potential can be published. -/
theorem State.Reserved.envelope_le (reserved : state.Reserved codec) (sha256 : String) :
    codec.envelope ⟨state, sha256⟩ ≤ maxBytes := by
  have entries : state.records.sum (fun _ record => codec.entry record) ≤
      state.records.sum (fun _ record => record.reserve codec) := by
    apply Table.sum_le_sum
    intro invocation record found
    rw [Record.reserve]
    split
    · exact (reserved.modest invocation record found).entry_le
    · exact Nat.le_refl _
  have potential := reserved.potential
  have width := state_eq codec state
  have names : "state".length = 5 ∧ "sha256".length = 6 := by decide +kernel
  simp only [Widths.envelope, objectWidth, List.map_cons, List.map_nil, List.sum_cons,
    List.sum_nil, Widths.sha256, maxBytes] at potential ⊢
  omega

/-! ## Changes keep the potential -/

theorem Record.Change.unsealed (changes : record.Change codec emptied invocation event after) :
    record.sealed = none := by
  cases changes <;> assumption

private theorem Record.Change.modest (changes : record.Change codec emptied invocation event after)
    (modest : record.Modest codec) (found : state.records.get? invocation = some record)
    (brought : event.Modest codec state) : after.Modest codec := by
  cases changes with
  | ready => exact ⟨modest.creation, brought record found, modest.ticket⟩
  | released short => exact ⟨modest.creation, modest.launch, short⟩
  | stamped => exact ⟨modest.creation, modest.launch, modest.ticket⟩

theorem State.Reserved.change (reserved : state.Reserved codec)
    (changes : state.Change codec emptied event next) (brought : event.Modest codec state) :
    next.Reserved codec := by
  have modest : ∀ invocation record, next.records.get? invocation = some record →
      record.Modest codec := by
    intro invocation record found
    obtain same | ⟨before, known, changed⟩ | ⟨_, creation, answers, boundary, _, rfl, known, _, _,
      rfl⟩ := changes.get? found
    · exact reserved.modest invocation record same
    · exact changed.modest (reserved.modest invocation before known) known brought
    · exact brought boundary known
  refine ⟨modest, ?_⟩
  cases changes with
  | @created answers boundary creation _ _ accepted =>
    obtain ⟨created, accepted⟩ := accepted
    obtain ⟨room, _, absent, _⟩ := create_eq_ok accepted
    have reserve : (creation.record boundary).reserve codec = 16384 := rfl
    have sum := sum_reserve_le codec state
    have width := state_eq codec state
    rw [Table.sum_set_of_absent _ absent, reserve]
    change state.base codec + _ ≤ _
    omega
  | @changed invocation record change found changed =>
    refine Nat.le_trans (Nat.add_le_add_left (Table.sum_update_le ?_) _) reserved.potential
    intro value stored
    obtain rfl := Option.some.inj (found.symm.trans stored)
    have before : record.reserve codec = 16384 := by rw [Record.reserve, changed.unsealed]; rfl
    rw [before, Record.reserve]
    split
    · exact Nat.le_refl _
    · exact (changed.modest (reserved.modest invocation record found) found brought).entry_le

theorem Host.Initial.reserved : State.Reserved codec ⟨1, anchor, .empty⟩ := by
  refine ⟨fun _ _ found => absurd found (by simp), ?_⟩
  have width : State.base codec ⟨1, anchor, .empty⟩ = objectWidth [("version", (Nat.repr 1).length),
      ("anchor", objectWidth [("journal", 38), ("store", 38), ("domain", 38)]), ("records", 2)] :=
    rfl
  have none_ : (Table.empty : Table EntityId Record).sum
      (fun _ record => record.reserve codec) = 0 := rfl
  rw [width, none_]
  decide +kernel

theorem Host.Holds.reserved (reached : Transition.Reachable (Host.Initial codec anchor)
    (Host.ModestStep codec anchor) host) :
    ∃ state, host.Holds codec anchor state ∧ state.Reserved codec := by
  obtain ⟨start, initial, run⟩ := reached
  induction run with
  | refl => exact ⟨_, initial.holds, Host.Initial.reserved⟩
  | tail _ step ih =>
    obtain ⟨state, holds, reserved⟩ := ih
    obtain ⟨event, brought, rfl⟩ := step
    obtain ⟨_, same | ⟨next, change, held⟩⟩ := holds.run (Prod.mk.eta (p := _))
    · exact ⟨state, same, reserved⟩
    · exact ⟨next, held, reserved.change change (brought state holds.openJournal)⟩

/-- In a run whose records keep within their lengths no call fails for the length
of the file: only `create` ever refuses for lack of space. -/
theorem call_never_tooLong
    (reached : Transition.Reachable (Host.Initial codec anchor) (Host.ModestStep codec anchor) host)
    (brought : ∀ state, openJournal codec anchor host.disk anchor true = .ok ⟨state, false⟩ →
      event.Modest codec state) (called : event.isCall = true) :
    (host.run codec anchor event).1 ≠ .error tooLong := by
  obtain ⟨state, holds, reserved⟩ := Host.Holds.reserved reached
  intro long
  obtain ⟨next, change, exceeds⟩ := (holds.call called (Prod.mk.eta (p := _))).short long
  have fits := (reserved.change change (brought state holds.openJournal)).envelope_le
    (codec.stateSha256 next)
  omega

/-- After two creations the first Invocation can be cleaned up. -/
theorem call_never_tooLong_cleanup :
    createdHost.journal.state.records.rows.length = 2 ∧
      (createdHost.run plainCodec origin (cleanupEvent 5)).1 ≠ .error tooLong := by
  have brought : ∀ invocation inode, (invocation, inode) ∈ [(5, 15), (20, 25)] → ∀ state,
      (createEvent invocation inode).Modest plainCodec state := by
    intro invocation inode listed
    simp only [List.mem_cons, Prod.mk.injEq, List.not_mem_nil, or_false] at listed
    rcases listed with ⟨rfl, rfl⟩ | ⟨rfl, rfl⟩ <;> rintro state boundary (rfl | rfl) <;>
      exact ⟨by decide +kernel, by decide +kernel, by decide +kernel⟩
  refine ⟨by decide +kernel, call_never_tooLong (.next (.next (.start freshHost_initial)
    ⟨createEvent 5 15, fun state _ => brought 5 15 (by simp) state, rfl⟩)
    ⟨createEvent 20 25, fun state _ => brought 20 25 (by simp) state, rfl⟩) (fun _ _ => trivial)
    rfl⟩

end Stillyard.ExecutorJournal
