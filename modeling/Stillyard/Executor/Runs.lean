import Stillyard.Executor.Journal
import Stillyard.Lib.Transition
import Stillyard.Machine.Json

/-!
# Runs of the executor journal

Every publication is one of four changes of the state.  The file always holds a
state that these changes lead to, and the writer's copy is that state unless the
writer is poisoned; so what the changes respect holds of every file a run leaves,
wherever a publication failed or the process crashed.
-/

namespace Stillyard.ExecutorJournal

open Relational Fallible

variable {β : Type} (codec : Codec β) (anchor : Anchor)
variable {creation : Creation} {answer : Answer}
variable {failure : JournalError}

/-- What a publication of an event may do to the record of an Invocation. -/
inductive Record.Change (emptied : List Identity) (invocation : EntityId) (record : Record) :
    Event → Record → Prop where
  | ready {answer : Answer} (unsealed : record.sealed = none) (unrooted : record.root = none)
      (unreleased : record.releaseIntent = none) :
      Change emptied invocation record (.ready invocation launch contained answer) { record with
        root := some launch.root, executableSha256 := some launch.requestedSha256 }
  | released {answer : Answer} (short : codec.ticket ticket ≤ 8192)
      (unsealed : record.sealed = none) (unreleased : record.releaseIntent = none)
      (rooted : record.root.isSome) :
      Change emptied invocation record (.releaseIntent ticket answer)
        { record with releaseIntent := some ticket }
  | stamped {answers : CleanupAnswers}
      (unsealed : record.sealed = none) (bounded : record.boundary = some identity)
      (listed : identity ∈ emptied) (digested : record.boundarySha256 codec = .ok digest) :
      Change emptied invocation record (.cleanup invocation answers) { record with
        sealed := some ⟨invocation, digest, answers.sealId, record.releaseIntent.isSome⟩ }

/-- What a publication of an event may do to the state.  The boundary of a new
record is published with a second file. -/
inductive State.Change (emptied : List Identity) (event : Event) (state : State) :
    State → Prop where
  | created {creation : Creation} (event_ : event = .create creation answers)
      (known : boundary = none ∨ boundary = answers.boundary)
      (accepted : ∃ next, state.create codec creation answers.space = .ok next) :
      Change emptied event state { state with
        records := state.records.set creation.invocation (creation.record boundary) }
  | changed {change : Record → Record} (found : state.records.get? invocation = some record)
      (changes : record.Change codec emptied invocation event (change record)) :
      Change emptied event state (state.change invocation change)

/-- One record once and later: what is recorded stays, and a sealed record never
changes. -/
structure Record.Kept (before after : Record) : Prop where
  creation : after.containment = before.containment ∧ after.lease = before.lease ∧
    after.daemonGeneration = before.daemonGeneration ∧ after.creator = before.creator
  boundary : before.boundary.isSome → after.boundary = before.boundary
  root : before.root.isSome → after.root = before.root
  releaseIntent : before.releaseIntent.isSome → after.releaseIntent = before.releaseIntent
  sealed : before.sealed.isSome → after = before

/-- No record is removed. -/
def State.Kept (before after : State) : Prop :=
  ∀ invocation record, before.records.get? invocation = some record →
    ∃ later, after.records.get? invocation = some later ∧ record.Kept later

variable {codec anchor} {emptied : List Identity} {state next : State} {invocation : EntityId}
  {record after : Record} {host later : Host β} {result : Except JournalError Unit} {event : Event}

theorem Record.Kept.refl (record : Record) : record.Kept record :=
  ⟨⟨rfl, rfl, rfl, rfl⟩, fun _ => rfl, fun _ => rfl, fun _ => rfl, fun _ => rfl⟩

theorem Record.Kept.trans {first : Record} (earlier : first.Kept second)
    (later : second.Kept third) : first.Kept third := by
  refine ⟨?_, ?_, ?_, ?_, ?_⟩
  · obtain ⟨containment, lease, generation, creator⟩ := later.creation
    rw [containment, lease, generation, creator]
    exact earlier.creation
  · intro known
    have same := earlier.boundary known
    rw [later.boundary (same ▸ known), same]
  · intro known
    have same := earlier.root known
    rw [later.root (same ▸ known), same]
  · intro known
    have same := earlier.releaseIntent known
    rw [later.releaseIntent (same ▸ known), same]
  · intro known
    have same := earlier.sealed known
    rw [later.sealed (same ▸ known), same]

theorem State.Kept.refl (state : State) : state.Kept state :=
  fun _ record found => ⟨record, found, .refl record⟩

theorem State.Kept.trans {first : State} (earlier : first.Kept second) (later : second.Kept third) :
    first.Kept third := by
  intro invocation record found
  obtain ⟨middle, kept, grown⟩ := earlier invocation record found
  obtain ⟨last, still, more⟩ := later invocation middle kept
  exact ⟨last, still, grown.trans more⟩

theorem Record.Change.kept (changes : record.Change codec emptied invocation event after) :
    record.Kept after := by
  cases changes with
  | ready unsealed unrooted unreleased =>
    refine ⟨⟨rfl, rfl, rfl, rfl⟩, fun _ => rfl, ?_, fun _ => rfl, ?_⟩ <;>
      simp [unsealed, unrooted]
  | released short unsealed unreleased rooted =>
    refine ⟨⟨rfl, rfl, rfl, rfl⟩, fun _ => rfl, fun _ => rfl, ?_, ?_⟩ <;>
      simp [unsealed, unreleased]
  | stamped unsealed =>
    refine ⟨⟨rfl, rfl, rfl, rfl⟩, fun _ => rfl, fun _ => rfl, fun _ => rfl, ?_⟩
    simp [unsealed]

theorem create_eq_ok (created : state.create codec creation space = .ok next) :
    codec.state state + (state.active + 1) * 16384 ≤ maxBytes - 1024 * 1024 ∧
      (creation.invocation.storeUuid = state.anchor.store ∧
        creation.containment.storeUuid = state.anchor.store ∧ creation.lease ≠ 0 ∧
        creation.generation ≠ 0) ∧ state.records.get? creation.invocation = none ∧
      state.records.rows.length < maxRecords ∧
      next = { state with
        records := state.records.set creation.invocation (creation.record none) } := by
  simp only [State.create, ok_iff, test_iff,
    Option.isNone_iff_eq_none] at created
  obtain ⟨_, room, _, ⟨⟨⟨⟨⟨⟨⟨store, containment⟩, lease⟩, generation⟩, absent⟩, few⟩, _⟩, _⟩, _, _,
    rfl⟩ := created
  exact ⟨room, ⟨store, containment, lease, generation⟩, absent, few, rfl⟩

variable (changes : state.Change codec emptied event next)

include changes in
/-- The records after a change. -/
theorem State.Change.get? (found : next.records.get? invocation = some after) :
    state.records.get? invocation = some after ∨
      (∃ before, state.records.get? invocation = some before ∧
        before.Change codec emptied invocation event after) ∨
      state.records.get? invocation = none ∧ ∃ creation answers boundary created,
        event = .create creation answers ∧ (boundary = none ∨ boundary = answers.boundary) ∧
          state.create codec creation answers.space = .ok created ∧
          creation.invocation = invocation ∧ after = creation.record boundary := by
  cases changes with
  | created event_ boundary accepted =>
    obtain ⟨created, accepted⟩ := accepted
    cases Table.get?_set_eq_some.mp found with
    | inr other => exact .inl other.2
    | inl same =>
      obtain ⟨rfl, rfl⟩ := same
      obtain ⟨_, _, absent, _⟩ := create_eq_ok accepted
      exact .inr (.inr ⟨absent, _, _, _, created, event_, boundary, accepted, rfl, rfl⟩)
  | @changed named before change known changes =>
    obtain ⟨rfl, _, foundOld, rfl⟩ | ⟨_, found⟩ := Table.get?_update_eq_some.mp found
    · cases known.symm.trans foundOld
      exact .inr (.inl ⟨before, known, changes⟩)
    · exact .inl found

include changes in
theorem State.Change.kept : state.Kept next := by
  intro invocation record found
  cases changes with
  | created _ _ accepted =>
    obtain ⟨created, accepted⟩ := accepted
    obtain ⟨_, _, absent, _⟩ := create_eq_ok accepted
    refine ⟨record, ?_, .refl record⟩
    rw [Table.get?_set, if_neg, found]
    rintro rfl
    rw [absent] at found
    cases found
  | @changed named before change known changes =>
    by_cases same : invocation = named
    · subst same
      rw [known, Option.some.injEq] at found
      subst found
      refine ⟨change before, ?_, changes.kept⟩
      rw [State.change, Table.get?_update, if_pos rfl, known, Option.map_some]
    · refine ⟨record, ?_, .refl record⟩
      rw [State.change, Table.get?_update, if_neg same, found]

/-! ## What every file satisfies -/

variable (codec anchor) in
/-- What holds of the record of an Invocation. -/
structure Record.Sound (emptied : List Identity) (invocation : EntityId) (record : Record) :
    Prop where
  checked : checkRecord codec anchor (invocation, record) = .ok ()
  rooted : record.releaseIntent.isSome → record.root.isSome
  emptied : record.sealed.isSome → ∃ identity ∈ emptied, record.boundary = some identity

variable (codec anchor) in
structure State.Sound (emptied : List Identity) (state : State) : Prop where
  version : state.version = 1
  anchored : state.anchor = anchor
  few : state.records.rows.length ≤ maxRecords
  records : ∀ invocation record, state.records.get? invocation = some record →
    record.Sound codec anchor emptied invocation

theorem checkRecord_eq_ok :
    checkRecord codec anchor (invocation, record) = .ok () ↔
      (invocation.storeUuid = anchor.store ∧ record.containment.storeUuid = anchor.store ∧
        record.lease ≠ 0 ∧ record.daemonGeneration ≠ 0) ∧
      ∀ stamp, record.sealed = some stamp → stamp.invocation = invocation ∧ stamp.sealId ≠ 0 ∧
        record.boundarySha256 codec = .ok stamp.boundarySha256 ∧
        stamp.possiblyReleased = record.releaseIntent.isSome := by
  simp only [checkRecord, ok_iff, test_iff, exists_const, and_assoc]
  cases record.sealed with
  | none => simp [pure_eq_ok]
  | some stamp =>
    simp only [ok_iff, test_iff, exists_const, Option.some.injEq,
      forall_eq', and_assoc]
    constructor
    · rintro ⟨store, containment, lease, generation, same, named, digest, digested, rfl, released⟩
      exact ⟨store, containment, lease, generation, same, named, digested, released⟩
    · rintro ⟨store, containment, lease, generation, same, named, digested, released⟩
      exact ⟨store, containment, lease, generation, same, named, _, digested, rfl, released⟩

theorem Record.Sound.mono (sound : record.Sound codec anchor emptied invocation)
    (listed : emptied ⊆ more) : record.Sound codec anchor more invocation := by
  refine ⟨sound.checked, sound.rooted, ?_⟩
  intro stamped
  obtain ⟨identity, member, bounded⟩ := sound.emptied stamped
  exact ⟨identity, listed member, bounded⟩

theorem Record.Change.sound (changes : record.Change codec emptied invocation event after)
    (sound : record.Sound codec anchor emptied invocation) :
    after.Sound codec anchor emptied invocation := by
  obtain ⟨own, _⟩ := checkRecord_eq_ok.mp sound.checked
  cases changes with
  | ready unsealed unrooted unreleased =>
    refine ⟨checkRecord_eq_ok.mpr ⟨own, ?_⟩, fun _ => rfl, ?_⟩ <;> simp [unsealed]
  | released short unsealed unreleased rooted =>
    refine ⟨checkRecord_eq_ok.mpr ⟨own, ?_⟩, fun _ => rooted, ?_⟩ <;> simp [unsealed]
  | stamped unsealed bounded listed digested =>
    refine ⟨checkRecord_eq_ok.mpr ⟨own, ?_⟩, sound.rooted, fun _ => ⟨_, listed, bounded⟩⟩
    rintro stamp ⟨⟩
    exact ⟨rfl, CleanupAnswers.sealId_ne_nil _, digested, rfl⟩

include changes in
theorem State.Change.sound (sound : state.Sound codec anchor emptied) :
    next.Sound codec anchor emptied := by
  have records : ∀ invocation record, next.records.get? invocation = some record →
      record.Sound codec anchor emptied invocation := by
    intro invocation record found
    obtain same | ⟨before, known, changed⟩ |
      ⟨_, creation, _, boundary, _, _, _, accepted, rfl, rfl⟩ := changes.get? found
    · exact sound.records invocation record same
    · exact changed.sound (sound.records invocation before known)
    · obtain ⟨_, own, _⟩ := create_eq_ok accepted
      rw [sound.anchored] at own
      exact ⟨checkRecord_eq_ok.mpr ⟨own, nofun⟩, nofun, nofun⟩
  cases changes with
  | @created _ boundary creation _ _ accepted =>
    obtain ⟨created, accepted⟩ := accepted
    obtain ⟨_, _, absent, few, _⟩ := create_eq_ok accepted
    refine ⟨sound.version, sound.anchored, ?_, records⟩
    have keys := congrArg List.length (Table.keys_set_of_absent (creation.record boundary) absent)
    simp only [Table.keys, List.length_map, List.length_append, List.length_singleton] at keys
    rw [keys]
    exact few
  | changed found changed =>
    refine ⟨sound.version, sound.anchored, ?_, records⟩
    rw [State.change, Table.update, Table.modify, List.length_map]
    exact sound.few

variable (codec anchor) in
/-- The file holds the state, and so does the writer unless it is poisoned. -/
structure Host.Holds (host : Host β) (state : State) : Prop where
  disk : host.disk = codec.encode ⟨state, codec.stateSha256 state⟩
  short : codec.length host.disk ≤ maxBytes
  sound : state.Sound codec anchor host.emptied
  memory : host.journal.poisoned = false → host.journal.state = state

theorem Host.Holds.readEnvelope (holds : host.Holds codec anchor state) :
    readEnvelope codec host.disk = .ok ⟨state, codec.stateSha256 state⟩ := by
  simp only [ExecutorJournal.readEnvelope, ok_iff, decide_eq_true_eq]
  refine ⟨(), holds.short, ?_⟩
  rw [holds.disk, codec.decode_encode]

/-- Every such file is accepted. -/
theorem Host.Holds.openJournal (holds : host.Holds codec anchor state) :
    openJournal codec anchor host.disk anchor true = .ok ⟨state, false⟩ := by
  simp only [ExecutorJournal.openJournal, ok_iff, test_iff, exists_const]
  refine ⟨trivial, _, holds.readEnvelope, ?_, ⟨⟩, ?_, rfl⟩
  · exact ⟨⟨⟨⟨trivial, holds.sound.anchored⟩, holds.sound.version⟩, rfl⟩, holds.sound.few⟩
  · apply forM_of_forall
    intro entry listed
    exact (holds.sound.records entry.1 entry.2 (Table.mem_rows.mp listed)).checked

/-- The text of a publication that is too long. -/
def tooLong : JournalError := .invalid "executor history exceeds size bound"

theorem Host.check_of_poisoned (poisoned : host.journal.poisoned = true) (system : Bool) :
    host.check codec anchor system =
      .error (.invalid "executor publication failed; history requires recovery") := by
  simp [Host.check, poisoned, require, bind, Except.bind]

theorem Host.Holds.check (holds : host.Holds codec anchor state) :
    host.check codec anchor system ≠ .error tooLong := by
  rw [Host.check, holds.readEnvelope]
  cases host.journal.poisoned <;> cases system <;>
    simp [require, bind, Except.bind, tooLong]
  split <;> simp

/-- A commit leaves the old file or the new one, and ends well only with the new
one. -/
theorem Host.Holds.commit (holds : host.Holds codec anchor state)
    (sound : next.Sound codec anchor host.emptied)
    (committed : host.commit codec anchor next answer = (result, later)) :
    later.emptied = host.emptied ∧
      (later.Holds codec anchor state ∨ later.Holds codec anchor next) ∧
      (result = .ok () → later.Holds codec anchor next ∧ later.journal = ⟨next, false⟩) ∧
      (result = .error tooLong →
        maxBytes < codec.envelope ⟨next, codec.stateSha256 next⟩) := by
  cases checked : host.check codec anchor answer.system with
  | error failure =>
    simp only [Host.commit, checked, Prod.mk.injEq] at committed
    obtain ⟨rfl, rfl⟩ := committed
    refine ⟨rfl, .inl holds, nofun, ?_⟩
    intro long
    exact absurd (checked.trans (congrArg _ (Except.error.inj long))) holds.check
  | ok done =>
    have kept : Host.Holds codec anchor
        { host with journal := { host.journal with poisoned := true } } state :=
      ⟨holds.disk, holds.short, holds.sound, nofun⟩
    simp only [Host.commit, checked] at committed
    by_cases long : maxBytes < codec.length (codec.encode ⟨next, codec.stateSha256 next⟩)
    · rw [if_pos long, Prod.mk.injEq] at committed
      obtain ⟨rfl, rfl⟩ := committed
      rw [codec.length_encode] at long
      exact ⟨rfl, .inl kept, nofun, fun _ => long⟩
    · have short := Nat.le_of_not_lt long
      rw [if_neg long] at committed
      cases ended : answer.publication with
      | unwritten =>
        simp only [ended, Prod.mk.injEq] at committed
        obtain ⟨rfl, rfl⟩ := committed
        exact ⟨rfl, .inl kept, nofun, nofun⟩
      | unsynced =>
        simp only [ended, Prod.mk.injEq] at committed
        obtain ⟨rfl, rfl⟩ := committed
        exact ⟨rfl, .inr ⟨rfl, short, sound, nofun⟩, nofun, nofun⟩
      | completed =>
        simp only [ended, Prod.mk.injEq] at committed
        obtain ⟨rfl, rfl⟩ := committed
        have written : Host.Holds codec anchor { host with
            disk := codec.encode ⟨next, codec.stateSha256 next⟩,
            journal := ⟨next, false⟩ } next := ⟨rfl, short, sound, fun _ => rfl⟩
        exact ⟨rfl, .inr written, fun _ => ⟨written, rfl⟩, nofun⟩

/-- A commit that fails was refused by the check of the file, or it poisons the
writer. -/
theorem Host.commit_error (failed : (host.commit codec anchor next answer).1 = .error failure) :
    host.check codec anchor answer.system = .error failure ∧
        (host.commit codec anchor next answer).2 = host ∨
      host.check codec anchor answer.system = .ok () ∧
        (host.commit codec anchor next answer).2.journal.poisoned = true := by
  cases checked : host.check codec anchor answer.system with
  | error reason =>
    rw [Host.commit, checked] at failed ⊢
    exact .inl ⟨failed, rfl⟩
  | ok done =>
    refine .inr ⟨rfl, ?_⟩
    by_cases long : maxBytes < codec.length (codec.encode ⟨next, codec.stateSha256 next⟩)
    · simp [Host.commit, checked, long]
    · cases ended : answer.publication <;>
        simp [Host.commit, checked, if_neg long, ended] at failed ⊢

variable (codec anchor) in
/-- What a call does: it publishes at most one change, and fails for the length
of a file only if one of its changes is too long. -/
structure Host.Publishes (host : Host β) (event : Event) (state : State)
    (result : Except JournalError Unit) (later : Host β) : Prop where
  emptied : host.emptied ⊆ later.emptied
  file : later.Holds codec anchor state ∨
    ∃ next, state.Change codec later.emptied event next ∧ later.Holds codec anchor next
  short : result = .error tooLong → ∃ next, state.Change codec later.emptied event next ∧
    maxBytes < codec.envelope ⟨next, codec.stateSha256 next⟩

theorem Host.Holds.unchanged (holds : host.Holds codec anchor state)
    (other : result ≠ .error tooLong) : host.Publishes codec anchor event state result host :=
  ⟨List.Subset.refl _, .inl holds, fun long => absurd long other⟩

theorem Host.Holds.publishes (holds : host.Holds codec anchor state)
    (changes : host.journal.poisoned = false → state.Change codec host.emptied event next)
    (committed : host.commit codec anchor next answer = (result, later)) :
    host.Publishes codec anchor event state result later := by
  cases poisoned : host.journal.poisoned with
  | true =>
    simp only [Host.commit, Host.check_of_poisoned poisoned, Prod.mk.injEq] at committed
    obtain ⟨rfl, rfl⟩ := committed
    exact holds.unchanged (by decide)
  | false =>
    have change := changes poisoned
    obtain ⟨same, file, _, long⟩ := holds.commit (change.sound holds.sound) committed
    rw [← same] at change
    exact ⟨same ▸ List.Subset.refl _, file.imp_right fun written => ⟨next, change, written⟩,
      fun failed => ⟨next, change, long failed⟩⟩

theorem Host.check_eq_ok (checked : host.check codec anchor system = .ok done) :
    host.journal.poisoned = false := by
  simp only [Host.check, ok_iff, Bool.not_eq_true'] at checked
  obtain ⟨_, clean, _⟩ := checked
  exact clean

theorem Host.Holds.prepared {prepared : Except JournalError State}
    (holds : host.Holds codec anchor state) (other : FailsOnly (· ≠ tooLong) prepared)
    (changes : ∀ next, host.journal.state = state → prepared = .ok next →
      state.Change codec host.emptied event next)
    (ran : host.publish codec anchor prepared answer = (result, later)) :
    host.Publishes codec anchor event state result later := by
  cases prepared with
  | error failure =>
    cases ran
    exact holds.unchanged fun same => other failure rfl (Except.error.inj same)
  | ok next => exact holds.publishes (fun clean => changes next (holds.memory clean) rfl) ran

theorem Host.Holds.ready {launch : PreparedLaunch} {contained : Option Bool}
    (holds : host.Holds codec anchor state)
    (ran : host.ready codec anchor invocation launch contained answer = (result, later)) :
    host.Publishes codec anchor (.ready invocation launch contained answer) state result later := by
  apply holds.prepared _ _ ran
  · exact .bind (.orError (by decide)) fun _ _ => .bind (.require (by decide)) fun _ _ =>
      .bind (.orError (by decide)) fun _ _ => .bind (.orError (by decide)) fun _ _ =>
        .bind (.require (by decide)) fun _ _ => .ok _
  · rintro next rfl prepared
    simp only [State.ready, ok_iff, Bool.and_eq_true, Option.isNone_iff_eq_none] at prepared
    obtain ⟨record, found, _, ⟨⟨unsealed, unrooted⟩, unreleased⟩, _, _, _, _, _, _, rfl⟩ := prepared
    exact .changed found (.ready unsealed unrooted unreleased)

theorem Host.Holds.releaseIntent {ticket : InvocationTicket} (holds : host.Holds codec anchor state)
    (ran : host.releaseIntent codec anchor ticket answer = (result, later)) :
    host.Publishes codec anchor (.releaseIntent ticket answer) state result later := by
  apply holds.prepared _ _ ran
  · exact .bind (.require (by decide)) fun _ _ => .bind (.orError (by decide)) fun _ _ =>
      .bind (.require (by decide)) fun _ _ =>
        .bind (.bind (.orError (by decide)) fun _ _ => .ok _) fun _ _ =>
          .bind (.require (by decide)) fun _ _ => .ok _
  · rintro next rfl prepared
    simp only [State.releaseIntent, ok_iff, Bool.and_eq_true, Option.isNone_iff_eq_none,
      decide_eq_true_eq, and_assoc] at prepared
    obtain ⟨_, short, record, found, _, unsealed, unreleased, rooted, _, _, _, _, _, _, _, _, _,
      rfl⟩ := prepared
    exact .changed found (.released short unsealed unreleased rooted)

theorem State.Sound.mono (sound : state.Sound codec anchor emptied) (listed : emptied ⊆ more) :
    state.Sound codec anchor more :=
  ⟨sound.version, sound.anchored, sound.few, fun invocation record found =>
    (sound.records invocation record found).mono listed⟩

section Operations

variable (holds : host.Holds codec anchor state)

include holds

/-- The checks in front of an operation fail for their own reasons. -/
theorem Host.Holds.check_bind {α : Type} {guard : Except JournalError α}
    (other : FailsOnly (· ≠ tooLong) guard)
    (failed : (host.check codec anchor system >>= fun _ => guard) = .error failure) :
    failure ≠ tooLong := by
  have both : FailsOnly (· ≠ tooLong) (host.check codec anchor system >>= fun _ => guard) := by
    refine .bind ?_ fun _ _ => other
    rintro reason failed rfl
    exact holds.check failed
  exact both failure failed

theorem Host.Holds.cleanup {answers : CleanupAnswers}
    (ran : host.cleanup codec anchor invocation answers = (result, later)) :
    host.Publishes codec anchor
      (.cleanup invocation answers) state result later := by
  rw [Host.cleanup] at ran
  split at ran
  · next failure failed =>
    cases ran
    exact holds.unchanged fun same =>
      holds.check_bind (.orError (by decide)) failed (Except.error.inj same)
  · next record found =>
    obtain ⟨_, checked, found⟩ := bind_eq_ok.mp found
    rw [holds.memory (Host.check_eq_ok checked), orError_eq_ok] at found
    split at ran
    · cases ran
      exact holds.unchanged nofun
    · next unsealed =>
      cases bounded : record.boundary with
      | none =>
        simp only [bounded, orError, Prod.mk.injEq] at ran
        obtain ⟨rfl, rfl⟩ := ran
        exact holds.unchanged (by decide)
      | some identity =>
        simp only [bounded, orError] at ran
        split at ran
        · cases ran
          exact holds.unchanged (by decide)
        · have digested : record.boundarySha256 codec = .ok (codec.boundarySha256
              (record.containment, record.lease, record.daemonGeneration, record.creator,
                identity, record.root, record.executableSha256)) := by
            rw [Record.boundarySha256, bounded]
            rfl
          rw [digested] at ran
          have listed : host.emptied ⊆ identity :: host.emptied :=
            List.subset_cons_of_subset _ (List.Subset.refl _)
          have held : Host.Holds codec anchor
              { host with emptied := identity :: host.emptied } state :=
            ⟨holds.disk, holds.short, holds.sound.mono listed, holds.memory⟩
          rw [Bool.not_eq_true, Option.isSome_eq_false_iff, Option.isNone_iff_eq_none] at unsealed
          rw [holds.memory (Host.check_eq_ok checked)] at ran
          have published := held.publishes (fun _ => State.Change.changed found
            (.stamped unsealed bounded List.mem_cons_self digested)) ran
          exact ⟨List.Subset.trans listed published.emptied, published.file,
            published.short⟩

theorem Host.Holds.create {answers : CreateAnswers}
    (ran : host.create codec anchor creation answers = (result, later)) :
    host.Publishes codec anchor
      (.create creation answers) state result later ∧
      (result = .ok () → state.records.get? creation.invocation = none) := by
  rw [Host.create] at ran
  split at ran
  · next failure failed =>
    cases ran
    have other : FailsOnly (· ≠ tooLong)
        (host.journal.state.create codec creation answers.space) :=
      .bind (.require (by decide)) fun _ _ => .bind (.require (by decide)) fun _ _ =>
        .bind (.require (by decide)) fun _ _ => .ok _
    exact ⟨holds.unchanged fun same => holds.check_bind other failed (Except.error.inj same),
      nofun⟩
  · next first accepted =>
    obtain ⟨_, checked, accepted⟩ := bind_eq_ok.mp accepted
    rw [holds.memory (Host.check_eq_ok checked)] at accepted
    obtain ⟨_, _, absent, _, rfl⟩ := create_eq_ok accepted
    have changes : ∀ boundary, boundary = none ∨ boundary = answers.boundary →
        state.Change codec host.emptied (.create creation answers) { state with
          records := state.records.set creation.invocation (creation.record boundary) } :=
      fun boundary known => .created rfl known ⟨_, accepted⟩
    refine ⟨?_, fun _ => absent⟩
    split at ran
    · next failed committed =>
      cases ran
      exact holds.publishes (fun _ => changes none (.inl rfl)) committed
    · next middle committed =>
      obtain ⟨same, _, done, _⟩ :=
        holds.commit ((changes none (.inl rfl)).sound holds.sound) committed
      obtain ⟨held, written⟩ := done rfl
      rw [← same] at changes
      split at ran
      · cases ran
        exact ⟨same ▸ List.Subset.refl _, .inr ⟨_, changes none (.inl rfl), held⟩, nofun⟩
      · next identity known =>
        -- The second file has the same new record, with its boundary.
        rw [written, State.change,
          Table.update_set_of_absent (creation.record none) _ absent] at ran
        obtain ⟨still, file, _, long⟩ := held.commit
          ((changes (some identity) (.inr known.symm)).sound (same ▸ holds.sound)) ran
        rw [← still] at changes
        refine ⟨(still.trans same) ▸ List.Subset.refl _, ?_, fun failed =>
          ⟨_, changes (some identity) (.inr known.symm), long failed⟩⟩
        exact .inr (file.elim (fun old => ⟨_, changes none (.inl rfl), old⟩)
          fun new => ⟨_, changes (some identity) (.inr known.symm), new⟩)

theorem Host.Holds.call (called : event.isCall = true)
    (ran : host.run codec anchor event = (result, later)) :
    host.Publishes codec anchor event state result later := by
  rw [Host.run] at ran
  split at ran
  · cases ran
    exact holds.unchanged (by decide)
  · cases event with
    | crash | reopen => cases called
    | create => exact (holds.create ran).1
    | ready => exact holds.ready ran
    | releaseIntent => exact holds.releaseIntent ran
    | cleanup => exact holds.cleanup ran

/-- One event leaves the file as it is or publishes one change. -/
theorem Host.Holds.run (ran : host.run codec anchor event = (result, later)) :
    host.emptied ⊆ later.emptied ∧ (later.Holds codec anchor state ∨
      ∃ next, state.Change codec later.emptied event next ∧ later.Holds codec anchor next) := by
  cases called : event.isCall with
  | true =>
    have published := holds.call called ran
    exact ⟨published.emptied, published.file⟩
  | false =>
    cases event with
    | create | ready | releaseIntent | cleanup => cases called
    | crash =>
      cases ran
      exact ⟨List.Subset.refl _, .inl ⟨holds.disk, holds.short, holds.sound, holds.memory⟩⟩
    | reopen expected system =>
      rw [Host.run, if_neg (by simp [called]), Host.perform] at ran
      split at ran
      · cases ran
        exact ⟨List.Subset.refl _, .inl ⟨holds.disk, holds.short, holds.sound, holds.memory⟩⟩
      · next journal opened =>
        cases ran
        simp only [ExecutorJournal.openJournal, holds.readEnvelope, ok_iff,
          Except.ok.injEq] at opened
        obtain ⟨_, _, _, rfl, _, _, _, _, rfl⟩ := opened
        exact ⟨List.Subset.refl _, .inl ⟨holds.disk, holds.short, holds.sound, fun _ => rfl⟩⟩

end Operations

theorem Host.Initial.holds (initial : host.Initial codec anchor) :
    host.Holds codec anchor ⟨1, anchor, .empty⟩ := by
  obtain ⟨disk, emptied, journal⟩ := initial
  refine ⟨disk, ?_, ⟨rfl, rfl, Nat.zero_le _, fun _ _ found => absurd found (by simp)⟩,
    fun _ => by rw [journal]⟩
  rw [disk, codec.length_encode]
  have width : codec.envelope ⟨⟨1, anchor, .empty⟩, codec.stateSha256 ⟨1, anchor, .empty⟩⟩ =
      objectWidth [("state", objectWidth [("version", (Nat.repr 1).length), ("anchor", objectWidth
        [("journal", 38), ("store", 38), ("domain", 38)]), ("records", 2)]), ("sha256", 66)] := rfl
  rw [width]
  decide +kernel

theorem Host.Holds.kept (holds : host.Holds codec anchor state)
    (run : Relation.ReflTransGen (Host.Step codec anchor) host later) :
    ∃ next, later.Holds codec anchor next ∧ state.Kept next := by
  induction run with
  | refl => exact ⟨state, holds, .refl state⟩
  | tail _ step ih =>
    obtain ⟨middle, held, kept⟩ := ih
    obtain ⟨event, rfl⟩ := step
    obtain ⟨_, same | ⟨next, change, written⟩⟩ := held.run (Prod.mk.eta (p := _))
    · exact ⟨middle, same, kept⟩
    · exact ⟨next, written, kept.trans change.kept⟩

theorem Host.holds_of_reachable
    (reached : Transition.Reachable (Host.Initial codec anchor) (Host.Step codec anchor) host) :
    ∃ state, host.Holds codec anchor state := by
  obtain ⟨start, initial, run⟩ := reached
  obtain ⟨state, holds, _⟩ := initial.holds.kept run
  exact ⟨state, holds⟩

/-- What the intent and the seal of a record rest on is in an earlier state. -/
def State.Supports (earlier : State) (invocation : EntityId) (record : Record) : Prop :=
  (record.releaseIntent.isSome → ∃ before, earlier.records.get? invocation = some before ∧
    before.root.isSome) ∧
  (record.sealed.isSome → ∃ before, earlier.records.get? invocation = some before ∧
    before.boundary.isSome ∧ before.boundary = record.boundary)

theorem State.Sound.supports (sound : state.Sound codec anchor emptied)
    (found : state.records.get? invocation = some record) : state.Supports invocation record := by
  have own := sound.records invocation record found
  refine ⟨fun released => ⟨record, found, own.rooted released⟩, fun stamped => ?_⟩
  obtain ⟨identity, _, bounded⟩ := own.emptied stamped
  exact ⟨record, found, by rw [bounded]; rfl, rfl⟩

include changes in
/-- A change records an intent and a seal only after what they rest on. -/
theorem State.Change.supports (sound : state.Sound codec anchor emptied)
    (found : next.records.get? invocation = some record) : state.Supports invocation record := by
  obtain same | ⟨before, known, changed⟩ | ⟨_, _, _, _, _, _, _, _, _, rfl⟩ :=
    changes.get? found
  · exact sound.supports same
  · cases changed with
    | ready unsealed unrooted unreleased => simp [State.Supports, unsealed, unreleased]
    | released short unsealed unreleased rooted =>
      exact ⟨fun _ => ⟨before, known, rooted⟩, by simp [unsealed]⟩
    | stamped unsealed bounded listed digested =>
      exact ⟨(sound.supports known).1, fun _ => ⟨before, known, by rw [bounded]; rfl, rfl⟩⟩
  · exact ⟨nofun, nofun⟩

/-- A poisoned writer changes nothing. -/
theorem Host.run_of_poisoned (poisoned : host.journal.poisoned = true)
    (called : event.isCall = true) : (host.run codec anchor event).2 = host := by
  have refused : ∀ next answer, (host.commit codec anchor next answer).2 = host := by
    intro next answer
    rw [Host.commit, Host.check_of_poisoned poisoned]
  rw [Host.run]
  split
  · rfl
  · cases event with
    | crash | reopen => cases called
    | create =>
      rw [Host.perform, Host.create, Host.check_of_poisoned poisoned]
      rfl
    | ready | releaseIntent =>
      simp only [Host.perform, Host.ready, Host.releaseIntent, Host.publish]
      split
      · rfl
      · exact refused _ _
    | cleanup =>
      rw [Host.perform, Host.cleanup, Host.check_of_poisoned poisoned]
      rfl

variable (codec anchor) in
/-- A call by the process that holds the journal. -/
def Host.Called (host later : Host β) : Prop :=
  ∃ event : Event, event.isCall = true ∧ (host.run codec anchor event).2 = later

theorem Host.called_of_poisoned (poisoned : host.journal.poisoned = true)
    (called : Relation.ReflTransGen (Host.Called codec anchor) host later) : later = host := by
  induction called with
  | refl => rfl
  | tail _ last same =>
    obtain ⟨event, call, rfl⟩ := last
    rw [same]
    exact Host.run_of_poisoned poisoned call

/-- In every run, with a crash or a failed publication anywhere: the file can be
opened; what it records stays recorded, no Invocation is created twice and a
sealed record never changes; a seal follows a successful `kill_and_seal` on the
recorded boundary and tells whether there is a release intent; an intent follows
the root; and a failed publication stops the writer until the journal is opened
again. -/
theorem journal_sound
    (reached : Transition.Reachable (Host.Initial codec anchor) (Host.Step codec anchor) host) :
    ∃ state, openJournal codec anchor host.disk anchor true = .ok ⟨state, false⟩ ∧
      (∀ invocation record, state.records.get? invocation = some record →
        (record.releaseIntent.isSome → record.root.isSome) ∧
        ∀ stamp, record.sealed = some stamp →
          (∃ identity ∈ host.emptied, record.boundary = some identity) ∧
          stamp.possiblyReleased = record.releaseIntent.isSome) ∧
      (∀ later, Relation.ReflTransGen (Host.Step codec anchor) host later →
        ∃ next, openJournal codec anchor later.disk anchor true = .ok ⟨next, false⟩ ∧
          state.Kept next) ∧
      (∀ event result later, host.run codec anchor event = (result, later) →
        (∀ creation answers, event = .create creation answers → result = .ok () →
          state.records.get? creation.invocation = none) ∧
        ∃ next, openJournal codec anchor later.disk anchor true = .ok ⟨next, false⟩ ∧
          ∀ invocation record, next.records.get? invocation = some record →
            state.Supports invocation record) ∧
      (∀ next answer failure, (host.commit codec anchor next answer).1 = .error failure →
        host.check codec anchor answer.system = .error failure ∧
            (host.commit codec anchor next answer).2 = host ∨
          host.check codec anchor answer.system = .ok () ∧
            (host.commit codec anchor next answer).2.journal.poisoned = true) ∧
      (host.journal.poisoned = true → ∀ later,
        Relation.ReflTransGen (Host.Called codec anchor) host later → later = host) := by
  obtain ⟨state, holds⟩ := Host.holds_of_reachable reached
  refine ⟨state, holds.openJournal, ?_, ?_, ?_, fun _ _ _ => Host.commit_error,
    fun poisoned _ => Host.called_of_poisoned poisoned⟩
  · intro invocation record found
    have sound := holds.sound.records invocation record found
    refine ⟨sound.rooted, fun stamp stamped => ⟨sound.emptied (by rw [stamped]; rfl), ?_⟩⟩
    exact ((checkRecord_eq_ok.mp sound.checked).2 stamp stamped).2.2.2
  · intro later run
    obtain ⟨next, held, kept⟩ := holds.kept run
    exact ⟨next, held.openJournal, kept⟩
  · intro event result later ran
    constructor
    · rintro creation answers rfl done
      rw [Host.run] at ran
      split at ran
      · cases ran
        cases done
      · exact (holds.create ran).2 done
    · obtain ⟨listed, held | ⟨next, change, held⟩⟩ := holds.run ran
      · exact ⟨state, held.openJournal, fun _ _ => held.sound.supports⟩
      · exact ⟨next, held.openJournal, fun _ _ => change.supports (holds.sound.mono listed)⟩

/-- 64 hexadecimal digits. -/
def repeatedDigit (number : Nat) : String :=
  String.ofList (List.replicate 64 (Nat.digitChar (number % 16)))

/-- A codec that keeps the value, with the lengths of its JSON text. -/
def plainCodec : Codec Envelope where
  text := Json.text
  process
    | .linux hostId bootId pid startTicks pidNamespaceInode uid =>
      objectWidth [("platform", 7), ("host_id", Json.text hostId), ("boot_id", Json.text bootId),
        ("pid", Json.number pid), ("start_ticks", Json.number startTicks),
        ("pid_namespace_inode", Json.number pidNamespaceInode), ("uid", Json.number uid)]
    | .windows hostId bootId pid creationFiletime100ns =>
      objectWidth [("platform", 9), ("host_id", Json.text hostId), ("boot_id", Json.text bootId),
        ("pid", Json.number pid),
        ("creation_filetime_100ns", Json.number creationFiletime100ns)]
    | .unknown platform => objectWidth [("platform", Json.text platform)]
  identity identity := objectWidth [("boot_id", Json.text identity.bootId),
    ("path", Json.text identity.path), ("device", Json.number identity.device),
    ("inode", Json.number identity.inode)]
  ticket := Json.ticket
  encode := id
  decode := some
  length envelope := Widths.envelope _ envelope
  stateSha256 state := repeatedDigit (state.records.sum fun _ record =>
    1 + (if record.boundary.isSome then 2 else 0) + if record.sealed.isSome then 4 else 0)
  boundarySha256 described := repeatedDigit described.2.2.2.2.1.inode
  decode_encode _ := rfl
  length_encode _ := rfl

def origin : Anchor := ⟨1, 2, 3⟩

def freshHost : Host Envelope :=
  ⟨⟨⟨1, origin, .empty⟩, plainCodec.stateSha256 ⟨1, origin, .empty⟩⟩, [],
    ⟨⟨1, origin, .empty⟩, false⟩, true⟩

theorem freshHost_initial : freshHost.Initial plainCodec origin := ⟨rfl, rfl, rfl⟩

/-- The creation of an Invocation, with the cgroup of this inode as its boundary. -/
def createEvent (invocation inode : Nat) : Event :=
  .create ⟨⟨2, invocation⟩, ⟨2, invocation + 1⟩, 7, 8, .linux "host" "boot" 10 11 12 13⟩
    ⟨true, 2 ^ 40, ⟨true, .completed⟩, some ⟨"boot", "/invocation", 14, inode⟩,
      ⟨true, .completed⟩⟩

/-- Two Invocations are created. -/
def createdHost : Host Envelope :=
  ((freshHost.run plainCodec origin (createEvent 5 15)).2.run plainCodec origin
    (createEvent 20 25)).2

def cleanupEvent (invocation : Nat) : Event :=
  .cleanup ⟨2, invocation⟩ ⟨true, true, 16, by decide, ⟨true, .unsynced⟩⟩

/-- The first Invocation is sealed and the last synchronization fails: the seal is in
the file, and the second one is not sealed before the journal is opened again. -/
theorem journal_sound_unsynced :
    (createdHost.run plainCodec origin (cleanupEvent 5)).2.emptied =
        [⟨"boot", "/invocation", 14, 15⟩] ∧
      (∃ state, openJournal plainCodec origin
        (createdHost.run plainCodec origin (cleanupEvent 5)).2.disk origin true =
          .ok ⟨state, false⟩) ∧
      ((createdHost.run plainCodec origin (cleanupEvent 5)).2.run plainCodec origin
        (cleanupEvent 20)).2 = (createdHost.run plainCodec origin (cleanupEvent 5)).2 := by
  have reached : Transition.Reachable (Host.Initial plainCodec origin)
      (Host.Step plainCodec origin) (createdHost.run plainCodec origin (cleanupEvent 5)).2 :=
    .next (.next (.next (.start freshHost_initial) ⟨createEvent 5 15, rfl⟩)
      ⟨createEvent 20 25, rfl⟩) ⟨cleanupEvent 5, rfl⟩
  obtain ⟨state, opened, _, _, _, _, stopped⟩ := journal_sound reached
  exact ⟨by decide +kernel, ⟨state, opened⟩,
    stopped (by decide +kernel) _ (.single ⟨cleanupEvent 20, rfl, rfl⟩)⟩

end Stillyard.ExecutorJournal
