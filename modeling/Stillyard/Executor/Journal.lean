import Stillyard.Native.Schema

/-!
# The journal of the Linux executor

The executor records every Invocation before its boundary exists, and its
obligation ends with a seal that is only written once the boundary was emptied.
The journal is one file that each publication replaces as a whole.  The writer
keeps a copy in memory; a publication that failed poisons the writer, because it
cannot know which of the two contents the file has.

What the operating system answers is an input of every operation.  A crash inside
an operation is a failure at that point followed by `Event.crash`: neither writes
anything after it.  `serde_json` and SHA-256 are parameters, see `Codec`.
-/

namespace Stillyard.ExecutorJournal

open Relational Fallible

def maxBytes : Nat := 16 * 1024 * 1024

def maxRecords : Nat := 16384

def maxActive : Nat := 1024

/-- An error of the journal: one of its own texts, or one of the system. -/
inductive JournalError where
  | invalid (message : String)
  | os
  deriving DecidableEq, Repr

/-- `Identity` of a cgroup boundary. -/
structure Identity where
  bootId : String
  path : String
  device : Nat
  inode : Nat
  deriving DecidableEq, Repr

structure Anchor where
  journal : Uuid
  store : Uuid
  domain : ExecutionDomainId
  deriving DecidableEq, Repr

structure Seal where
  invocation : EntityId
  boundarySha256 : String
  sealId : Uuid
  possiblyReleased : Bool
  deriving DecidableEq, Repr

structure Record where
  containment : EntityId
  lease : Uuid
  daemonGeneration : Uuid
  creator : ProcessIdentity
  boundary : Option Identity
  root : Option ProcessIdentity
  executableSha256 : Option String
  releaseIntent : Option InvocationTicket
  sealed : Option Seal
  deriving DecidableEq

structure State where
  version : Nat
  anchor : Anchor
  records : Table EntityId Record

structure Envelope where
  state : State
  sha256 : String

/-- `Journal`: the copy of the writer. -/
structure Journal where
  state : State
  poisoned : Bool

/-! ## Serialized form -/

/-- Length of a JSON object with members of these names and lengths. -/
def objectWidth (members : List (String × Nat)) : Nat :=
  1 + max 1 (members.map fun member => member.1.length + 4 + member.2).sum

/-- Lengths of the values whose text is not fixed. -/
structure Widths where
  text : String → Nat
  process : ProcessIdentity → Nat
  identity : Identity → Nat
  ticket : InvocationTicket → Nat

namespace Widths

variable (widths : Widths)

/-- A quoted UUID. -/
def uuid : Nat := 38

/-- A quoted durable identity, `<store-uuid>~<entity-uuid>`. -/
def entity : Nat := 75

/-- A quoted SHA-256 digest in hexadecimal digits. -/
def sha256 : Nat := 66

/-- An optional value, `null` if it is absent. -/
def optional {α : Type} (width : α → Nat) : Option α → Nat
  | none => 4
  | some value => width value

def ofSeal (stamp : Seal) : Nat :=
  objectWidth [("invocation", entity), ("boundary_sha256", sha256), ("seal_id", uuid),
    ("possibly_released", if stamp.possiblyReleased then 4 else 5)]

def record (record : Record) : Nat :=
  objectWidth [("containment", entity), ("lease", uuid), ("daemon_generation", uuid),
    ("creator", widths.process record.creator),
    ("boundary", optional widths.identity record.boundary),
    ("root", optional widths.process record.root),
    ("executable_sha256", optional widths.text record.executableSha256),
    ("release_intent", optional widths.ticket record.releaseIntent),
    ("seal", optional ofSeal record.sealed)]

/-- A record with its key, a colon and a comma or brace. -/
def entry (held : Record) : Nat := entity + 2 + widths.record held

def state (state : State) : Nat :=
  objectWidth [("version", (Nat.repr state.version).length),
    ("anchor", objectWidth [("journal", uuid), ("store", uuid), ("domain", uuid)]),
    ("records", 1 + max 1 (state.records.sum fun _ held => widths.entry held))]

def envelope (envelope : Envelope) : Nat :=
  objectWidth [("state", widths.state envelope.state), ("sha256", sha256)]

end Widths

/-- `serde_json` and SHA-256, over the contents `β` of a file: what was written is
read back, and its length is that of the JSON text. -/
structure Codec (β : Type) extends Widths where
  encode : Envelope → β
  decode : β → Option Envelope
  length : β → Nat
  stateSha256 : State → String
  boundarySha256 : EntityId × Uuid × Uuid × ProcessIdentity × Identity × Option ProcessIdentity ×
    Option String → String
  decode_encode : ∀ envelope, decode (encode envelope) = some envelope
  length_encode : ∀ envelope, length (encode envelope) = toWidths.envelope envelope

/-- The journal file, the writer, and the boundaries on which `kill_and_seal`
succeeded.  `up` says whether a process holds the journal. -/
structure Host (β : Type) where
  disk : β
  emptied : List Identity
  journal : Journal
  up : Bool

/-- How the system finishes a publication: the new file replaced the old one and
the directory was synchronized, the old file is still there, or the file was
replaced and the synchronization failed. -/
inductive Publication where
  | completed
  | unwritten
  | unsynced
  deriving DecidableEq, Repr

/-- What the system answers to a `commit`: whether the files could be read and
checked, and how the publication ended. -/
structure Answer where
  system : Bool
  publication : Publication

variable {β : Type} (codec : Codec β) (anchor : Anchor)

/-- `read` of the state file. -/
def readEnvelope (disk : β) : Except JournalError Envelope := do
  require (codec.length disk ≤ maxBytes) (.invalid "executor history exceeds size bound")
  orError (codec.decode disk) .os

def Record.boundarySha256 (record : Record) : Except JournalError String := do
  let boundary ← orError record.boundary (.invalid "missing executor boundary")
  return codec.boundarySha256 (record.containment, record.lease, record.daemonGeneration,
    record.creator, boundary, record.root, record.executableSha256)

/-- The checks of `open` on one record. -/
def checkRecord (entry : EntityId × Record) : Except JournalError Unit := do
  require (entry.1.storeUuid = anchor.store && entry.2.containment.storeUuid = anchor.store &&
      entry.2.lease ≠ 0 && entry.2.daemonGeneration ≠ 0)
    (.invalid "executor history contains a foreign obligation")
  match entry.2.sealed with
  | none => return
  | some stamp =>
    require (stamp.invocation = entry.1 && stamp.sealId ≠ 0) (.invalid "invalid executor seal")
    let digest ← entry.2.boundarySha256 codec
    require (stamp.boundarySha256 = digest &&
      stamp.possiblyReleased = entry.2.releaseIntent.isSome) (.invalid "invalid executor seal")

/-- `Journal::open`; `anchor` is what the anchor file holds, and `system` covers
the directory, its file system and the lock. -/
def openJournal (disk : β) (expected : Anchor) (system : Bool) : Except JournalError Journal := do
  require system .os
  let envelope ← readEnvelope codec disk
  require (anchor = expected && envelope.state.anchor = anchor && envelope.state.version = 1 &&
      codec.stateSha256 envelope.state = envelope.sha256 &&
      envelope.state.records.rows.length ≤ maxRecords)
    (.invalid "executor history/anchor is unknown or mismatched")
  envelope.state.records.rows.forM (checkRecord codec anchor)
  return ⟨envelope.state, false⟩

def Host.check (host : Host β) (system : Bool) : Except JournalError Unit := do
  require (!host.journal.poisoned)
    (.invalid "executor publication failed; history requires recovery")
  require system .os
  let envelope ← readEnvelope codec host.disk
  require (anchor = host.journal.state.anchor &&
      envelope.sha256 = codec.stateSha256 envelope.state &&
      codec.stateSha256 host.journal.state = envelope.sha256)
    (.invalid "executor history changed outside its writer")

/-- `Journal::commit` with `publish`.  The writer is poisoned before the
publication, and stays so if it fails. -/
def Host.commit (host : Host β) (next : State) (answer : Answer) :
    Except JournalError Unit × Host β :=
  match host.check codec anchor answer.system with
  | .error failure => (.error failure, host)
  | .ok () =>
    let bytes := codec.encode ⟨next, codec.stateSha256 next⟩
    let poisoned := { host with journal := { host.journal with poisoned := true } }
    if maxBytes < codec.length bytes then
      (.error (.invalid "executor history exceeds size bound"), poisoned)
    else match answer.publication with
      | .unwritten => (.error .os, poisoned)
      | .unsynced => (.error .os, { poisoned with disk := bytes })
      | .completed => (.ok (), { host with disk := bytes, journal := ⟨next, false⟩ })

/-- Commit a prepared state, unless its preparation failed. -/
def Host.publish (host : Host β) (prepared : Except JournalError State) (answer : Answer) :
    Except JournalError Unit × Host β :=
  match prepared with
  | .error failure => (.error failure, host)
  | .ok next => host.commit codec anchor next answer

/-! ## Operations -/

/-- The arguments of `create`. -/
structure Creation where
  invocation : EntityId
  containment : EntityId
  lease : Uuid
  generation : Uuid
  creator : ProcessIdentity

/-- The record of a creation, with the boundary once it is known. -/
def Creation.record (creation : Creation) (boundary : Option Identity) : Record where
  containment := creation.containment
  lease := creation.lease
  daemonGeneration := creation.generation
  creator := creation.creator
  boundary := boundary
  root := none
  executableSha256 := none
  releaseIntent := none
  sealed := none

/-- `matches!(creator, ProcessIdentity::Linux { .. })`. -/
def isLinux : ProcessIdentity → Bool
  | .linux .. => true
  | _ => false

/-- The number of records without a seal. -/
def State.active (state : State) : Nat :=
  state.records.values.countP fun record => record.sealed.isNone

/-- The first state that `create` publishes; `space` is the free space of the
file system. -/
def State.create (state : State) (creation : Creation) (space : Nat) :
    Except JournalError State := do
  require (codec.state state + (state.active + 1) * 16384 ≤ maxBytes - 1024 * 1024)
    (.invalid "executor history cleanup headroom unavailable")
  require (creation.invocation.storeUuid = state.anchor.store &&
      creation.containment.storeUuid = state.anchor.store && creation.lease ≠ 0 &&
      creation.generation ≠ 0 && (state.records.get? creation.invocation).isNone &&
      state.records.rows.length < maxRecords && state.active < maxActive &&
      isLinux creation.creator)
    (.invalid "duplicate, foreign or over-budget executor creation intent")
  require (maxBytes * 3 + (state.active + 1) * 65536 ≤ space)
    (.invalid "executor cleanup publication headroom unavailable")
  return { state with records := state.records.set creation.invocation (creation.record none) }

/-- Change one record. -/
def State.change (state : State) (invocation : EntityId) (change : Record → Record) : State :=
  { state with records := state.records.update invocation change }

/-- What the system answers to `create`. -/
structure CreateAnswers where
  system : Bool
  space : Nat
  intent : Answer
  boundary : Option Identity
  binding : Answer

def Host.create (host : Host β) (creation : Creation) (answers : CreateAnswers) :
    Except JournalError Unit × Host β :=
  match host.check codec anchor answers.system >>= fun _ =>
      host.journal.state.create codec creation answers.space with
  | .error failure => (.error failure, host)
  | .ok next => match host.commit codec anchor next answers.intent with
    | (.error failure, later) => (.error failure, later)
    | (.ok (), later) => match answers.boundary with
      | none => (.error .os, later)
      | some identity => later.commit codec anchor
          (later.journal.state.change creation.invocation
            fun record => { record with boundary := some identity }) answers.binding

structure PreparedLaunch where
  root : ProcessIdentity
  requestedSha256 : String

/-- The state that `ready` publishes; `contained` is what the reopened boundary
says about the prepared root. -/
def State.ready (state : State) (invocation : EntityId) (launch : PreparedLaunch)
    (contained : Option Bool) : Except JournalError State := do
  let record ← orError (state.records.get? invocation) (.invalid "unknown executor intent")
  require (record.sealed.isNone && record.root.isNone && record.releaseIntent.isNone)
    (.invalid "executor root was already prepared or sealed")
  let _ ← orError record.boundary (.invalid "executor boundary not committed")
  let inside ← orError contained .os
  require inside (.invalid "prepared root left the recorded boundary")
  return state.change invocation fun record =>
    { record with root := some launch.root, executableSha256 := some launch.requestedSha256 }

def Host.ready (host : Host β) (invocation : EntityId) (launch : PreparedLaunch)
    (contained : Option Bool) (answer : Answer) : Except JournalError Unit × Host β :=
  host.publish codec anchor (host.journal.state.ready invocation launch contained) answer

/-- The state that `release_intent` publishes. -/
def State.releaseIntent (state : State) (ticket : InvocationTicket) :
    Except JournalError State := do
  require (codec.ticket ticket ≤ 8192) (.invalid "executor ticket exceeds reserved history bound")
  let record ← orError (state.records.get? ticket.intent.invocationId)
    (.invalid "unknown executor ticket")
  require (record.sealed.isNone && record.releaseIntent.isNone && record.root.isSome &&
      ticket.key.managerStoreUuid = state.anchor.store &&
      ticket.key.domainId = state.anchor.domain && ticket.key.leaseId = record.lease &&
      ticket.intent.containmentId = record.containment &&
      record.executableSha256 = some ticket.intent.executableSha256)
    (.invalid "ticket does not match an unreleased prepared executor intent")
  let digest ← record.boundarySha256 codec
  require (digest = ticket.intent.boundarySha256)
    (.invalid "ticket does not match an unreleased prepared executor intent")
  return state.change ticket.intent.invocationId fun record =>
    { record with releaseIntent := some ticket }

def Host.releaseIntent (host : Host β) (ticket : InvocationTicket) (answer : Answer) :
    Except JournalError Unit × Host β :=
  host.publish codec anchor (host.journal.state.releaseIntent codec ticket) answer

/-- What the system answers to `cleanup`.  A version 7 UUID is never nil. -/
structure CleanupAnswers where
  system : Bool
  kill : Bool
  sealId : Uuid
  sealId_ne_nil : sealId ≠ 0
  publication : Answer

/-- `Journal::cleanup`.  A record that already has a seal is left alone. -/
def Host.cleanup (host : Host β) (invocation : EntityId) (answers : CleanupAnswers) :
    Except JournalError Unit × Host β :=
  match host.check codec anchor answers.system >>= fun _ =>
      orError (host.journal.state.records.get? invocation)
        (.invalid "unknown executor cleanup") with
  | .error failure => (.error failure, host)
  | .ok record =>
    if record.sealed.isSome then (.ok (), host)
    else match orError record.boundary
        (.invalid "creation interrupted before boundary identity; cleanup unknown") with
      | .error failure => (.error failure, host)
      | .ok identity =>
        if !answers.kill then (.error .os, host)
        else
          let emptied := { host with emptied := identity :: host.emptied }
          match record.boundarySha256 codec with
          | .error failure => (.error failure, emptied)
          | .ok digest => emptied.commit codec anchor
              (host.journal.state.change invocation fun record =>
                { record with sealed := some ⟨invocation, digest, answers.sealId,
                    record.releaseIntent.isSome⟩ }) answers.publication

/-- What can happen to the executor. -/
inductive Event where
  | create (creation : Creation) (answers : CreateAnswers)
  | ready (invocation : EntityId) (launch : PreparedLaunch) (contained : Option Bool)
      (answer : Answer)
  | releaseIntent (ticket : InvocationTicket) (answer : Answer)
  | cleanup (invocation : EntityId) (answers : CleanupAnswers)
  | reopen (expected : Anchor) (system : Bool)
  | crash

/-- The calls of a process that holds the journal. -/
def Event.isCall : Event → Bool
  | .create .. | .ready .. | .releaseIntent .. | .cleanup .. => true
  | .reopen .. | .crash => false

/-- What an event does.  A journal that is opened again was dropped before. -/
def Host.perform (host : Host β) : Event → Except JournalError Unit × Host β
  | .create creation answers => host.create codec anchor creation answers
  | .ready invocation launch contained answer =>
    host.ready codec anchor invocation launch contained answer
  | .releaseIntent ticket answer => host.releaseIntent codec anchor ticket answer
  | .cleanup invocation answers => host.cleanup codec anchor invocation answers
  | .crash => (.ok (), { host with up := false })
  | .reopen expected system =>
    match openJournal codec anchor host.disk expected system with
    | .error failure => (.error failure, { host with up := false })
    | .ok journal => (.ok (), { host with journal, up := true })

/-- One event; only a running process calls the journal. -/
def Host.run (host : Host β) (event : Event) : Except JournalError Unit × Host β :=
  if event.isCall && !host.up then (.error .os, host) else host.perform codec anchor event

def Host.Step (host later : Host β) : Prop := ∃ event, (host.run codec anchor event).2 = later

/-- What `initialize` leaves: an anchor and a state without records. -/
def Host.Initial (host : Host β) : Prop :=
  host.disk = codec.encode ⟨⟨1, anchor, .empty⟩, codec.stateSha256 ⟨1, anchor, .empty⟩⟩ ∧
    host.emptied = [] ∧ host.journal = ⟨⟨1, anchor, .empty⟩, false⟩

end Stillyard.ExecutorJournal
