import Stillyard.Manager.Recovery

/-!
# Replies

`accept` applies the coordinator's answer to the oldest operation, together with
the durable answer itself.  A repeated answer changes nothing.
-/

namespace Stillyard.Manager

open Relational Fallible

/-- Whether a Grant answers a command: the arm that asked for it, or the report
whose doubt it carries. -/
def answersWithGrant (command : Command) (grant : GrantSnapshot) : Bool :=
  match command with
  | .arm key offerNonce => key = grant.candidate.key && offerNonce = grant.offerNonce
  | .reportUncertain key offerNonce reason =>
    key = grant.candidate.key && offerNonce = grant.offerNonce && grant.state = .uncertain &&
      grant.uncertaintyReason = some reason
  | _ => false

/-- The arm of `accept` for `Outcome::Grant`. -/
def acceptGrant (manager : Manager) (request : Request) (grant : GrantSnapshot) :
    Except JournalError Manager := do
  require (answersWithGrant request.command grant) (invalid "unsolicited Grant")
  require (request.session.owns grant.candidate.key)
    (invalid "Grant belongs to another manager")
  require
    ((manager.grants.get? grant.candidate.key).all fun previous =>
      previous.grant.grantId = grant.grantId && previous.grant.offerNonce = grant.offerNonce)
    (invalid "allocation acquired a different Grant")
  return { manager with grants := storeGrant manager.grants grant }

/-- The start right that a command asks for. -/
def askedTicket : Command → Option (AllocationKey × Uuid × InvocationIntent)
  | .authorizeInvocation key offerNonce intent => some (key, offerNonce, intent)
  | _ => none

/-- The local Grant with a start right, which is recorded once. -/
def withIntent (grant : GrantSnapshot) (intent : InvocationIntent) : GrantSnapshot :=
  if intent ∈ grant.tickets then grant
  else { grant with tickets := grant.tickets ++ [intent] }

/-- The arm of `accept` for `Outcome::Ticket`. -/
def acceptTicket (manager : Manager) (request : Request) (ticket : InvocationTicket) :
    Except JournalError Manager := do
  let asked ← orError (askedTicket request.command)
    (invalid "unsolicited invocation ticket")
  require (asked = (ticket.key, ticket.offerNonce, ticket.intent))
    (invalid "ticket differs from the durable Invocation intent")
  let row ← orError (manager.grants.get? ticket.key) noRow
  require
    (row.sealedRelease.isNone && row.grant.grantId = ticket.grantId && row.grant.state.mayRun)
    (invalid "ticket has no unsealed local Armed Grant")
  -- `INSERT OR IGNORE`, then a comparison with the row that is there.
  let invocation := ticket.intent.invocationId
  let received : LocalTicket := ⟨ticket.key, ticket, false, none⟩
  let tickets := (manager.tickets.insert? invocation received).getD manager.tickets
  require ((tickets.get? invocation).map LocalTicket.ticket = some ticket)
    (invalid "Invocation ticket was replaced")
  let noted : LocalGrant := { row with grant := withIntent row.grant ticket.intent }
  return { manager with tickets, grants := manager.grants.set ticket.key noted }

/-- The seal that a command carries. -/
def carriedRelease : Command → Option SealedRelease
  | .release release => some release
  | _ => none

/-- The arm of `accept` for `Outcome::Released`. -/
def acceptReleased (manager : Manager) (request : Request) (grantId : EntityId)
    (sealedSequence : Nat) : Except JournalError Manager := do
  let release ← orError (carriedRelease request.command)
    (invalid "unsolicited release")
  let row ← orError (manager.grants.get? release.key) noRow
  require
    (sealedSequence = release.sealedSequence && row.grant.grantId = grantId &&
      row.sealedRelease = some release)
    (invalid "release acknowledgement has no local seal")
  let grant := { row.grant with state := .released, sealedRelease := some release }
  let settled : LocalGrant := { row with grant }
  return { manager with grants := manager.grants.set release.key settled }

/-- The arm of `accept` for `Outcome::Acknowledged`. -/
def acceptAcknowledged (manager : Manager) (request : Request) (throughSequence : Nat) :
    Except JournalError Manager := do
  require
    (request.command = .acknowledge throughSequence && throughSequence ≤ manager.applied)
    (invalid "coordinator acknowledged unapplied responses")
  return { manager with
    outbox := manager.outbox.filter fun sequence _ => throughSequence < sequence
    retiredFloor := max manager.retiredFloor throughSequence }

/-- The lifecycle effect of an outcome. -/
def acceptOutcome (encoding : Encoding) (manager : Manager) (request : Request) :
    Outcome → Except JournalError Manager
  | .grant grant => manager.acceptGrant request grant
  | .ticket ticket => manager.acceptTicket request ticket
  | .released grantId sealedSequence => manager.acceptReleased request grantId sealedSequence
  | .acknowledged throughSequence => manager.acceptAcknowledged request throughSequence
  | .inventoryPage grants next configuration =>
    manager.acceptPage encoding request grants next configuration
  | .reconciled _ released => manager.committed request released
  | .accepted _ | .inspection .. | .rejected .. => .ok manager

/-- The durable answer: `UPDATE attached_outbox`, which changes no row that an
acknowledgement deleted, and the watermark. -/
def recordAnswer (manager : Manager) (sequence : Nat) (outcome : Outcome) : Manager :=
  { manager with
    outbox := manager.outbox.update sequence fun row => { row with outcome := some outcome }
    applied := sequence }

/-- `accept`; the result says whether this call applied the reply. -/
def accept (encoding : Encoding) (manager : Manager) (request : Request) (reply : Reply) :
    Except JournalError (Manager × Bool) := do
  require request.validate (.io "invalid request")
  require
    (reply.session = request.session && reply.operationId = request.operationId &&
      reply.requestSequence = request.requestSequence)
    (invalid "reply does not identify the outstanding request")
  require (manager.session = some request.session)
    (invalid "reply belongs to a fenced connection")
  let row ← orError (manager.outbox.get? request.requestSequence)
    (invalid "reply has no durable outbox intent")
  require (row.operationId = request.operationId && row.command = request.command)
    (invalid "reply operation conflicts with the outbox")
  require (encoding.replyBytes reply ≤ maxFrameBytes) (.io "frame exceeds limit")
  match row.outcome with
  | some prior =>
    require (prior = reply.outcome) (invalid "replayed response changed")
    return (manager, false)
  | none =>
    require (request.requestSequence = manager.applied + 1)
      (invalid "reply is out of order")
    let applied ← manager.acceptOutcome encoding request reply.outcome
    return (applied.recordAnswer request.requestSequence reply.outcome, true)

end Stillyard.Manager
