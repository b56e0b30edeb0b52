import Stillyard.Store.Safety

/-!
# Operations that authorize a start

A start right comes from one operation.  The identities keep an Invocation from
being authorized twice, whatever allocation the second request names, and an
answer that shows a Grant comes after the operations that gave it its start
rights.
-/

namespace Stillyard

open Relational Fallible

variable {key : AllocationKey} {row : GrantRow} {intent : InvocationIntent}

/-- The start rights of an Invocation are one. -/
theorem Identified.unique (identified : Identified store) (leftIssued : IssuedIn store.grants left)
    (rightIssued : IssuedIn store.grants right)
    (same : left.intent.invocationId = right.intent.invocationId) :
    left.key = right.key ∧ left.intent = right.intent := by
  rcases leftIssued with ⟨leftRow, leftFound, _, leftListed⟩
  rcases rightIssued with ⟨rightRow, rightFound, _, rightListed⟩
  have leftRecorded := identified _ leftRow _ leftFound leftListed
  have rightRecorded := identified _ rightRow _ rightFound rightListed
  rw [same, rightRecorded, Option.some.injEq] at leftRecorded
  simp only [InvocationIntent.identity, TicketIdentity.mk.injEq] at leftRecorded
  exact ⟨leftRecorded.2.1.symm, leftRecorded.2.2.symm⟩

section Tickets

variable {config : CoordinatorConfig} {store next : MachineStore}

/-- Whether a command asks for a start right. -/
def Command.authorizes : Command → Bool
  | .authorizeInvocation .. => true
  | _ => false

theorem tickets_of_moves (other : request.command.authorizes = false)
    (moves : Relation.ReflTransGen (GrantMove request carried) old new) :
    new.tickets = old.tickets := by
  induction moves with
  | refl => rfl
  | tail _ last ih =>
    rw [← ih]
    cases last with
    | start owns armed asked valid =>
      rw [asked] at other
      cases other
    | expire | arm | doubt | release => rfl

/-- A start right is as old as its Grant's row, or its operation is this one. -/
theorem Applied.tickets (keyed : GrantsKeyed store.grants)
    (applied : Applied config request recovering authorityClosed now store next outcome)
    (found : next.grants.get? key = some row) (listed : intent ∈ row.snapshot.tickets) :
    (∃ old, store.grants.get? key = some old ∧ intent ∈ old.snapshot.tickets) ∨
      ∃ ticket, outcome = .ticket ticket ∧ ticket.key = key ∧ ticket.intent = intent := by
  have evolves := applied.evolves keyed
  have kept : request.command.authorizes = false →
      ∃ old, store.grants.get? key = some old ∧ intent ∈ old.snapshot.tickets := by
    intro other
    rcases evolves.origin found with ⟨old, foundOld, moves⟩
    rw [tickets_of_moves other moves.2] at listed
    exact ⟨old, foundOld, listed⟩
  cases applied with
  | wait => exact .inl ⟨row, found, listed⟩
  | @start asked nonce wanted granted progress identities ticket _ owns stored sameKey open_ armed
      named valid recorded grantId ticketKey sameNonce ticketIntent session =>
      rcases Table.get?_update_eq_some.mp found with ⟨same, old, foundOld, rfl⟩ | ⟨_, found⟩
      · rcases List.mem_append.mp listed with before | new
        · exact .inl ⟨granted, by rw [same.trans sameKey, stored], before⟩
        · exact .inr ⟨ticket, rfl, ticketKey.trans (same.trans sameKey).symm,
            by rw [ticketIntent, List.mem_singleton.mp new]⟩
      · exact .inl ⟨row, found, listed⟩
  | acknowledge asked | armAgain asked | arm asked | doubt asked | release asked | upsert asked
  | inspectPage asked | inspect asked | reconcileBegin asked | reconcilePage asked
  | reconcileCommit asked =>
    apply Or.inl
    apply kept
    rw [asked]
    rfl
  | withdraw asked | withdrawOffer asked =>
    apply Or.inl
    apply kept
    rcases asked with ⟨asked, _⟩ | ⟨asked, _⟩ <;> rw [asked] <;> rfl

/-- An authorized Invocation was not in the list of its Grant before. -/
theorem Applied.fresh
    (applied : Applied config request recovering authorityClosed now store next outcome)
    (answered : outcome = .ticket ticket) (found : store.grants.get? ticket.key = some row) :
    ∀ intent ∈ row.snapshot.tickets, intent.invocationId ≠ ticket.intent.invocationId := by
  cases applied with
  | start asked owns stored sameKey open_ armed named valid recorded grantId ticketKey sameNonce
      ticketIntent =>
      cases answered
      rw [ticketKey, stored] at found
      cases found
      simp only [validateNext, ok_iff, List.all_eq_true, test_iff] at valid
      rcases valid with ⟨_, _, _, _, _, different, _⟩
      intro intent listed
      rw [ticketIntent]
      exact (different intent listed).1.1
  | _ => cases answered

theorem mem_fillPage
    (filled : fillPage grantBytes limit rows grants bytes = .ok (page, truncated)) :
    ∀ grant ∈ page, grant ∈ grants ∨ grant ∈ rows := by
  induction rows generalizing grants bytes with
  | nil =>
    cases filled
    exact fun grant member => .inl member
  | cons first rest ih =>
    rw [fillPage] at filled
    split at filled
    · split at filled
      · cases filled
      · cases filled
        exact fun grant member => .inl member
    · intro grant member
      rcases ih filled grant member with before | later
      · rcases List.mem_append.mp before with earlier | this
        · exact .inl earlier
        · rw [List.mem_singleton.mp this]
          exact .inr List.mem_cons_self
      · exact .inr (List.mem_cons_of_mem _ later)

theorem mem_inventoryPage (keyed : Keyed store)
    (read : inventoryPage config store domain exact_ after limit outstandingOnly =
      .ok (grants, truncated)) :
    ∀ grant ∈ grants, ∃ row, store.grants.get? grant.candidate.key = some row ∧
      row.snapshot = grant ∧ grant.candidate.key.domainId = domain := by
  simp only [inventoryPage, bind_eq_ok] at read
  rcases read with ⟨_, _, filled⟩
  intro grant member
  rcases mem_fillPage filled grant member with none | taken
  · cases none
  · have listed := List.mem_of_mem_take taken
    simp only [inventoryRows, List.mem_map, List.mem_insertionSort, List.mem_filter,
      Bool.and_eq_true, Option.any_eq_true, decide_eq_true_eq] at listed
    rcases listed with ⟨⟨key, row⟩, ⟨present, ⟨⟨⟨candidate, offered, domain⟩, _⟩, _⟩, _⟩, rfl⟩
    have found := Table.mem_rows.mp present
    have sameKey := keyed.grants key row found
    dsimp only at offered
    refine ⟨row, ?_, rfl, ?_⟩
    · rw [sameKey]
      exact found
    · rw [sameKey, ← (keyed.candidates key candidate offered).2, domain]

/-- An answer shows stored Grants of its own domain. -/
theorem Applied.shows (keyed : Keyed store)
    (applied : Applied config request recovering authorityClosed now store next outcome) :
    ∀ grant ∈ outcome.shows, ∃ row, store.grants.get? grant.candidate.key = some row ∧
      grant.tickets = row.snapshot.tickets ∧
      grant.candidate.key.domainId = request.session.domainId := by
  intro grant member
  cases applied with
  | armAgain asked owns found sameKey | arm asked owns found sameKey
  | doubt asked owns found sameKey =>
    cases List.mem_singleton.mp member
    refine ⟨_, ?_, rfl, ?_⟩
    · exact sameKey ▸ found
    · exact sameKey ▸ owns_domainId owns
  | inspectPage asked read =>
    rcases mem_inventoryPage keyed read grant member with ⟨row, found, same, domain⟩
    exact ⟨row, found, by rw [same], domain⟩
  | acknowledge | wait | start | release | upsert | withdraw | withdrawOffer | inspect
  | reconcileBegin | reconcilePage | reconcileCommit => cases member

theorem Applied.ticket_domain
    (applied : Applied config request recovering authorityClosed now store next outcome)
    (answered : outcome = .ticket ticket) : ticket.key.domainId = request.session.domainId := by
  cases applied with
  | start asked owns stored sameKey open_ armed named valid recorded grantId ticketKey =>
    cases answered
    rw [ticketKey]
    exact owns_domainId owns
  | _ => cases answered

theorem Committed.tickets (keyed : Keyed store)
    (committed : Committed config request outcome store next)
    (found : next.grants.get? key = some row) (listed : intent ∈ row.snapshot.tickets) :
    (∃ old, store.grants.get? key = some old ∧ intent ∈ old.snapshot.tickets) ∨
      ∃ ticket, outcome = .ticket ticket ∧ ticket.key = key ∧ ticket.intent = intent := by
  rcases committed with ⟨_, applied, _, attempted, agrees⟩
  rw [agrees.grants] at found
  cases attempted with
  | refused base => exact .inl ⟨row, (base.grants key).symm.trans found, listed⟩
  | applied base effect =>
    rcases effect.tickets (keyed.agrees base.symm).grants found listed with
      ⟨old, foundOld, before⟩ | new
    · exact .inl ⟨old, (base.grants key).symm.trans foundOld, before⟩
    · exact .inr new

/-- What a committed ticket says about its Grant before. -/
theorem Committed.ticket {ticket : InvocationTicket}
    (committed : Committed config request (.ticket ticket) store next) :
    ticket.key.domainId = request.session.domainId ∧ IssuedIn next.grants ticket ∧
      ∀ row, store.grants.get? ticket.key = some row →
        ∀ intent ∈ row.snapshot.tickets, intent.invocationId ≠ ticket.intent.invocationId := by
  rcases committed with ⟨_, applied, _, attempted, agrees⟩
  cases attempted with
  | applied base effect =>
    refine ⟨effect.ticket_domain rfl, ?_, ?_⟩
    · rcases effect.issued rfl with ⟨granted, stored, listed⟩
      exact ⟨granted, (agrees.grants _).trans stored, listed⟩
    · intro row found
      exact effect.fresh rfl ((base.grants _).trans found)

theorem Committed.shows (keyed : Keyed store)
    (committed : Committed config request outcome store next) :
    ∀ grant ∈ outcome.shows, ∃ row, store.grants.get? grant.candidate.key = some row ∧
      grant.tickets = row.snapshot.tickets ∧
      grant.candidate.key.domainId = request.session.domainId := by
  rcases committed with ⟨_, applied, _, attempted, _⟩
  cases attempted with
  | refused base => exact fun _ member => nomatch member
  | applied base effect =>
    intro grant member
    rcases effect.shows (keyed.agrees base.symm) grant member with ⟨row, found, same, domain⟩
    exact ⟨row, (base.grants _).symm.trans found, same, domain⟩

end Tickets

/-! ## The operations of a run -/

/-- The operation gave this start right. -/
def Authorizes (entry : Request × Outcome) (key : AllocationKey) (intent : InvocationIntent) :
    Prop :=
  ∃ ticket, entry.2 = .ticket ticket ∧ ticket.key = key ∧ ticket.intent = intent

/-- The start rights in the tables and in the answers come from operations, and
no Invocation was authorized twice. -/
structure Authorized (store : MachineStore) (history : List (Request × Outcome)) : Prop where
  identified : Identified store
  issued : ∀ entry ∈ history, ∀ ticket, entry.2 = .ticket ticket → IssuedIn store.grants ticket
  authorized : ∀ key row intent, store.grants.get? key = some row →
    intent ∈ row.snapshot.tickets →
      ∃ entry ∈ operationsOf history key.domainId, Authorizes entry key intent
  single : ∀ left ∈ history, ∀ right ∈ history, ∀ leftTicket rightTicket,
    left.2 = .ticket leftTicket → right.2 = .ticket rightTicket →
    leftTicket.intent.invocationId = rightTicket.intent.invocationId →
      left.1.requestSequence = right.1.requestSequence
  shown : ∀ entry ∈ history, ∀ grant ∈ entry.2.shows, ∀ intent ∈ grant.tickets,
    ∃ earlier ∈ operationsOf history entry.1.session.domainId,
      Authorizes earlier grant.candidate.key intent ∧
        earlier.1.requestSequence < entry.1.requestSequence

section Runs

variable {config : CoordinatorConfig} {sealed : SealedRelease → Prop}
  {store next : MachineStore} {history commits : List (Request × Outcome)}

theorem Authorized.initial (config : CoordinatorConfig) :
    Authorized (MachineStore.initial config) [] where
  identified _ _ _ found := (nomatch found)
  issued _ member := nomatch member
  authorized _ _ _ found := (nomatch found)
  single _ member := nomatch member
  shown _ member := nomatch member

/-- No operation was committed, and no start right is new. -/
theorem Authorized.keep (authorized : Authorized store history) (identified : Identified next)
    (issued : ∀ ticket, IssuedIn store.grants ticket → IssuedIn next.grants ticket)
    (tickets : ∀ key row intent, next.grants.get? key = some row →
      intent ∈ row.snapshot.tickets →
        ∃ old, store.grants.get? key = some old ∧ intent ∈ old.snapshot.tickets) :
    Authorized next history where
  identified := identified
  issued entry member ticket answered := issued ticket
    (authorized.issued entry member ticket answered)
  authorized key row intent found listed := by
    rcases tickets key row intent found listed with ⟨old, foundOld, before⟩
    exact authorized.authorized key old intent foundOld before
  single := authorized.single
  shown := authorized.shown

theorem operationsOf_subset (member : entry ∈ operationsOf history domain)
    (commits : List (Request × Outcome)) : entry ∈ operationsOf (history ++ commits) domain := by
  rw [operationsOf, List.filter_append]
  exact List.mem_append_left _ member

theorem Authorized.commit (keyed : Keyed store) (recorded : Recorded store history)
    (authorized : Authorized store history)
    (committed : Committed config request outcome store next) (identifies : Identifies store next) :
    Authorized next (history ++ [(request, outcome)]) := by
  have identified := authorized.identified.identifies identifies
  have evolves := committed.evolves keyed.grants
  have newest : ∀ entry ∈ operationsOf history request.session.domainId,
      entry.1.requestSequence < request.requestSequence := by
    intro entry member
    have before := recorded.sequence_le member
    rcases committed with ⟨row, _, inSequence, _, _⟩
    have accepted : store.accepted request.session.domainId = row.acceptedSequence := by
      rw [MachineStore.accepted, inSequence.known]
      rfl
    have sequence := inSequence.sequence
    omega
  have issued : ∀ entry ∈ history ++ [(request, outcome)], ∀ ticket,
      entry.2 = .ticket ticket → IssuedIn next.grants ticket := by
    intro entry member ticket answered
    rcases List.mem_append.mp member with before | last
    · exact (authorized.issued entry before ticket answered).evolve evolves
    · cases List.mem_singleton.mp last
      cases answered
      exact committed.ticket.2.1
  -- A second ticket for an Invocation would name a start right that its Grant has.
  have first : ∀ entry ∈ history, ∀ earlier ticket, entry.2 = .ticket earlier →
      outcome = .ticket ticket → earlier.intent.invocationId ≠ ticket.intent.invocationId := by
    intro entry member earlier ticket answered same equal
    subst same
    have old := authorized.issued entry member earlier answered
    have unique := identified.unique (old.evolve evolves) committed.ticket.2.1 equal
    rcases old with ⟨row, found, _, listed⟩
    rw [unique.1] at found
    exact committed.ticket.2.2 row found _ listed equal
  refine ⟨identified, issued, ?_, ?_, ?_⟩
  · intro key row intent found listed
    rcases committed.tickets keyed found listed with ⟨old, foundOld, before⟩ |
      ⟨ticket, rfl, own, same⟩
    · rcases authorized.authorized key old intent foundOld before with ⟨entry, member, gave⟩
      exact ⟨entry, operationsOf_subset member _, gave⟩
    · refine ⟨(request, .ticket ticket), ?_, ticket, rfl, own, same⟩
      rw [operationsOf, List.mem_filter, decide_eq_true_eq]
      refine ⟨List.mem_append_right _ (List.mem_singleton.mpr rfl), ?_⟩
      rw [← own]
      exact committed.ticket.1.symm
  · intro left leftMember right rightMember leftTicket rightTicket leftAnswer rightAnswer same
    rcases List.mem_append.mp leftMember with leftBefore | leftLast <;>
      rcases List.mem_append.mp rightMember with rightBefore | rightLast
    · exact authorized.single left leftBefore right rightBefore leftTicket rightTicket leftAnswer
        rightAnswer same
    · cases List.mem_singleton.mp rightLast
      exact absurd same (first left leftBefore leftTicket rightTicket leftAnswer rightAnswer)
    · cases List.mem_singleton.mp leftLast
      exact absurd same.symm (first right rightBefore rightTicket leftTicket rightAnswer leftAnswer)
    · cases List.mem_singleton.mp leftLast
      cases List.mem_singleton.mp rightLast
      rfl
  · intro entry member grant shown intent listed
    rcases List.mem_append.mp member with before | last
    · rcases authorized.shown entry before grant shown intent listed with
        ⟨earlier, present, gave, older⟩
      exact ⟨earlier, operationsOf_subset present _, gave, older⟩
    · cases List.mem_singleton.mp last
      rcases committed.shows keyed grant shown with ⟨row, found, same, domain⟩
      rw [same] at listed
      rcases authorized.authorized _ row intent found listed with ⟨earlier, present, gave⟩
      rw [domain] at present
      exact ⟨earlier, operationsOf_subset present _, gave, newest earlier present⟩

/-- A pass gives nobody a start right. -/
theorem tickets_of_passes
    (passes : Relation.ReflTransGen (GrantsPass config topology domains) before after) :
    ∀ key row intent, after.get? key = some row → intent ∈ row.snapshot.tickets →
      ∃ old, before.get? key = some old ∧ intent ∈ old.snapshot.tickets := by
  induction passes with
  | refl => exact fun _ row _ found listed => ⟨row, found, listed⟩
  | tail _ last ih =>
    intro key row intent found listed
    rcases last.changes with ⟨grant, _, _, _, tickets, others, changed⟩
    by_cases same : key = grant.candidate.key
    · subst same
      rw [changed row found] at listed
      rcases tickets with none | ⟨old, foundOld, equal⟩
      · rw [none] at listed
        cases listed
      · rw [equal] at listed
        exact ih _ old intent foundOld listed
    · rw [others key same] at found
      exact ih key row intent found listed

/-- Every transaction keeps the identity rows of the start rights. -/
theorem StoreStep.identified (keyed : Keyed store) (identified : Identified store)
    (step : StoreStep config store commits next) : Identified next := by
  cases step with
  | commit committed identifies => exact identified.identifies identifies
  | challenge | session => exact identified
  | pass made =>
    rcases offerTransaction_eq_ok keyed.grants keyed.candidates made with ⟨frame, moves⟩
    intro key row intent found listed
    rcases tickets_of_passes moves key row intent found listed with ⟨old, foundOld, before⟩
    exact frame.identities.kept _ _ (identified key old intent foundOld before)
  | native same identities =>
    intro key row intent found listed
    rw [identities]
    exact identified key row intent ((same.grants key).trans found) listed

theorem StoreRun.identified (keyed : Keyed store) (identified : Identified store)
    (run : StoreRun config store commits next) : Identified next := by
  induction run with
  | refl => exact identified
  | step one _ ih => exact ih (one.keyed keyed) (one.identified keyed identified)

theorem CoordinatorRun.identified (run : CoordinatorRun config allowed sent coordinator history) :
    Identified coordinator.store := by
  induction run with
  | start => exact fun _ _ _ found => nomatch found
  | step earlier one ih =>
    exact (one.effect earlier.sound).1.identified earlier.recorded.1 ih

theorem StoreStep.authorized (sound : StoreSound sealed store) (recorded : Recorded store history)
    (authorized : Authorized store history) (step : StoreStep config store commits next) :
    Authorized next (history ++ commits) := by
  have issued := fun ticket (before : IssuedIn store.grants ticket) => step.issued sound before
  have identified := step.identified sound.keyed authorized.identified
  cases step with
  | commit committed identifies =>
    exact authorized.commit sound.keyed recorded committed identifies
  | challenge | session =>
    rw [List.append_nil]
    exact ⟨authorized.identified, authorized.issued, authorized.authorized, authorized.single,
      authorized.shown⟩
  | pass made =>
    rw [List.append_nil]
    exact authorized.keep identified issued
      (tickets_of_passes (offerTransaction_eq_ok sound.keyed.grants sound.keyed.candidates made).2)
  | native same identities =>
    rw [List.append_nil]
    exact authorized.keep identified issued
      fun key row intent found listed => ⟨row, (same.grants key).trans found, listed⟩

theorem StoreRun.authorized (sound : StoreSound sealed store) (recorded : Recorded store history)
    (authorized : Authorized store history)
    (made : ∀ entry ∈ commits, ∀ release, entry.1.command.Carries release → sealed release)
    (run : StoreRun config store commits next) : Authorized next (history ++ commits) := by
  induction run generalizing history with
  | refl =>
    rw [List.append_nil]
    exact authorized
  | @step first _ _ middle _ one _ ih =>
    have whole : StoreRun config _ first middle := .single one
    rw [← List.append_assoc]
    apply ih (one.sound sound fun entry member => made entry (List.mem_append_left _ member))
    · exact whole.recorded sound.keyed recorded
    · exact one.authorized sound recorded authorized
    · exact fun entry member => made entry (List.mem_append_right _ member)

end Runs

end Stillyard
