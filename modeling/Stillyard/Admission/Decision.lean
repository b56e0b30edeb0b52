import Stillyard.Admission.Claims

/-!
# The reservation decision

`reservation_decision` is the scalar fit test of every admission that may hold a
reservation.  It looks at the claims once without debits, once against the
active debits, and once against active and reserved debits together.  The
results here reduce a grant to room in the ledger of active debits: that is the
only fact the capacity argument needs from the decision.
-/

namespace Stillyard

open Relational

variable {values : List Nat}

def checkedAdd (left right : Nat) : Option Nat :=
  if left + right < u64Bound then some (left + right) else none

/-- `checked_total`: the sum of all values, `none` on overflow. -/
def checkedTotal (values : List Nat) : Option Nat := values.foldlM checkedAdd 0

private theorem foldlM_checkedAdd (values : List Nat) (start total : Nat)
    (folded : values.foldlM checkedAdd start = some total) : total = start + values.sum := by
  induction values generalizing start with
  | nil =>
    simp only [List.foldlM_nil, Option.pure_def, Option.some.injEq] at folded
    simp [folded]
  | cons value rest ih =>
    simp only [List.foldlM_cons, Option.bind_eq_bind] at folded
    obtain ⟨middle, added, restFolded⟩ := Option.bind_eq_some_iff.mp folded
    have sum := ih middle restFolded
    simp only [checkedAdd] at added
    split at added
    · cases added
      rw [sum, List.sum_cons, Nat.add_assoc]
    · cases added

/-- A total that did not overflow is the sum. -/
theorem checkedTotal_eq_some (computed : checkedTotal values = some total) :
    total = values.sum := by
  simpa using foldlM_checkedAdd values 0 total computed

private theorem foldlM_checkedAdd_of_lt (values : List Nat) (start : Nat)
    (bounded : start + values.sum < u64Bound) :
    values.foldlM checkedAdd start = some (start + values.sum) := by
  induction values generalizing start with
  | nil => simp
  | cons value rest ih =>
    rw [List.sum_cons] at bounded ⊢
    have added : checkedAdd start value = some (start + value) := if_pos (by omega)
    rw [List.foldlM_cons, added, Option.bind_eq_bind, Option.bind_some, ih _ (by omega)]
    congr 1
    omega

/-- A sum below the bound is computed. -/
theorem checkedTotal_of_lt (bounded : values.sum < u64Bound) :
    checkedTotal values = some values.sum := by
  have computed := foldlM_checkedAdd_of_lt values 0 (by omega)
  rwa [Nat.zero_add] at computed

/-- Clamp to the program's `i64`, as its saturating operations do. -/
def i64Clamp (value : Int) : Int := max (-2 ^ 63) (min value (2 ^ 63 - 1))

def priorityAgingQuantumMillis : Nat := 60000

def maxEffectivePriority : Int := 1000000

structure ScheduleKey where
  effectivePriority : Int
  acceptedMs : Int
  rowid : Int
  deriving DecidableEq, Repr

/-- `effective_priority_at`: one point for every full quantum waited. -/
def effectivePriorityAt (priority acceptedMs now : Int) : Int :=
  let waited := (i64Clamp (now - acceptedMs)).toNat
  min (i64Clamp (priority + (waited / priorityAgingQuantumMillis : Nat))) maxEffectivePriority

/-- `schedule_order`: higher priority first, then older, then lower row. -/
def scheduleOrder (left right : ScheduleKey) : Ordering :=
  ((compare right.effectivePriority left.effectivePriority).then
    (compare left.acceptedMs right.acceptedMs)).then (compare left.rowid right.rowid)

def outranks (left right : ScheduleKey) : Bool := (scheduleOrder left right).isLT

/-! ## The decision -/

inductive ReservationDecision where
  | grant
  | hold
  | create
  | expire
  | drop
  deriving DecidableEq, Repr

structure ReservationInput (κ : Type*) where
  claims : Table κ Nat
  capacities : Table κ Nat
  active : List (Table κ Nat)
  reserved : List (Table κ Nat)
  ownDeadline : Option Int
  higherOverlaps : Bool
  notBefore : Option Int
  now : Int

section Decision

variable {κ : Type*} [DecidableEq κ]
variable {claims capacities : Table κ Nat} {debits : List (Table κ Nat)}

/-- The closure `fits` of `reservation_decision`. -/
def fits (claims capacities : Table κ Nat) (debits : List (Table κ Nat)) : Bool :=
  claims.rows.all fun entry =>
    entry.2 = 0 ||
      (checkedTotal (debits.map fun debit => amount debit entry.1)).any fun used =>
        entry.2 ≤ amount capacities entry.1 - used

/-- A property that every name has at zero holds of all entries exactly if it
holds of all names. -/
theorem forall_rows_amount (table : Table κ Nat) (property : κ → Nat → Prop)
    (zero : ∀ key, property key 0) :
    (∀ entry ∈ table.rows, property entry.1 entry.2) ↔
      ∀ key, property key (amount table key) := by
  constructor
  · intro every key
    rw [amount]
    cases stored : table.get? key with
    | none => exact zero key
    | some value => exact every (key, value) (Table.mem_rows.mpr stored)
  · intro every entry listed
    have named := every entry.1
    rwa [amount, Table.mem_rows.mp listed, Option.getD_some] at named

theorem fits_iff :
    fits claims capacities debits = true ↔ ∀ key, amount claims key ≠ 0 →
      ∃ used, checkedTotal (debits.map fun debit => amount debit key) = some used ∧
        amount claims key ≤ amount capacities key - used := by
  simp only [fits, List.all_eq_true, Bool.or_eq_true, decide_eq_true_eq, Option.any_eq_true,
    ne_eq, ← or_iff_not_imp_left]
  exact forall_rows_amount claims (fun key requested => requested = 0 ∨
    ∃ used, checkedTotal (debits.map fun debit => amount debit key) = some used ∧
      requested ≤ amount capacities key - used) fun _ => .inl rfl

/-- What fits beside debits fits alone. -/
theorem fits_nil (beside : fits claims capacities debits = true) :
    fits claims capacities [] = true := by
  rw [fits_iff] at beside ⊢
  intro key claimed
  obtain ⟨used, _, room⟩ := beside key claimed
  exact ⟨0, rfl, Nat.le_trans room (Nat.sub_le_sub_left (Nat.zero_le used) _)⟩

def reservationDecision (input : ReservationInput κ) : ReservationDecision :=
  let fits := fits input.claims input.capacities
  if !fits [] then .drop
  else match input.ownDeadline with
    | some deadline =>
      if deadline ≤ input.now then .expire
      else if !input.higherOverlaps && fits input.active then .grant
      else .hold
    | none =>
      if input.notBefore.any fun notBefore => input.now < notBefore then .hold
      else if fits (input.active ++ input.reserved) then .grant
      else
        let overflow := input.claims.rows.any fun entry =>
          0 < entry.2 &&
            (checkedTotal (input.active.map fun debit => amount debit entry.1)).isNone
        if !(input.claims.rows.any fun entry => 0 < entry.2) || overflow ||
            !fits input.reserved then .hold
        else .create

end Decision

/-- `local_reservation_decision`: the decision over flat names. -/
def localReservationDecision (claims : ResolvedClaims) (capacities : ResourceCapacities)
    (active reserved : List ResolvedClaims) (ownDeadline : Option Int) (higherOverlaps : Bool)
    (notBefore : Option Int) (now : Int) : ReservationDecision :=
  reservationDecision
    { claims := scalarEntries claims
      capacities := legacyCapacities capacities
      active := active.map scalarEntries
      reserved := reserved.map scalarEntries
      ownDeadline, higherOverlaps, notBefore, now }

end Stillyard
