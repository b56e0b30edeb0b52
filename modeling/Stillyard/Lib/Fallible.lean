import Mathlib.Tactic.Common

/-!
# Computations that may fail

Transactions are computations in `Except`.  A successful run of a sequence of
steps is taken apart with the equations below, one per way of combining steps,
so that a proof never unfolds the monad.  The loop rule is the invariant rule
for `foldlM`.
-/

namespace Fallible

universe u v w

variable {ε : Type u} {α : Type v} {β : Type w}
variable {γ δ σ : Type v} {first : Except ε γ} {next compute : γ → Except ε δ} {condition : Bool}
variable {value : Option α} {round : σ → β → Except ε σ} {start final : σ} {items : List γ}
variable {check : γ → Except ε PUnit} {results : List δ}

/-- Continue only if the condition holds. -/
def require (condition : Bool) (error : ε) : Except ε Unit :=
  if condition then .ok () else .error error

/-- Continue with the value, if there is one. -/
def orError (value : Option α) (error : ε) : Except ε α :=
  match value with
  | some found => .ok found
  | none => .error error

theorem bind_eq_ok {result : δ} :
    (first >>= next) = .ok result ↔ ∃ middle, first = .ok middle ∧ next middle = .ok result := by
  cases first <;> simp [bind, Except.bind]

theorem bind_eq_error {reason : ε} :
    (first >>= next) = .error reason ↔
      first = .error reason ∨ ∃ middle, first = .ok middle ∧ next middle = .error reason := by
  cases first <;> simp [bind, Except.bind]

theorem map_eq_ok {first : Except ε α} {change : α → β} {result : β} :
    first.map change = .ok result ↔ ∃ middle, first = .ok middle ∧ change middle = result := by
  cases first <;> simp [Except.map]

theorem pure_eq_ok {value result : α} :
    (pure value : Except ε α) = .ok result ↔ value = result := by
  simp [pure, Except.pure]

theorem require_eq_ok {error : ε} {done : Unit} :
    require condition error = .ok done ↔ condition = true := by
  cases condition <;> simp [require]

theorem orError_eq_ok {error : ε} {result : α} :
    orError value error = .ok result ↔ value = some result := by
  cases value <;> simp [orError]

/-- A successful sequence of steps, taken apart step by step. -/
theorem ok_iff :
    (∀ {γ δ : Type u} {first : Except ε γ} {next : γ → Except ε δ} {result : δ},
      (first >>= next) = .ok result ↔ ∃ middle, first = .ok middle ∧ next middle = .ok result) ∧
    (∀ {α : Type u} {value result : α}, (pure value : Except ε α) = .ok result ↔ value = result) ∧
    (∀ {condition : Bool} {error : ε} {done : Unit},
      require condition error = .ok done ↔ condition = true) ∧
    ∀ {α : Type u} {value : Option α} {error : ε} {result : α},
      orError value error = .ok result ↔ value = some result :=
  ⟨bind_eq_ok, pure_eq_ok, require_eq_ok, orError_eq_ok⟩

/-- A successful test, taken apart into its conditions. -/
theorem test_iff :
    (∀ {left right : Bool}, (left && right) = true ↔ left = true ∧ right = true) ∧
    ∀ {condition : Prop} [Decidable condition], decide condition = true ↔ condition :=
  ⟨Bool.and_eq_true_iff, decide_eq_true_iff⟩

theorem require_eq_error {error reason : ε} :
    require condition error = .error reason ↔ condition = false ∧ error = reason := by
  cases condition <;> simp [require]

theorem orError_eq_error {error reason : ε} :
    orError value error = .error reason ↔ value = none ∧ error = reason := by
  cases value <;> simp [orError]

theorem mapError_eq_ok {ε' : Type*} {first : Except ε α} {change : ε → ε'} {result : α} :
    first.mapError change = .ok result ↔ first = .ok result := by
  cases first <;> simp [Except.mapError]

theorem toOption_eq_some {computation : Except ε α} {value : α} :
    computation.toOption = some value ↔ computation = .ok value := by
  cases computation <;> simp [Except.toOption]

theorem ite_error_eq_ok {condition : Prop} [Decidable condition] {error : ε}
    {rest : Except ε α} {result : α} :
    (if condition then .error error else rest) = .ok result ↔
      ¬condition ∧ rest = .ok result := by
  by_cases holds : condition <;> simp [holds]

/-- The invariant rule for loops: what each round keeps, a completed loop
keeps. -/
theorem foldlM_invariant (holds : σ → Prop) {items : List β}
    (kept : ∀ state item next, item ∈ items → holds state → round state item = .ok next →
      holds next) (initially : holds start) (completed : items.foldlM round start = .ok final) :
    holds final := by
  induction items generalizing start with
  | nil =>
    simp only [List.foldlM_nil, pure_eq_ok] at completed
    exact completed ▸ initially
  | cons item rest ih =>
    simp only [List.foldlM_cons, bind_eq_ok] at completed
    obtain ⟨middle, first, others⟩ := completed
    exact ih (fun state item next member => kept state item next (List.mem_cons_of_mem _ member))
      (kept start item middle List.mem_cons_self initially first) others

/-- What a round establishes for its item, and every round keeps, holds of all
items when the loop has completed. -/
theorem foldlM_establishes (holds : β → σ → Prop)
    (established : ∀ state item next, round state item = .ok next → holds item next)
    (kept : ∀ state item next other, holds other state → round state item = .ok next →
      holds other next) {items : List β} (completed : items.foldlM round start = .ok final) :
    ∀ item ∈ items, holds item final := by
  induction items generalizing start with
  | nil =>
    intro item member
    cases member
  | cons first rest ih =>
    simp only [List.foldlM_cons, bind_eq_ok] at completed
    obtain ⟨middle, rounds, others⟩ := completed
    intro item member
    cases List.mem_cons.mp member with
    | inl same =>
      subst same
      exact foldlM_invariant (holds item)
        (fun state other next _ held => kept state other next item held)
        (established start item middle rounds) others
    | inr later => exact ih others item later

/-- A completed loop had a successful round for every item. -/
theorem round_of_foldlM {items : List β} (completed : items.foldlM round start = .ok final) :
    ∀ item ∈ items, ∃ state next, round state item = .ok next := by
  apply foldlM_establishes (fun item _ => ∃ state next, round state item = .ok next) _ _ completed
  · intro state item next succeeded
    exact ⟨state, next, succeeded⟩
  · intro state item next other held _
    exact held

/-- A loop whose rounds all succeed and keep an invariant completes with it. -/
theorem foldlM_total (holds : σ → Prop) {items : List β}
    (succeeds : ∀ state item, item ∈ items → holds state →
      ∃ next, round state item = .ok next ∧ holds next) (initially : holds start) :
    ∃ final, items.foldlM round start = .ok final ∧ holds final := by
  induction items generalizing start with
  | nil => exact ⟨start, rfl, initially⟩
  | cons item rest ih =>
    obtain ⟨middle, first, held⟩ := succeeds start item List.mem_cons_self initially
    obtain ⟨final, completed, kept⟩ :=
      ih (fun state other member => succeeds state other (List.mem_cons_of_mem _ member)) held
    refine ⟨final, ?_, kept⟩
    simp only [List.foldlM_cons, bind_eq_ok]
    exact ⟨middle, first, completed⟩

/-- A completed loop of checks passed every check. -/
theorem of_forM {done : PUnit} (completed : items.forM check = .ok done) :
    ∀ item ∈ items, check item = .ok ⟨⟩ := by
  induction items with
  | nil =>
    intro item member
    cases member
  | cons first rest ih =>
    simp only [List.forM_eq_forM, List.forM_cons, bind_eq_ok] at completed
    rcases completed with ⟨_, checked, others⟩
    intro item member
    rcases List.mem_cons.mp member with rfl | later
    · exact checked
    · exact ih others item later

/-- A loop of checks that all pass completes. -/
theorem forM_of_forall (passes : ∀ item ∈ items, check item = .ok ⟨⟩) :
    items.forM check = .ok ⟨⟩ := by
  induction items with
  | nil => rfl
  | cons first rest ih =>
    simp only [List.forM_eq_forM, List.forM_cons, bind_eq_ok]
    exact ⟨⟨⟩, passes first List.mem_cons_self,
      ih fun item member => passes item (List.mem_cons_of_mem _ member)⟩

/-- The results of a pointwise computation, item by item. -/
theorem forall₂_of_mapM (completed : items.mapM compute = .ok results) :
    List.Forall₂ (fun item result => compute item = .ok result) items results := by
  induction items generalizing results with
  | nil =>
    simp only [List.mapM_nil, pure_eq_ok] at completed
    subst completed
    exact .nil
  | cons item rest ih =>
    simp only [List.mapM_cons, bind_eq_ok, pure_eq_ok] at completed
    obtain ⟨result, first, others, remaining, rfl⟩ := completed
    exact .cons first (ih remaining)

/-- What a pointwise computation says about each item, the whole list says. -/
theorem map_of_mapM {ν : Type w} {before : γ → ν} {after : δ → ν}
    (agree : ∀ item ∈ items, ∀ result, compute item = .ok result → after result = before item)
    (completed : items.mapM compute = .ok results) : results.map after = items.map before := by
  have pairs := forall₂_of_mapM completed
  clear completed
  induction pairs with
  | nil => rfl
  | cons first _ ih =>
    rw [List.map_cons, List.map_cons, agree _ List.mem_cons_self _ first,
      ih fun item member => agree item (List.mem_cons_of_mem _ member)]

/-- Every result of a pointwise computation comes from one of the items. -/
theorem mem_of_mapM (completed : items.mapM compute = .ok results) :
    ∀ result ∈ results, ∃ item ∈ items, compute item = .ok result := by
  have pairs := forall₂_of_mapM completed
  clear completed
  induction pairs with
  | nil => simp
  | cons first _ ih =>
    simp only [List.mem_cons, forall_eq_or_imp, exists_eq_or_imp]
    exact ⟨.inl first, fun result later => .inr (ih result later)⟩

/-- A pointwise computation that succeeds has a result for every item. -/
theorem result_of_mapM (completed : items.mapM compute = .ok results) :
    ∀ item ∈ items, ∃ result ∈ results, compute item = .ok result := by
  have pairs := forall₂_of_mapM completed
  clear completed
  induction pairs with
  | nil => simp
  | cons first _ ih =>
    simp only [List.mem_cons, forall_eq_or_imp, exists_eq_or_imp]
    exact ⟨.inl first, fun item later => .inr (ih item later)⟩

/-- A pointwise computation that succeeds everywhere succeeds. -/
theorem mapM_of_forall (succeeds : ∀ item ∈ items, ∃ result, compute item = .ok result) :
    ∃ results, items.mapM compute = .ok results := by
  induction items with
  | nil => exact ⟨[], rfl⟩
  | cons item rest ih =>
    rcases succeeds item List.mem_cons_self with ⟨first, computed⟩
    rcases ih fun other member => succeeds other (List.mem_cons_of_mem _ member) with
      ⟨others, remaining⟩
    refine ⟨first :: others, ?_⟩
    simp only [List.mapM_cons, bind_eq_ok, pure_eq_ok]
    exact ⟨first, computed, others, remaining, rfl⟩

/-! ## Failures -/

/-- A computation whose failures are all of one kind. -/
def FailsOnly (kind : ε → Prop) (computation : Except ε α) : Prop :=
  ∀ error, computation = .error error → kind error

section FailsOnly

variable {kind : ε → Prop}

theorem FailsOnly.ok (value : α) : FailsOnly kind (.ok value) := nofun

theorem FailsOnly.error {reason : ε} (allowed : kind reason) :
    FailsOnly kind (.error reason : Except ε α) := by
  rintro _ ⟨⟩
  exact allowed

theorem FailsOnly.bind (begins : FailsOnly kind first)
    (continues : ∀ middle, first = .ok middle → FailsOnly kind (next middle)) :
    FailsOnly kind (first >>= next) := by
  cases computed : first with
  | error reason => exact .error (begins reason computed)
  | ok middle => exact continues middle computed

theorem FailsOnly.require {error : ε} (allowed : kind error) :
    FailsOnly kind (require condition error) := by
  cases condition with
  | false => exact .error allowed
  | true => exact .ok ()

theorem FailsOnly.orError {error : ε} (allowed : kind error) :
    FailsOnly kind (orError value error) := by
  cases value with
  | none => exact .error allowed
  | some found => exact .ok found

theorem FailsOnly.foldlM {items : List β} (each : ∀ state item, FailsOnly kind (round state item)) :
    FailsOnly kind (items.foldlM round start) := by
  induction items generalizing start with
  | nil => exact .ok start
  | cons item rest ih =>
    rw [List.foldlM_cons]
    exact .bind (each start item) fun _ _ => ih

theorem FailsOnly.mapM (each : ∀ item ∈ items, FailsOnly kind (compute item)) :
    FailsOnly kind (items.mapM compute) := by
  induction items with
  | nil =>
    rw [List.mapM_nil]
    exact .ok []
  | cons item rest ih =>
    rw [List.mapM_cons]
    exact .bind (each item List.mem_cons_self) fun _ _ =>
      .bind (ih fun other member => each other (List.mem_cons_of_mem _ member)) fun _ _ => .ok _

theorem FailsOnly.forM {check : β → Except ε PUnit} {items : List β}
    (each : ∀ item ∈ items, FailsOnly kind (check item)) : FailsOnly kind (items.forM check) := by
  induction items with
  | nil => exact .ok PUnit.unit
  | cons item rest ih =>
    simp only [List.forM_eq_forM, List.forM_cons]
    exact .bind (each item List.mem_cons_self) fun _ _ =>
      ih fun other member => each other (List.mem_cons_of_mem _ member)

theorem FailsOnly.map {change : α → β} {first : Except ε α} (fails : FailsOnly kind first) :
    FailsOnly kind (first.map change) := by
  cases computed : first with
  | error reason => exact .error (fails reason computed)
  | ok value => exact .ok (change value)

theorem FailsOnly.mapError {ε' : Type*} {change : ε' → ε} {first : Except ε' α}
    (allowed : ∀ reason, kind (change reason)) : FailsOnly kind (first.mapError change) := by
  cases first with
  | error reason => exact .error (allowed reason)
  | ok value => exact .ok value

end FailsOnly

end Fallible
