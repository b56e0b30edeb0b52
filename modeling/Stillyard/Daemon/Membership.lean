import Mathlib.Data.List.Perm.Subperm
import Stillyard.Submission.Policy

/-!
# Membership of a peer

Which containment a connected process belongs to.  A process in nested
containments is a member of all of them, so the resolver looks for the only
innermost match and walks from it to the outermost: the matches must be exactly
that chain.
-/

namespace Stillyard

structure ManagedCandidate where
  parent : ManagedParent
  parentJobId : Option DurableId
  current : Bool

namespace ManagedCandidate

def job (candidate : ManagedCandidate) : DurableId := candidate.parent.jobId

/-- A candidate with the answer of its call of `is_member`. -/
abbrev Asked := ManagedCandidate × Except String (Option Bool)

/-- The first loop: the candidates the peer is a member of. -/
def members : List Asked → StoreResult (List ManagedCandidate)
  | [] => .ok []
  | (_, .error error) :: _ => .error (.io error)
  | (_, .ok none) :: _ =>
    .error (.invalidState "a possibly live managed Containment has no daemon-held handle")
  | (_, .ok (some false)) :: rest => members rest
  | (candidate, .ok (some true)) :: rest => (members rest).map (candidate :: ·)

variable (matched : List ManagedCandidate)

/-- The matches that are no match's parent. -/
def leaves : List ManagedCandidate :=
  matched.filter fun candidate => !matched.any (·.parentJobId = some candidate.job)

/-- The parent of a match among the matches. -/
def parentOf (candidate : ManagedCandidate) : Option ManagedCandidate :=
  candidate.parentJobId.bind fun job => matched.find? (·.job = job)

/-- The second loop: the jobs from a match outwards.  `none` is a loop that still
runs when the fuel is out. -/
def walk : Nat → List DurableId → Option ManagedCandidate →
    Option (StoreResult (List DurableId))
  | _, lineage, none => some (.ok lineage)
  | 0, _, some _ => none
  | fuel + 1, lineage, some candidate =>
    if candidate.job ∈ lineage then
      some (.error (.invalidState "managed containment parent graph contains a cycle"))
    else walk fuel (candidate.job :: lineage) (parentOf matched candidate)

/-- The checks behind the second loop. -/
def conclude (immediate : ManagedCandidate) (lineage : List DurableId) :
    StoreResult (Option ManagedParent) := do
  Fallible.require (lineage.length = matched.length)
    (.rejected "named-pipe peer belongs to unrelated Stillyard containments")
  Fallible.require immediate.current
    (.rejected "the containing primary is no longer current and live")
  return some immediate.parent

/-- `resolve_managed_membership` behind its first loop. -/
def resolve (fuel : Nat) : Option (StoreResult (Option ManagedParent)) :=
  if matched = [] then some (.ok none)
  else match leaves matched with
  | [immediate] => (walk matched fuel [] (some immediate)).map (· >>= conclude matched immediate)
  | _ => some (.error (.rejected "named-pipe peer belongs to ambiguous Stillyard containments"))

def resolveManagedMembership (fuel : Nat) (candidates : List Asked) :
    Option (StoreResult (Option ManagedParent)) :=
  match members candidates with
  | .error error => some (.error error)
  | .ok matched => resolve matched fuel

/-- A chain of matches from the inside outwards, whose last one has no parent among
the matches. -/
inductive Chain : List ManagedCandidate → Prop where
  | last {outermost : ManagedCandidate}
      (alone : ∀ other ∈ matched, outermost.parentJobId ≠ some other.job) : Chain [outermost]
  | link {inner : ManagedCandidate} {rest : List ManagedCandidate}
      (parent : inner.parentJobId = some outer.job) (chain : Chain (outer :: rest)) :
      Chain (inner :: outer :: rest)

/-- The matches are one chain of different jobs from `immediate` on. -/
def Innermost (immediate : ManagedCandidate) : Prop :=
  ∃ rest, (immediate :: rest).Perm matched ∧ Chain matched (immediate :: rest) ∧
    ((immediate :: rest).map job).Nodup

/-- The candidates with a positive answer. -/
def positives (candidates : List Asked) : List ManagedCandidate :=
  candidates.filterMap fun asked =>
    match asked.2 with
    | .ok (some true) => some asked.1
    | _ => none

variable {matched} {fuel : Nat} {lineage all : List DurableId}
  {candidate parent immediate : ManagedCandidate} {rest : List ManagedCandidate}
  {candidates : List Asked}

theorem parentOf_eq_none (absent : parentOf matched candidate = none) :
    ∀ other ∈ matched, candidate.parentJobId ≠ some other.job := by
  intro other member linked
  simp only [parentOf, linked, Option.bind_some, List.find?_eq_none] at absent
  exact absent other member (decide_eq_true rfl)

theorem parentOf_eq_some (found : parentOf matched candidate = some parent) :
    parent ∈ matched ∧ candidate.parentJobId = some parent.job := by
  rcases Option.bind_eq_some_iff.mp found with ⟨job, linked, found⟩
  have same := List.find?_some found
  exact ⟨List.mem_of_find?_eq_some found, by rw [linked, of_decide_eq_true same]⟩

/-- A walk that ends went along a chain of different jobs. -/
theorem chain_of_walk (member : candidate ∈ matched) (fresh : lineage.Nodup)
    (walked : walk matched fuel lineage (some candidate) = some (.ok all)) :
    ∃ rest, Chain matched (candidate :: rest) ∧ candidate :: rest ⊆ matched ∧ all.Nodup ∧
      all = ((candidate :: rest).map job).reverse ++ lineage := by
  induction fuel generalizing lineage candidate with
  | zero => cases walked
  | succ fuel ih =>
    rw [walk] at walked
    split at walked
    · cases walked
    · next new =>
      have fresh := List.nodup_cons.mpr ⟨new, fresh⟩
      cases found : parentOf matched candidate with
      | none =>
        rw [found, walk] at walked
        cases walked
        exact ⟨[], .last (parentOf_eq_none found), by simpa using member, fresh, rfl⟩
      | some parent =>
        rw [found] at walked
        rcases parentOf_eq_some found with ⟨listed, linked⟩
        rcases ih listed fresh walked with ⟨rest, chain, inside, nodup, rfl⟩
        exact ⟨parent :: rest, .link linked chain, List.cons_subset.mpr ⟨member, inside⟩, nodup,
          by simp⟩

theorem Chain.parentOf (chain : Chain matched (candidate :: rest)) (inside : rest ⊆ matched)
    (unique : (matched.map job).Nodup) : parentOf matched candidate = rest.head? := by
  cases found : ManagedCandidate.parentOf matched candidate with
  | none =>
    cases chain with
    | last => rfl
    | link linked => exact absurd linked (parentOf_eq_none found _ (inside List.mem_cons_self))
  | some parent =>
    rcases parentOf_eq_some found with ⟨member, same⟩
    cases chain with
    | last alone => exact absurd same (alone parent member)
    | link linked =>
      exact congrArg some (List.inj_on_of_nodup_map unique member (inside List.mem_cons_self)
        (Option.some.inj (same.symm.trans linked)))

/-- A chain of different jobs is walked to its end. -/
theorem Chain.walk (chain : Chain matched (candidate :: rest)) (inside : rest ⊆ matched)
    (unique : (matched.map job).Nodup) (enough : rest.length < fuel)
    (fresh : (((candidate :: rest).map job).reverse ++ lineage).Nodup) :
    walk matched fuel lineage (some candidate) =
      some (.ok (((candidate :: rest).map job).reverse ++ lineage)) := by
  induction fuel generalizing lineage candidate rest with
  | zero => cases enough
  | succ fuel ih =>
    simp only [List.map_cons, List.reverse_cons, List.append_assoc, List.cons_append,
      List.nil_append] at fresh ih ⊢
    have new : candidate.job ∉ lineage :=
      (List.nodup_cons.mp (List.nodup_append.mp fresh).2.1).1
    rw [ManagedCandidate.walk, if_neg new, chain.parentOf inside unique]
    cases chain with
    | last =>
      rw [List.head?_nil, ManagedCandidate.walk]
      rfl
    | link linked chain =>
      simp only [List.map_cons, List.reverse_cons, List.append_assoc, List.cons_append,
        List.nil_append] at fresh ⊢
      exact ih chain (List.cons_subset.mp inside).2 (Nat.lt_of_succ_lt_succ enough) fresh

/-- A walk visits each job of the matches once, so it ends. -/
theorem walk_ends {current : Option ManagedCandidate} (member : ∀ c ∈ current, c ∈ matched)
    (fresh : lineage.Nodup) (inside : lineage ⊆ matched.map job)
    (enough : matched.length < fuel + lineage.length) :
    walk matched fuel lineage current ≠ none := by
  induction fuel generalizing lineage current with
  | zero =>
    have bounded := (List.subperm_of_subset fresh inside).length_le
    rw [List.length_map] at bounded
    omega
  | succ fuel ih =>
    cases current with
    | none => simp [walk]
    | some candidate =>
      rw [walk]
      split
      · simp
      · next new =>
        have listed := List.mem_map_of_mem (f := job) (member candidate rfl)
        refine ih (fun parent found => (parentOf_eq_some found).1)
          (List.nodup_cons.mpr ⟨new, fresh⟩) (List.cons_subset.mpr ⟨listed, inside⟩) ?_
        rw [List.length_cons]
        omega

/-- In a chain the jobs of its parents are those behind its start. -/
theorem Chain.parents (chain : Chain matched (candidate :: rest)) (inside : rest ⊆ matched) :
    ∀ other ∈ matched, (∃ inner ∈ candidate :: rest, inner.parentJobId = some other.job) ↔
      other.job ∈ rest.map job := by
  intro other member
  induction rest generalizing candidate with
  | nil =>
    cases chain with
    | last alone => simpa using alone other member
  | cons outer rest ih =>
    cases chain with
    | link linked chain =>
      have later := ih chain (List.cons_subset.mp inside).2
      rw [List.exists_mem_cons_iff, later, linked, List.map_cons, List.mem_cons, Option.some.injEq,
        eq_comm]

theorem Chain.leaves (chain : Chain matched (candidate :: rest))
    (perm : (candidate :: rest).Perm matched) (unique : ((candidate :: rest).map job).Nodup) :
    leaves matched = [candidate] := by
  have leaf (inner : ManagedCandidate) (member : inner ∈ candidate :: rest) :
      matched.any (·.parentJobId = some inner.job) = true ↔ inner.job ∈ rest.map job := by
    rw [← chain.parents (List.cons_subset.mp perm.subset).2 inner (perm.subset member)]
    simp only [List.any_eq_true, decide_eq_true_eq, perm.mem_iff]
  have kept := perm.filter fun inner => !matched.any (·.parentJobId = some (job inner))
  rw [List.filter_cons_of_pos, List.filter_eq_nil_iff.mpr] at kept
  · exact List.perm_singleton.mp kept.symm
  · intro outer member
    simpa using (leaf outer (List.mem_cons_of_mem _ member)).mpr (List.mem_map_of_mem member)
  · rw [Bool.not_eq_true', ← Bool.not_eq_true, leaf candidate List.mem_cons_self]
    exact (List.nodup_cons.mp unique).1

theorem innermost_iff (enough : matched.length < fuel) :
    Innermost matched immediate ↔ ∃ lineage, leaves matched = [immediate] ∧
      walk matched fuel [] (some immediate) = some (.ok lineage) ∧
      lineage.length = matched.length := by
  constructor
  · rintro ⟨rest, perm, chain, unique⟩
    have walked := chain.walk (List.cons_subset.mp perm.subset).2
      ((perm.map _).nodup_iff.mp unique) (Nat.lt_of_succ_lt (perm.length_eq.trans_lt enough))
      (by rwa [List.append_nil, List.nodup_reverse])
    exact ⟨_, chain.leaves perm unique, walked, by simpa using perm.length_eq⟩
  · rintro ⟨lineage, only, walked, complete⟩
    have listed : immediate ∈ leaves matched := only ▸ List.mem_cons_self
    rcases chain_of_walk (List.mem_filter.mp listed).1 List.nodup_nil walked with
      ⟨rest, chain, inside, nodup, rfl⟩
    rw [List.append_nil] at nodup complete
    rw [List.length_reverse, List.length_map] at complete
    have unique := List.nodup_reverse.mp nodup
    have part := List.subperm_of_subset unique.of_map inside
    exact ⟨rest, part.perm_of_length_le complete.ge, chain, unique⟩

/-! ## The resolver -/

theorem members_eq_ok : members candidates = .ok matched ↔
    (∀ asked ∈ candidates, ∃ answer, asked.2 = .ok (some answer)) ∧
      positives candidates = matched := by
  fun_induction members candidates generalizing matched
  case case5 candidate rest ih =>
    simp only [Fallible.map_eq_ok, ih, positives, List.forall_mem_cons, List.filterMap_cons]
    constructor
    · rintro ⟨_, ⟨answered, rfl⟩, rfl⟩
      exact ⟨⟨⟨true, rfl⟩, answered⟩, rfl⟩
    · rintro ⟨⟨_, answered⟩, rfl⟩
      exact ⟨_, ⟨answered, rfl⟩, rfl⟩
  all_goals simp_all [positives]

theorem positives_eq_nil (answered : ∀ asked ∈ candidates, ∃ answer, asked.2 = .ok (some answer)) :
    positives candidates = [] ↔ ∀ asked ∈ candidates, asked.2 = .ok (some false) := by
  rw [positives, List.filterMap_eq_nil_iff]
  refine forall₂_congr fun asked member => ?_
  rcases answered asked member with ⟨answer, same⟩
  cases answer <;> simp [same]

theorem resolve_eq_ok (enough : matched.length < fuel) {parent : Option ManagedParent} :
    resolve matched fuel = some (.ok parent) ↔ matched = [] ∧ parent = none ∨
      ∃ immediate, Innermost matched immediate ∧ immediate.current = true ∧
        some immediate.parent = parent := by
  simp only [innermost_iff enough]
  by_cases filled : matched = []
  · subst filled
    cases parent <;> simp [resolve, leaves]
  · rw [resolve, if_neg filled]
    split
    · next immediate only =>
      simp only [conclude, only, filled, Option.map_eq_some_iff, Fallible.bind_eq_ok,
        Fallible.require_eq_ok, Fallible.pure_eq_ok, decide_eq_true_eq, exists_const,
        List.cons.injEq, and_true, false_and, false_or]
      constructor
      · rintro ⟨_, walked, lineage, rfl, complete, concluded⟩
        exact ⟨immediate, ⟨lineage, rfl, walked, complete⟩, concluded⟩
      · rintro ⟨_, ⟨lineage, rfl, walked, complete⟩, concluded⟩
        exact ⟨_, walked, lineage, rfl, complete, concluded⟩
    · next many => simpa [filled] using fun immediate only => absurd only (many immediate)

theorem resolve_ends (enough : matched.length < fuel) : resolve matched fuel ≠ none := by
  unfold resolve
  split
  · simp
  · split
    · next immediate only =>
      have listed : immediate ∈ leaves matched := only ▸ List.mem_cons_self
      rw [Ne, Option.map_eq_none_iff]
      refine walk_ends ?_ List.nodup_nil (List.nil_subset _) enough
      rintro _ ⟨⟩
      exact (List.mem_filter.mp listed).1
    · simp

theorem resolveManagedMembership_eq_ok {parent : Option ManagedParent} :
    resolveManagedMembership fuel candidates = some (.ok parent) ↔
      (∀ asked ∈ candidates, ∃ answer, asked.2 = .ok (some answer)) ∧
        resolve (positives candidates) fuel = some (.ok parent) := by
  unfold resolveManagedMembership
  split
  · next refused =>
    refine ⟨nofun, fun ⟨answered, _⟩ => ?_⟩
    rw [members_eq_ok.mpr ⟨answered, rfl⟩] at refused
    cases refused
  · next collected =>
    rcases members_eq_ok.mp collected with ⟨answered, rfl⟩
    exact ⟨fun resolved => ⟨answered, resolved⟩, And.right⟩

/-- Whatever the candidates and the answers, the resolver ends.  It finds no containment
exactly if every answer is no.  It finds a parent exactly if every candidate has an answer,
the matches are one chain of different jobs, and the parent is the current start of that
chain.  Otherwise it returns an error. -/
theorem resolveManagedMembership_iff (extra : Nat) (candidates : List Asked) :
    let result := resolveManagedMembership (candidates.length + 1 + extra) candidates
    result ≠ none ∧
      (result = some (.ok none) ↔ ∀ asked ∈ candidates, asked.2 = .ok (some false)) ∧
      ∀ parent, result = some (.ok (some parent)) ↔
        (∀ asked ∈ candidates, ∃ answer, asked.2 = .ok (some answer)) ∧
          ∃ immediate, Innermost (positives candidates) immediate ∧
            immediate.current = true ∧ immediate.parent = parent := by
  have enough : (positives candidates).length < candidates.length + 1 + extra :=
    Nat.lt_add_right _ (Nat.lt_succ_of_le (List.length_filterMap_le _ candidates))
  simp only [resolveManagedMembership_eq_ok, resolve_eq_ok enough]
  refine ⟨?_, ⟨?_, fun all => ?_⟩, fun parent => by simp⟩
  · unfold resolveManagedMembership
    split
    · simp
    · next collected =>
      rw [← (members_eq_ok.mp collected).2]
      exact resolve_ends enough
  · rintro ⟨answered, ⟨empty, _⟩ | ⟨_, _, _, impossible⟩⟩
    · exact (positives_eq_nil answered).mp empty
    · cases impossible
  · have answered : ∀ asked ∈ candidates, ∃ answer, asked.2 = .ok (some answer) :=
      fun asked member => ⟨false, all asked member⟩
    exact ⟨answered, .inl ⟨(positives_eq_nil answered).mpr all, trivial⟩⟩

end ManagedCandidate

end Stillyard
