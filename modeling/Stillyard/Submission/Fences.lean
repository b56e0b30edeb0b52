import Stillyard.Native.Schema

/-!
# Path fences and resolved policies

Fences are paths.  Two paths may name one object, so the store resolves a fence
to the identity of its deepest existing ancestor and the components that remain
below it, and a policy allows a path if some ancestor of the path is a root of
the policy.

The file system is a view: what the calls of the operating system answer while a
submission is evaluated.  Paths are those of the Linux build: absolute and without
parent components.  They are handed to the system as they are written, and a
separator after the last name makes it follow a link there.
-/

namespace Stillyard

open Relational Fallible

/-- `io::Error`, of which only the kind `NotFound` is told apart. -/
inductive IoError where
  | notFound (detail : String)
  | other (detail : String)
  deriving DecidableEq, Repr

/-- `io::Error::to_string`. -/
def IoError.text : IoError → String
  | .notFound detail | .other detail => detail

/-- A path as the system gets it: its names below `/`, and whether a separator or
`.` stands after the last one, so that the last one is followed in any case. -/
structure SystemPath where
  names : List String
  followed : Bool
  deriving DecidableEq, Repr

/-- The path of the first `depth` names.  `Path::parent` drops what stands after a
name, so only the whole path keeps its end. -/
def SystemPath.upTo (path : SystemPath) (depth : Nat) : SystemPath :=
  ⟨path.names.take depth, path.followed && decide (path.names.length ≤ depth)⟩

/-- What the file system answers about a path. -/
structure FileView where
  /-- `symlink_metadata`: is the object itself a symbolic link? -/
  symlinkMetadata : SystemPath → Except IoError Bool
  /-- `policy_identity_key`, which opens the last name of a leaf with `O_NOFOLLOW`. -/
  policyIdentityKey : SystemPath → Bool → Except IoError String
  /-- `canonicalize`. -/
  canonicalize : List String → Except IoError (List String)

/-- The components of a path between its separators; `.` is skipped. -/
def pathComponents (path : String) : List String :=
  ((path.toList.splitOn '/').map String.ofList).filter fun name => name ≠ "" && name ≠ "."

/-- Does a separator or `.` stand after the last component? -/
def endsInSeparator (path : String) : Bool :=
  (path.toList.splitOn '/').getLast?.any fun last => last = [] || last = ['.']

/-- `validate_linux_fence_path`, with the path that is handed on. -/
def validateLinuxFencePath (path : String) : Except IoError SystemPath := do
  require (path.toList.head? = some '/' && !(pathComponents path).contains "..")
    (.other "Linux fences require absolute UTF-8 paths without parent traversal")
  return ⟨pathComponents path, endsInSeparator path⟩

/-- A path as a text. -/
def renderPath (names : List String) : String := "/" ++ "/".intercalate names

namespace FileView

variable (view : FileView)

/-- `has_intermediate_reparse`: is one of the components between the ancestor
and the last one a link? -/
def hasIntermediateReparse (ancestor : List String) : List String → Except IoError Bool
  | [] | [_] => .ok false
  | name :: rest => match view.symlinkMetadata ⟨ancestor ++ [name], false⟩ with
    | .ok true => .ok true
    | .ok false => hasIntermediateReparse (ancestor ++ [name]) rest
    | .error (.notFound _) => .ok false
    | .error error => .error error

/-- One round of `existing_ancestor`: stop at an object that exists. -/
def ancestorAt (path : SystemPath) (depth : Nat)
    (parent : Except IoError (SystemPath × List String)) :
    Except IoError (SystemPath × List String) :=
  match view.symlinkMetadata (path.upTo depth) with
  | .ok _ => .ok (path.upTo depth, path.names.drop depth)
  | .error (.notFound _) => parent
  | .error error => .error error

/-- The loop of `existing_ancestor`, from the first `depth` components of the
path on upwards. -/
def existingAncestor (path : SystemPath) : (depth : Nat) →
    Except IoError (SystemPath × List String)
  | 0 => view.ancestorAt path 0 (.error (.notFound "path fence has no existing ancestor"))
  | parent + 1 => view.ancestorAt path (parent + 1) (existingAncestor path parent)

/-- The canonical form of a resolved path.  A leaf is taken by its name, whatever
stands after it. -/
def canonicalPath (ancestor remainder : List String) : Except IoError (List String) :=
  if remainder.isEmpty then match ancestor.getLast? with
    | some name => (view.canonicalize ancestor.dropLast).map (· ++ [name])
    | none => view.canonicalize ancestor
  else (view.canonicalize ancestor).map (· ++ remainder)

end FileView

/-! ## Fences of a policy -/

structure ResolvedPolicyFence where
  identityKey : String
  remainingComponents : List String
  displayPath : String
  deriving DecidableEq, Repr

namespace FileView

variable (view : FileView)

def resolvePolicyFence (path : String) : Except IoError ResolvedPolicyFence := do
  let path ← validateLinuxFencePath path
  let (ancestor, remainder) ← view.existingAncestor path path.names.length
  let identityKey ← view.policyIdentityKey ancestor remainder.isEmpty
  let displayed ← view.canonicalPath ancestor.names remainder
  return ⟨identityKey, remainder, renderPath displayed⟩

/-- Is the path, split here, below one of the fences? -/
def withinFence (fences : List ResolvedPolicyFence) (candidate : SystemPath)
    (remainder : List String) : Except IoError Bool := do
  let identity ← view.policyIdentityKey candidate remainder.isEmpty
  let reparsed ← view.hasIntermediateReparse candidate.names remainder
  return !reparsed && fences.any fun scope =>
    scope.identityKey = identity && scope.remainingComponents.isPrefixOf remainder

/-- One round of `policy_fences_allow`: stop at an object below a fence. -/
def allowAt (fences : List ResolvedPolicyFence) (path : SystemPath) (depth : Nat)
    (parent : Except IoError Bool) : Except IoError Bool := do
  let within ← match view.symlinkMetadata (path.upTo depth) with
    | .ok _ => view.withinFence fences (path.upTo depth) (path.names.drop depth)
    | .error (.notFound _) => .ok false
    | .error error => .error error
  if within then return true else parent

/-- The loop of `policy_fences_allow`, from the first `depth` components of the
path on upwards. -/
def fencesAllow (fences : List ResolvedPolicyFence) (path : SystemPath) : (depth : Nat) →
    Except IoError Bool
  | 0 => view.allowAt fences path 0 (.ok false)
  | parent + 1 => view.allowAt fences path (parent + 1) (fencesAllow fences path parent)

def policyFencesAllow (fences : List ResolvedPolicyFence) (path : String) :
    Except IoError Bool := do
  let path ← validateLinuxFencePath path
  view.fencesAllow fences path path.names.length

/-- `resolve_fence`: the identity of a path and its canonical text. -/
def resolveFence (path : String) : Except IoError (List String) := do
  let path ← validateLinuxFencePath path
  let (ancestor, remainder) ← view.existingAncestor path path.names.length
  let identity ← view.policyIdentityKey ancestor remainder.isEmpty
  let canonical ← view.canonicalPath ancestor.names remainder
  return ["identity:" ++ identity ++ ":" ++ "/".intercalate remainder,
    "path:" ++ renderPath canonical]

/-- `resolve_fences`, a sorted set. -/
def resolveFences (paths : List String) : Except IoError (List String) :=
  (paths.mapM view.resolveFence).map fun keys => keys.flatten.dedup.insertionSort (· ≤ ·)

end FileView

/-! ## What lies inside a fence -/

namespace FileView

/-- Nothing is found below an object that is missing. -/
def Rooted (view : FileView) : Prop :=
  ∀ names more detail found, view.symlinkMetadata ⟨names, false⟩ = .error (.notFound detail) →
    view.symlinkMetadata ⟨names ++ more, false⟩ ≠ .ok found

/-- The path does not end in a link that is followed. -/
def Unfollowed (view : FileView) (fence : String) : Prop :=
  endsInSeparator fence = true →
    view.symlinkMetadata ⟨pathComponents fence, false⟩ ≠ .ok true

/-- The object at `depth` on a path lies inside a fence: at `base` the path meets
the object of the fence, what remains of the fence follows there, and the way
down to `depth` follows no link. -/
structure Inside (view : FileView) (scope : ResolvedPolicyFence) (path : SystemPath)
    (base depth : Nat) : Prop where
  above : base ≤ depth
  meets : view.policyIdentityKey (path.upTo base) (path.names.drop base).isEmpty =
    .ok scope.identityKey
  remains : scope.remainingComponents <+: path.names.drop base
  straight : ∀ middle, base < middle → middle ≤ depth →
    middle < path.names.length ∨ path.followed = true →
    view.symlinkMetadata ⟨path.names.take middle, false⟩ ≠ .ok true

/-- The object that a fence resolves to lies inside one of the policy's fences. -/
def Confined (view : FileView) (scopes : List ResolvedPolicyFence) (fence : String) : Prop :=
  ∃ path depth, validateLinuxFencePath fence = .ok path ∧
    view.existingAncestor path path.names.length = .ok (path.upTo depth, path.names.drop depth) ∧
    ∃ scope ∈ scopes, ∃ base, view.Inside scope path base depth

variable {view : FileView} {path : SystemPath} {fences : List ResolvedPolicyFence}

/-- The components that were looked at are no links; below a missing one there is
none. -/
theorem hasIntermediateReparse_eq_false (rooted : view.Rooted)
    (clean : view.hasIntermediateReparse ancestor remainder = .ok false) :
    ∀ count, 0 < count → count < remainder.length →
      view.symlinkMetadata ⟨ancestor ++ remainder.take count, false⟩ ≠ .ok true := by
  fun_induction hasIntermediateReparse view ancestor remainder with
  | case1 | case2 =>
    intro count positive short
    simp only [List.length_nil, List.length_singleton] at short
    omega
  | case3 | case6 => cases clean
  | case4 ancestor name rest more plain ih =>
    intro count positive short
    obtain ⟨count, rfl⟩ := Nat.exists_eq_succ_of_ne_zero positive.ne'
    cases count with
    | zero => simp [plain]
    | succ count =>
      have below := ih clean (count + 1) (by omega) (by simpa using short)
      simpa using below
  | case5 ancestor name rest more detail missing =>
    intro count positive short
    obtain ⟨count, rfl⟩ := Nat.exists_eq_succ_of_ne_zero positive.ne'
    have below := rooted _ (rest.take count) _ true missing
    simpa using below

/-- A round that ends with success met a fence, or left the decision to the
parent.  `existing_ancestor` goes on to the parent only if the round did. -/
theorem allowAt_eq_ok (allowed : view.allowAt fences path depth parent = .ok true) :
    (view.withinFence fences (path.upTo depth) (path.names.drop depth) = .ok true ∧
      ∀ above, view.ancestorAt path depth above =
        .ok (path.upTo depth, path.names.drop depth)) ∨
    parent = .ok true ∧ ((∀ above, view.ancestorAt path depth above = above) ∨
      ∀ above, view.ancestorAt path depth above =
        .ok (path.upTo depth, path.names.drop depth)) := by
  cases found : view.symlinkMetadata (path.upTo depth) with
  | ok link =>
    simp only [allowAt, found, bind_eq_ok] at allowed
    obtain ⟨within, looked, decided⟩ := allowed
    have stops : ∀ above, view.ancestorAt path depth above =
        .ok (path.upTo depth, path.names.drop depth) := fun above => by simp [ancestorAt, found]
    cases within with
    | true => exact .inl ⟨looked, stops⟩
    | false => exact .inr ⟨by simpa using decided, .inr stops⟩
  | error error =>
    cases error with
    | notFound detail =>
      simp only [allowAt, found, bind_eq_ok] at allowed
      obtain ⟨_, ⟨⟩, parent⟩ := allowed
      exact .inr ⟨by simpa using parent, .inl fun above => by simp [ancestorAt, found]⟩
    | other detail =>
      simp only [allowAt, found, bind_eq_ok] at allowed
      obtain ⟨_, ⟨⟩, _⟩ := allowed

/-- An allowed path meets a fence at or above the object that it resolves to. -/
theorem fencesAllow_eq_ok (allowed : view.fencesAllow fences path depth = .ok true) :
    ∃ base object, base ≤ object ∧ object ≤ depth ∧
      view.existingAncestor path depth = .ok (path.upTo object, path.names.drop object) ∧
      view.withinFence fences (path.upTo base) (path.names.drop base) = .ok true := by
  induction depth with
  | zero =>
    obtain ⟨within, stops⟩ | ⟨impossible, _⟩ := allowAt_eq_ok allowed
    · exact ⟨0, 0, le_rfl, le_rfl, stops _, within⟩
    · cases impossible
  | succ depth ih =>
    obtain ⟨within, stops⟩ | ⟨parent, continues⟩ := allowAt_eq_ok allowed
    · exact ⟨depth + 1, depth + 1, le_rfl, le_rfl, stops _, within⟩
    · obtain ⟨base, object, above, below, resolved, within⟩ := ih parent
      cases continues with
      | inl passes =>
        exact ⟨base, object, above, by omega, (passes _).trans resolved, within⟩
      | inr stops => exact ⟨base, depth + 1, by omega, le_rfl, stops _, within⟩

theorem withinFence_eq_ok (within : view.withinFence fences candidate remainder = .ok true) :
    view.hasIntermediateReparse candidate.names remainder = .ok false ∧
      ∃ scope ∈ fences, view.policyIdentityKey candidate remainder.isEmpty =
        .ok scope.identityKey ∧ scope.remainingComponents <+: remainder := by
  simp only [withinFence, ok_iff, Bool.and_eq_true, Bool.not_eq_true', List.any_eq_true,
    decide_eq_true_eq, List.isPrefixOf_iff_prefix] at within
  obtain ⟨identity, opened, reparsed, checked, clean, scope, member, same, begins⟩ := within
  exact ⟨clean ▸ checked, scope, member, same ▸ opened, begins⟩

/-- A fence that a policy allows is one on an object inside the policy's fences,
unless its path ends in a link that is followed. -/
theorem policyFencesAllow_confined (rooted : view.Rooted) (unfollowed : view.Unfollowed fence)
    (allowed : view.policyFencesAllow fences fence = .ok true) : view.Confined fences fence := by
  simp only [policyFencesAllow, bind_eq_ok] at allowed
  obtain ⟨path, valid, allowed⟩ := allowed
  obtain ⟨base, object, above, short, resolved, within⟩ := fencesAllow_eq_ok allowed
  obtain ⟨clean, scope, member, meets, remains⟩ := withinFence_eq_ok within
  refine ⟨path, object, valid, resolved, scope, member, base, above, meets, remains, ?_⟩
  intro middle lower upper follows
  by_cases last : middle < path.names.length
  · -- Between the fence and the last name the walk itself has looked.
    have looked := hasIntermediateReparse_eq_false rooted clean (middle - base) (by omega)
      (by simp; omega)
    have joined : path.names.take base ++ (path.names.drop base).take (middle - base) =
        path.names.take middle := by
      rw [← List.take_add, Nat.add_sub_cancel' lower.le]
    simpa only [SystemPath.upTo, joined] using looked
  · -- The last name is followed only because of what stands after it.
    have whole : path.names.take middle = path.names := List.take_of_length_le (by omega)
    simp only [validateLinuxFencePath, ok_iff] at valid
    obtain ⟨_, _, rfl⟩ := valid
    rw [whole]
    exact unfollowed (follows.resolve_left last)

end FileView

/-- The error of an invalid VRAM name. -/
def invalidGpuUuid : IoError := .other "invalid specification: invalid GPU UUID"

/-- Custom scalars under their canonical names.  Two names with one canonical
form are an error. -/
def canonicalCustom (duplicate : String) (custom : Table String Nat) :
    Except IoError (Table String Nat) :=
  custom.rows.foldlM (fun canonical entry => do
    let name ← orError (canonicalCustomResourceName entry.1) invalidGpuUuid
    orError (canonical.insert? name entry.2) (.other duplicate)) .empty

/-- The amount a table of custom scalars gives under a canonical name. -/
def CustomAmount (custom : Table String Nat) (name : String) (amount : Nat) : Prop :=
  ∃ stated, (stated, amount) ∈ custom.rows ∧ canonicalCustomResourceName stated = some name

/-- Canonical scalars are the stated ones, under their canonical names. -/
theorem get?_canonicalCustom (resolved : canonicalCustom duplicate custom = .ok canonical)
    {amount : Nat} : canonical.get? name = some amount ↔ CustomAmount custom name amount := by
  suffices general : ∀ (rows : List (String × Nat)) (start : Table String Nat),
      rows.foldlM (fun canonical entry => do
        let name ← orError (canonicalCustomResourceName entry.1) invalidGpuUuid
        orError (canonical.insert? name entry.2) (.other duplicate)) start =
          .ok canonical →
      (canonical.get? name = some amount ↔ start.get? name = some amount ∨
        ∃ stated, (stated, amount) ∈ rows ∧ canonicalCustomResourceName stated = some name) by
    simpa [CustomAmount] using general custom.rows .empty resolved
  intro rows
  induction rows with
  | nil =>
    intro start completed
    simp only [List.foldlM_nil, pure_eq_ok] at completed
    simp [completed]
  | cons entry rest ih =>
    intro start completed
    simp only [List.foldlM_cons, ok_iff] at completed
    obtain ⟨middle, ⟨first, named, inserted⟩, others⟩ := completed
    obtain ⟨absent, rfl⟩ := Table.insert?_eq_some.mp inserted
    rw [ih _ others, Table.get?_set]
    by_cases same : name = first
    · subst same
      simp only [if_true, Option.some.injEq, absent, reduceCtorEq, false_or, List.mem_cons]
      constructor
      · rintro (rfl | ⟨stated, member, canonical⟩)
        · exact ⟨entry.1, .inl rfl, named⟩
        · exact ⟨stated, .inr member, canonical⟩
      · rintro ⟨stated, rfl | member, canonical⟩
        · exact .inl rfl
        · exact .inr ⟨stated, member, canonical⟩
    · simp only [same, if_false, List.mem_cons]
      constructor
      · rintro (before | ⟨stated, member, canonical⟩)
        · exact .inl before
        · exact .inr ⟨stated, .inr member, canonical⟩
      · rintro (before | ⟨stated, rfl | member, canonical⟩)
        · exact .inl before
        · exact absurd (Option.some.inj (canonical.symm.trans named)) same
        · exact .inr ⟨stated, member, canonical⟩

structure ResolvedChildSubmissionPolicy where
  policy : ChildSubmissionPolicy
  sharedFences : List ResolvedPolicyFence
  exclusiveFences : List ResolvedPolicyFence
  deriving DecidableEq

def ensureUniquePolicyFences (fences : List ResolvedPolicyFence) : Except IoError Unit :=
  require
    (decide (fences.map fun fence => (fence.identityKey, fence.remainingComponents)).Nodup)
    (.other "child policy roots collide after resolution")

namespace ResolvedChildSubmissionPolicy

/-- The policy with other custom limits. -/
def withCustom (resolved : ResolvedChildSubmissionPolicy) (custom : Table String Nat) :
    ResolvedChildSubmissionPolicy :=
  { resolved with policy :=
      { resolved.policy with maxClaims := { resolved.policy.maxClaims with custom } } }

def canonicalizeCustomClaims (resolved : ResolvedChildSubmissionPolicy) :
    Except IoError ResolvedChildSubmissionPolicy :=
  (canonicalCustom "duplicate canonical child-policy custom resource"
    resolved.policy.maxClaims.custom).map resolved.withCustom

def resolve (view : FileView) (policy : ChildSubmissionPolicy) :
    Except IoError ResolvedChildSubmissionPolicy := do
  let sharedFences ← policy.sharedRoots.mapM view.resolvePolicyFence
  let exclusiveFences ← policy.exclusiveRoots.mapM view.resolvePolicyFence
  ensureUniquePolicyFences sharedFences
  ensureUniquePolicyFences exclusiveFences
  canonicalizeCustomClaims ⟨policy, sharedFences, exclusiveFences⟩

variable (resolved : ResolvedChildSubmissionPolicy) (view : FileView)

def allowsShared (path : String) : Except IoError Bool :=
  view.policyFencesAllow resolved.sharedFences path

def allowsExclusive (path : String) : Except IoError Bool :=
  view.policyFencesAllow resolved.exclusiveFences path

end ResolvedChildSubmissionPolicy

def ResolvedClaims.resolve (view : FileView) (claims : ResourceClaims) :
    Except IoError ResolvedClaims := do
  let custom ← canonicalCustom "duplicate canonical custom resource" claims.custom
  let sharedFences ← view.resolveFences claims.sharedFences
  let exclusiveFences ← view.resolveFences claims.exclusiveFences
  require (sharedFences.all fun fence => !exclusiveFences.contains fence)
    (.other "one resolved path fence cannot be both shared and exclusive")
  return {
    cpuUnits := claims.cpuUnits.getD 0
    ramMb := claims.ramMb.getD 0
    cargoSlots := claims.cargoSlots.getD 0
    gpuSlots := claims.gpuSlots.getD 0
    custom
    sharedFences
    exclusiveFences
    impacts := claims.impacts.dedup.insertionSort (· ≤ ·) }

end Stillyard
