import Stillyard.Lib.Text

/-!
# Wildcard patterns of process rules

Process rules name processes by patterns with `*`.  The matcher walks over the
bytes of the value and takes the first place of every part.  That decides whether
the value is the parts of the pattern in order with any text for each `*`, and
the walk never stops inside a character.
-/

namespace Stillyard

open Text

def toAsciiLowercase (text : List Char) : List Char := text.map Char.toLower

/-- `find`: the byte at which the first place of `part` begins. -/
def findPart (part text : List Char) : Option Nat :=
  ((List.range (text.length + 1)).find? fun index => part <+: text.drop index).map
    fun index => byteLength (text.take index)

/-- The loop of `wildcard_match` from the part `index` on; `none` is a panic. -/
def matchParts (value pattern : List Char) : Nat → Nat → List (List Char) → Option Bool
  | _, _, [] => some true
  | index, offset, part :: parts =>
    if part = [] then matchParts value pattern (index + 1) offset parts
    else
      (splitBytes offset value).bind fun (_, later) =>
        match findPart part later with
        | none => some false
        | some found =>
          if index = 0 ∧ pattern.head? ≠ some '*' ∧ found ≠ 0 then some false
          else matchParts value pattern (index + 1) (offset + (found + byteLength part)) parts

/-- `wildcard_match`; `none` is a panic. -/
def wildcardMatch (value pattern : List Char) : Option Bool :=
  let value := toAsciiLowercase value
  let pattern := toAsciiLowercase pattern
  let parts := pattern.splitOn '*'
  if parts.length = 1 then some (value = pattern)
  else (matchParts value pattern 0 0 parts).map fun found =>
    found && (pattern.getLast? = some '*' || parts.getLast?.all (· <:+ value))

/-! ## What a pattern stands for -/

/-- The text is the parts in order, with any text between two of them. -/
def Fills : List (List Char) → List Char → Prop
  | [], text => text = []
  | [part], text => text = part
  | part :: parts, text => ∃ gap later, text = part ++ (gap ++ later) ∧ Fills parts later

/-- The parts are somewhere in the text, in order and apart from each other. -/
def OccursIn : List (List Char) → List Char → Prop
  | [], _ => True
  | part :: parts, text => ∃ gap later, text = gap ++ (part ++ later) ∧ OccursIn parts later

theorem suffix_place (gap part later : List Char) : later <:+ gap ++ (part ++ later) := by
  rw [← List.append_assoc]
  exact List.suffix_append _ _

theorem OccursIn.mono (suffix : later <:+ text) (within : OccursIn parts later) :
    OccursIn parts text := by
  cases parts with
  | nil => trivial
  | cons part parts =>
    obtain ⟨gap, rest, rfl, within⟩ := within
    obtain ⟨before, rfl⟩ := suffix
    exact ⟨before ++ gap, rest, by simp, within⟩

theorem OccursIn.length_le (within : OccursIn parts text) (member : part ∈ parts) :
    part.length ≤ text.length := by
  induction parts generalizing text with
  | nil => cases member
  | cons first parts ih =>
    obtain ⟨gap, later, rfl, within⟩ := within
    simp only [List.length_append]
    rcases List.mem_cons.mp member with rfl | member
    · omega
    · have := ih within member
      omega

/-- A part of the rest ends the text iff it ends the rest. -/
theorem OccursIn.suffix_iff (within : OccursIn parts later) (member : part ∈ parts)
    (suffix : later <:+ text) : part <:+ text ↔ part <:+ later := by
  constructor
  · intro ends
    exact List.suffix_of_suffix_length_le ends suffix (within.length_le member)
  · intro ends
    exact ends.trans suffix

theorem occursIn_nil_cons : OccursIn ([] :: parts) text ↔ OccursIn parts text := by
  constructor
  · rintro ⟨gap, later, rfl, within⟩
    exact within.mono (by simp)
  · intro within
    exact ⟨[], text, rfl, within⟩

/-- Parts after a gap fill the rest of a text iff they are in it and the last one
ends it. -/
theorem fills_after_iff (nonempty : parts ≠ []) :
    (∃ gap later, text = gap ++ later ∧ Fills parts later) ↔
      OccursIn parts text ∧ parts.getLast nonempty <:+ text := by
  induction parts generalizing text with
  | nil => exact absurd rfl nonempty
  | cons part parts ih =>
    cases parts with
    | nil =>
      constructor
      · rintro ⟨gap, _, rfl, rfl⟩
        exact ⟨⟨gap, [], by simp, trivial⟩, List.suffix_append _ _⟩
      · rintro ⟨_, gap, rfl⟩
        exact ⟨gap, _, rfl, rfl⟩
    | cons next parts =>
      rw [List.getLast_cons (List.cons_ne_nil next parts)]
      constructor
      · rintro ⟨gap, _, rfl, between, later, rfl, fills⟩
        obtain ⟨within, ends⟩ := (ih (List.cons_ne_nil _ _)).mp ⟨between, later, rfl, fills⟩
        exact ⟨⟨gap, _, rfl, within⟩, ends.trans (suffix_place _ _ _)⟩
      · rintro ⟨⟨gap, later, rfl, within⟩, ends⟩
        have last := (within.suffix_iff (List.getLast_mem _) (suffix_place gap part later)).mp ends
        obtain ⟨between, rest, rfl, fills⟩ := (ih (List.cons_ne_nil _ _)).mpr ⟨within, last⟩
        exact ⟨gap, _, rfl, between, rest, rfl, fills⟩

/-- What is found begins a place of the part, and no place leaves more text. -/
theorem findPart_eq_some (found : findPart part text = some offset) :
    ∃ gap later, text = gap ++ (part ++ later) ∧ offset = byteLength gap ∧
      ∀ before after, text = before ++ (part ++ after) → after.length ≤ later.length := by
  obtain ⟨index, first, rfl⟩ := Option.map_eq_some_iff.mp found
  obtain ⟨begins, listed, least⟩ := List.find?_range_eq_some.mp first
  obtain ⟨later, same⟩ := decide_eq_true_iff.mp begins
  have placed : text = text.take index ++ (part ++ later) := by rw [same, List.take_append_drop]
  refine ⟨text.take index, later, placed, rfl, ?_⟩
  intro before after other
  have lengths := congrArg List.length (placed.symm.trans other)
  have taken := List.length_take_le index text
  simp only [List.length_append] at lengths
  by_contra more
  have earlier := least before.length (by omega)
  simp [other] at earlier

theorem findPart_eq_none (missing : findPart part (gap ++ (part ++ later)) = none) : False := by
  have never := List.find?_range_eq_none.mp (Option.map_eq_none_iff.mp missing) gap.length
  simp only [List.length_append, List.drop_left, List.prefix_append, decide_true] at never
  exact absurd (never (by omega)) (by decide)

theorem findPart_of_prefix (part later : List Char) : findPart part (part ++ later) = some 0 := by
  have first : (List.range ((part ++ later).length + 1)).find?
      (fun index => decide (part <+: (part ++ later).drop index)) = some 0 := by
    simp [List.find?_range_eq_some]
  rw [findPart, first]
  rfl

/-! ## Runs of the matcher -/

/-- Behind the first part, the walk finds the parts wherever they are. -/
theorem matchParts_later (value pattern done later : List Char) (index : Nat)
    (parts : List (List Char)) (reached : value = done ++ later) :
    ∃ found, matchParts value pattern (index + 1) (byteLength done) parts = some found ∧
      (found = true ↔ OccursIn parts later) := by
  induction parts generalizing done later index with
  | nil => exact ⟨true, rfl, iff_of_true rfl trivial⟩
  | cons part parts ih =>
    rw [matchParts]
    split
    · next empty =>
      subst empty
      rw [occursIn_nil_cons]
      exact ih done later (index + 1) reached
    · rw [reached, splitBytes_append, ← reached, Option.bind_some]
      dsimp only
      split
      · next missing =>
        refine ⟨false, rfl, iff_of_false (by decide) ?_⟩
        rintro ⟨gap, rest, rfl, _⟩
        exact findPart_eq_none missing
      · next offset place =>
        obtain ⟨gap, rest, rfl, rfl, most⟩ := findPart_eq_some place
        rw [if_neg (by omega), ← byteLength_append, ← byteLength_append]
        obtain ⟨found, ran, decides⟩ := ih (done ++ (gap ++ part)) rest (index + 1)
          (by simp [reached])
        refine ⟨found, ran, decides.trans ⟨fun within => ⟨gap, rest, rfl, within⟩, ?_⟩⟩
        rintro ⟨before, after, same, within⟩
        -- No other place of the part leaves more text than the first one.
        exact within.mono (List.suffix_of_suffix_length_le (same ▸ suffix_place before part after)
          (suffix_place gap part rest) (most before after same))

/-- The whole walk: the first part begins the value, the others are behind it. -/
theorem matchParts_all (value : List Char) (parts : List (List Char))
    (begins : pattern.head? = some '*' → first = []) :
    ∃ found, matchParts value pattern 0 0 (first :: parts) = some found ∧
      (found = true ↔ ∃ later, value = first ++ later ∧ OccursIn parts later) := by
  by_cases starts : first <+: value
  · obtain ⟨later, rfl⟩ := starts
    obtain ⟨found, ran, decides⟩ :=
      matchParts_later (first ++ later) pattern first later 0 parts rfl
    refine ⟨found, ?_, decides.trans ?_⟩
    · rw [matchParts]
      split
      · next empty =>
        subst empty
        exact ran
      · simpa [splitBytes, findPart_of_prefix] using ran
    · simp
  · have never : ¬∃ later, value = first ++ later ∧ OccursIn parts later := by
      rintro ⟨later, rfl, _⟩
      exact starts (List.prefix_append _ _)
    refine ⟨false, ?_, iff_of_false (by decide) never⟩
    have full : first ≠ [] := by
      rintro rfl
      exact starts List.nil_prefix
    simp only [matchParts, if_neg full, splitBytes, Option.bind_some]
    split
    · rfl
    · next offset place =>
      refine if_pos ⟨trivial, mt begins full, ?_⟩
      rintro rfl
      obtain ⟨gap, later, rfl, zero, _⟩ := findPart_eq_some place
      cases gap with
      | nil => exact starts (List.prefix_append _ _)
      | cons char gap =>
        have := char.utf8Size_pos
        rw [byteLength_cons] at zero
        omega

/-- The matcher decides whether the lower-cased value is the parts of the
lower-cased pattern in order, with any text for each `*`.  It never panics. -/
theorem wildcardMatch_iff (value pattern : List Char) :
    ∃ found, wildcardMatch value pattern = some found ∧
      (found = true ↔
        Fills ((toAsciiLowercase pattern).splitOn '*') (toAsciiLowercase value)) := by
  unfold wildcardMatch
  dsimp only
  generalize toAsciiLowercase value = value
  generalize toAsciiLowercase pattern = pattern
  have joined : ['*'].intercalate (pattern.splitOn '*') = pattern := List.intercalate_splitOn '*'
  have heads : pattern.head? = some '*' → (pattern.splitOn '*').head? = some [] := by
    intro star
    obtain ⟨rest, rfl⟩ := List.head?_eq_some_iff.mp star
    rw [List.splitOn_cons_eq_if_modifyHead]
    rfl
  have lasts : pattern.getLast? = some '*' → (pattern.splitOn '*').getLast? = some [] := by
    intro star
    obtain ⟨rest, rfl⟩ := List.getLast?_eq_some_iff.mp star
    rw [List.splitOn_append_cons_self]
    simp
  obtain ⟨first, parts, split⟩ := List.exists_cons_of_ne_nil (List.splitOn_ne_nil '*' pattern)
  rw [split] at joined heads lasts ⊢
  cases parts with
  | nil =>
    refine ⟨decide (value = pattern), if_pos rfl, ?_⟩
    simp [Fills, ← joined, List.intercalate]
  | cons next rest =>
    obtain ⟨found, ran, decides⟩ := matchParts_all value (next :: rest) fun star =>
      Option.some.inj (heads star)
    rw [if_neg (by simp), ran]
    refine ⟨_, rfl, ?_⟩
    have last : (pattern.getLast? = some '*' ∨
        (first :: next :: rest).getLast?.all (· <:+ value) = true) ↔
          (next :: rest).getLast (List.cons_ne_nil _ _) <:+ value := by
      have same : (first :: next :: rest).getLast? = some ((next :: rest).getLast (by simp)) := by
        rw [List.getLast?_cons_cons, List.getLast?_eq_some_getLast]
      rw [same, Option.some.injEq] at lasts
      rw [same, Option.all_some, decide_eq_true_iff, or_iff_right_of_imp]
      intro star
      rw [lasts star]
      exact List.nil_suffix
    rw [Bool.and_eq_true, Bool.or_eq_true, decide_eq_true_eq, decides, last]
    constructor
    · rintro ⟨⟨later, rfl, within⟩, ends⟩
      have behind := (within.suffix_iff (List.getLast_mem _) (List.suffix_append _ _)).mp ends
      obtain ⟨gap, rest, rfl, fills⟩ := (fills_after_iff _).mpr ⟨within, behind⟩
      exact ⟨gap, rest, rfl, fills⟩
    · rintro ⟨gap, later, rfl, fills⟩
      obtain ⟨within, ends⟩ := (fills_after_iff (List.cons_ne_nil _ _)).mp ⟨gap, later, rfl, fills⟩
      exact ⟨⟨_, rfl, within⟩, ends.trans (List.suffix_append _ _)⟩

end Stillyard
