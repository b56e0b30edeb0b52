import Stillyard.Lib.Text
import Stillyard.Submission.Policy

/-!
# Selector tokens of children cursors

A children cursor carries its selector as hexadecimal JSON behind a digest.  The
decoder slices the text every two bytes.  A slice that ends inside a character
panics, so a token of even length with a wide character after a single narrow
one stops the call, whatever its digest.
-/

namespace Stillyard.Tree

open Fallible Text

/-- How a call ends without a value: with an error, or with a panic.  A walk that
uses up its fuel is `unfinished`, which no source error is. -/
inductive Stop where
  | viewStale (detail : String)
  | viewUnavailable (detail : String)
  | invalidSpec (detail : String)
  | invalidState (detail : String)
  | rejected (detail : String)
  | notFound (detail : String)
  | sqlite (detail : String)
  | json
  | unfinished
  | panics
  deriving DecidableEq, Repr

/-- The call returned an error. -/
def Stop.Orderly : Stop → Prop
  | .panics | .unfinished => False
  | _ => True

def hexDigit (char : Char) : Option Nat :=
  if '0' ≤ char ∧ char ≤ '9' then some (char.toNat - '0'.toNat)
  else if 'a' ≤ char ∧ char ≤ 'f' then some (char.toNat - 'a'.toNat + 10)
  else if 'A' ≤ char ∧ char ≤ 'F' then some (char.toNat - 'A'.toNat + 10)
  else none

/-- `u8::from_str_radix(text, 16)`, which accepts a leading plus. -/
def fromStrRadix (text : List Char) : Option UInt8 :=
  let digits := if text.head? = some '+' then text.tail else text
  if digits = [] then none
  else (digits.foldlM (fun value char => (hexDigit char).map (16 * value + ·)) 0).bind fun value =>
    if value < 256 then some (UInt8.ofNat value) else none

def hexByte (byte : UInt8) : List Char :=
  [Nat.digitChar (byte.toNat / 16), Nat.digitChar (byte.toNat % 16)]

def hex (bytes : List UInt8) : List Char := bytes.flatMap hexByte

/-- The slices of `unhex` follow each other, so each one starts where the last
one ended. -/
def unhexPairs : Nat → List Char → Except Stop (List UInt8)
  | 0, _ => return []
  | count + 1, text => do
      let (pair, rest) ← orError (splitBytes 2 text) .panics
      let byte ← orError (fromStrRadix pair) (.viewStale "invalid cursor encoding")
      return byte :: (← unhexPairs count rest)

def unhex (value : List Char) : Except Stop (List UInt8) := do
  require (byteLength value % 2 = 0) (.viewStale "invalid cursor encoding")
  unhexPairs (byteLength value / 2) value

/-- `split_once(':')`. -/
def splitOnce (text : List Char) : Option (List Char × List Char) :=
  match text.dropWhile (· ≠ ':') with
  | [] => none
  | _ :: after => some (text.takeWhile (· ≠ ':'), after)

inductive JobSelector where
  | all
  | jobs (jobIds : List DurableId)
  | batch (batchId : DurableId)
  | labels (labels : List Label)
  deriving DecidableEq, Repr

/-- `serde_json` for selectors, and SHA-256. -/
structure SelectorCodec where
  toVec : JobSelector → List UInt8
  fromSlice : List UInt8 → Option JobSelector
  sha256 : List UInt8 → List UInt8

variable (codec : SelectorCodec)

def selectorToken (selector : JobSelector) : List Char :=
  hex (codec.sha256 (codec.toVec selector)) ++ ':' :: hex (codec.toVec selector)

def selectorFromToken (token : List Char) : Except Stop JobSelector := do
  let (claimed, encoded) ← orError (splitOnce token) (.viewStale "invalid selector-bound cursor")
  let json ← unhex encoded
  require (claimed = hex (codec.sha256 json)) (.viewStale "selector-bound cursor checksum failed")
  orError (codec.fromSlice json) .json

structure JobChildrenCursor where
  storeUuid : Uuid
  selectorHash : List Char
  parentJobId : DurableId
  acceptedUnixMillis : Int
  childJobId : DurableId
  deriving DecidableEq, Repr

def maxTreePageNodes : Nat := 256

def validateTreeBounds (rootLimit nodeLimit : Nat) (depth : Option Nat) (maxDepth : Nat) :
    Except Stop Unit :=
  require (1 ≤ rootLimit && rootLimit ≤ 256 && (1 ≤ nodeLimit && nodeLimit ≤ maxTreePageNodes) &&
      depth.all (· ≤ maxDepth))
    (.invalidSpec "invalid tree page bounds")

/-- The checks of `tree_children_in_snapshot` before it reads the token. -/
def checkChildren (storeUuid : Uuid) (cursor : JobChildrenCursor) (nodeLimit : Nat)
    (additionalDepth : Option Nat) : Except Stop Unit := do
  validateTreeBounds 1 nodeLimit (some (additionalDepth.getD 0)) 63
  require (cursor.storeUuid = storeUuid && cursor.parentJobId.storeUuid = storeUuid &&
      cursor.childJobId.storeUuid = storeUuid)
    (.viewStale "tree child cursor belongs to another store")

/-! ## Which tokens panic -/

/-- Some slice of two bytes ends inside a character, and every slice before it
reads as a byte. -/
def Straddles : List Char → Prop
  | [] => False
  | [first] => 2 < first.utf8Size
  | first :: second :: rest =>
    2 < first.utf8Size ∨ first.utf8Size = 1 ∧
      (1 < second.utf8Size ∨ (fromStrRadix [first, second]).isSome ∧ Straddles rest)

/-- A token on which the decoder panics. -/
def Straddling (token : List Char) : Prop :=
  ∃ claimed encoded, splitOnce token = some (claimed, encoded) ∧ byteLength encoded % 2 = 0 ∧
    Straddles encoded

theorem splitBytes_two_narrow (narrow : first.utf8Size = 1) :
    splitBytes 2 (first :: second :: rest) =
      if second.utf8Size = 1 then some ([first, second], rest) else none := by
  have := second.utf8Size_pos
  by_cases one : second.utf8Size = 1
  · simp [splitBytes, narrow, one]
  · simp [splitBytes, narrow, one, show ¬second.utf8Size ≤ 1 by omega]

theorem splitBytes_two_single (two : first.utf8Size = 2) :
    splitBytes 2 (first :: rest) = some ([first], rest) := by
  simp [splitBytes, two]

/-- Digits and the sign are one byte wide. -/
theorem fromStrRadix_wide (wide : char.utf8Size ≠ 1) : fromStrRadix [char] = none := by
  have large : 127 < char.val.toNat := by
    by_contra small
    exact wide (Char.utf8Size_eq_one_iff.mpr (UInt32.le_iff_toNat_le.mpr (Nat.le_of_not_lt small)))
  have nodigit : hexDigit char = none := by
    have above (limit : Char) (low : limit.val.toNat ≤ 127) : ¬char ≤ limit := fun le =>
      absurd (UInt32.le_iff_toNat_le.mp (Char.le_def.mp le)) (by omega)
    simp [hexDigit, above '9' (by decide), above 'f' (by decide), above 'F' (by decide)]
  have unsigned : char ≠ '+' := by
    rintro rfl
    exact wide rfl
  simp [fromStrRadix, unsigned, nodigit]

theorem unhexPairs_succ_panics :
    unhexPairs (count + 1) text = .error .panics ↔
      splitBytes 2 text = none ∨ ∃ pair rest, splitBytes 2 text = some (pair, rest) ∧
        (fromStrRadix pair).isSome ∧ unhexPairs count rest = .error .panics := by
  cases split : splitBytes 2 text with
  | none => simp [unhexPairs, split, bind_eq_error, orError_eq_error]
  | some parts =>
    obtain ⟨pair, rest⟩ := parts
    cases read : fromStrRadix pair with
    | none => simp [unhexPairs, split, read, bind_eq_error, orError_eq_error, orError_eq_ok]
    | some byte =>
      simp [unhexPairs, split, read, bind_eq_error, orError_eq_error, orError_eq_ok, pure,
        Except.pure]

/-- The decoder panics exactly on a slice that ends inside a character. -/
theorem unhexPairs_panics (long : byteLength text = 2 * count) :
    unhexPairs count text = .error .panics ↔ Straddles text := by
  induction count generalizing text with
  | zero =>
    cases text with
    | nil => simp [unhexPairs, Straddles, pure, Except.pure]
    | cons first rest =>
      have := first.utf8Size_pos
      rw [byteLength_cons] at long
      omega
  | succ count ih =>
    rw [unhexPairs_succ_panics]
    match text with
    | [] => simp [byteLength] at long
    | [first] =>
      have positive := first.utf8Size_pos
      have even : first.utf8Size = 2 * (count + 1) := by simpa [byteLength] using long
      by_cases two : first.utf8Size = 2
      · simp [splitBytes_two_single two, fromStrRadix_wide (show first.utf8Size ≠ 1 by omega),
          Straddles, two]
      · have wide : 2 < first.utf8Size := by omega
        simp [splitBytes, Straddles, wide, Nat.not_le.mpr wide]
    | first :: second :: rest =>
      have positive := first.utf8Size_pos
      have positive' := second.utf8Size_pos
      rw [byteLength_cons, byteLength_cons] at long
      by_cases wide : 2 < first.utf8Size
      · simp [splitBytes, Straddles, wide, Nat.not_le.mpr wide]
      by_cases one : first.utf8Size = 1
      · rw [splitBytes_two_narrow one]
        by_cases narrow : second.utf8Size = 1
        · have shorter : byteLength rest = 2 * count := by omega
          simp [Straddles, one, narrow, ih shorter]
        · simp [Straddles, one, narrow, show 1 < second.utf8Size by omega]
      · have two : first.utf8Size = 2 := by omega
        simp [splitBytes_two_single two, fromStrRadix_wide one, Straddles, two]

/-- A written digit reads back, takes one byte and is no separator. -/
theorem digitChar_reads : ∀ value < 16, hexDigit (Nat.digitChar value) = some value ∧
    (Nat.digitChar value).utf8Size = 1 ∧ Nat.digitChar value ≠ ':' ∧ Nat.digitChar value ≠ '+' := by
  decide

/-- A written byte is one slice of the text it starts, and reads back. -/
theorem hexByte_reads (byte : UInt8) (rest : List Char) :
    byteLength (hexByte byte ++ rest) = byteLength rest + 2 ∧
      splitBytes 2 (hexByte byte ++ rest) = some (hexByte byte, rest) ∧
      fromStrRadix (hexByte byte) = some byte ∧ ':' ∉ hexByte byte := by
  have bound : byte.toNat < 256 := byte.toNat_lt
  obtain ⟨high, narrow, plain, unsigned⟩ := digitChar_reads (byte.toNat / 16) (by omega)
  obtain ⟨low, narrow', plain', -⟩ := digitChar_reads (byte.toNat % 16) (by omega)
  have whole : 16 * (byte.toNat / 16) + byte.toNat % 16 = byte.toNat := Nat.div_add_mod ..
  refine ⟨?_, ?_, ?_, ?_⟩
  · simp only [hexByte, List.cons_append, List.nil_append, byteLength_cons, narrow, narrow']
    omega
  · simp [hexByte, splitBytes_two_narrow narrow, narrow']
  · simp [hexByte, fromStrRadix, unsigned, high, low, whole, bound]
  · simp [hexByte, plain.symm, plain'.symm]

theorem unhex_hex (bytes : List UInt8) : unhex (hex bytes) = .ok bytes := by
  have read : byteLength (hex bytes) = 2 * bytes.length ∧
      unhexPairs bytes.length (hex bytes) = .ok bytes := by
    induction bytes with
    | nil => exact ⟨rfl, rfl⟩
    | cons byte rest ih =>
      obtain ⟨long, split, value, -⟩ := hexByte_reads byte (hex rest)
      refine ⟨long.trans (by rw [ih.1, List.length_cons]; omega), ?_⟩
      change unhexPairs (rest.length + 1) (hexByte byte ++ hex rest) = _
      simp [unhexPairs, ok_iff, split, value, ih.2]
  simp [unhex, read, ok_iff]

theorem splitOnce_hex (bytes : List UInt8) (after : List Char) :
    splitOnce (hex bytes ++ ':' :: after) = some (hex bytes, after) := by
  have plain : ∀ char ∈ hex bytes, decide (char ≠ ':') = true := by
    intro char listed
    obtain ⟨byte, -, written⟩ := List.mem_flatMap.mp listed
    exact decide_eq_true fun colon => (hexByte_reads byte []).2.2.2 (colon ▸ written)
  rw [splitOnce, List.dropWhile_append_of_pos plain, List.takeWhile_append_of_pos plain]
  simp

theorem unhex_panics :
    unhex value = .error .panics ↔ byteLength value % 2 = 0 ∧ Straddles value := by
  simp only [unhex, bind_eq_error, require_eq_error, require_eq_ok, reduceCtorEq, and_false,
    false_or, exists_const, decide_eq_true_eq]
  exact and_congr_right fun even => unhexPairs_panics (by omega)

theorem selectorFromToken_panics :
    selectorFromToken codec token = .error .panics ↔ Straddling token := by
  simp [selectorFromToken, Straddling, bind_eq_error, orError_eq_error, orError_eq_ok,
    require_eq_error, unhex_panics]

theorem selectorFromToken_eq_ok :
    selectorFromToken codec token = .ok selector ↔ ∃ encoded json,
      splitOnce token = some (hex (codec.sha256 json), encoded) ∧ unhex encoded = .ok json ∧
        codec.fromSlice json = some selector := by
  simp [selectorFromToken, ok_iff]

end Stillyard.Tree
