import Mathlib

/-!
# Texts in UTF-8

A text is a list of characters, and positions in it count the bytes of its
encoding.  A cut at a position inside a character does not exist.
-/

namespace Text

/-- The bytes of the encoding. -/
def byteLength (text : List Char) : Nat := (text.map Char.utf8Size).sum

/-- The first bytes of a text and the rest; `none` if that is inside a character
or behind the end. -/
def splitBytes : Nat → List Char → Option (List Char × List Char)
  | 0, text => some ([], text)
  | _ + 1, [] => none
  | count + 1, first :: rest =>
    if first.utf8Size ≤ count + 1 then
      (splitBytes (count + 1 - first.utf8Size) rest).map fun (taken, later) =>
        (first :: taken, later)
    else none

theorem byteLength_cons (first : Char) (rest : List Char) :
    byteLength (first :: rest) = first.utf8Size + byteLength rest := by
  simp [byteLength]

theorem byteLength_append (left right : List Char) :
    byteLength (left ++ right) = byteLength left + byteLength right := by
  simp [byteLength]

theorem splitBytes_append (left right : List Char) :
    splitBytes (byteLength left) (left ++ right) = some (left, right) := by
  induction left with
  | nil => cases right <;> rfl
  | cons first left ih =>
    obtain ⟨count, positive⟩ := Nat.exists_eq_add_of_lt first.utf8Size_pos
    rw [byteLength_cons, List.cons_append, show first.utf8Size + byteLength left =
      count + byteLength left + 1 by omega, splitBytes, if_pos (by omega),
      show count + byteLength left + 1 - first.utf8Size = byteLength left by omega, ih]
    rfl

end Text
