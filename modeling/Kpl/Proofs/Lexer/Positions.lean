import Kpl.Proofs.Lexer.Items
import Kpl.Proofs.Lexer.LineIndex

namespace Kpl

open String (utf8Len)

/-- A place behind `before`. The column counts characters, however many bytes they have. -/
structure Loc.Behind (loc : Loc) (before : List Char) : Prop where
  offset : loc.span.offset = utf8Len before
  line : loc.line = before.count '\n' + 1
  column : loc.column = (before.rtakeWhile (· ≠ '\n')).length + 1

/-- What the look-up of a location in `text` finds: characters to count, never only bytes, and the
    line and the column in thirty-two bits. -/
structure Loc.Found (loc : Loc) (text : List Char) : Prop where
  counted : (LineIndex.before? text loc.span.offset).isSome
  position : LineIndex.position? text loc.span.offset = some loc.place

theorem length_le_utf8Len (text : List Char) : text.length ≤ utf8Len text := by
  induction text with
  | nil => exact Nat.le_refl _
  | cons c text ih =>
    have positive : 0 < c.utf8Size := c.utf8Size_pos
    rw [List.length_cons, String.utf8Len_cons]
    omega

namespace Position

end Position

namespace Loc

variable {a b : Loc} {x y rest rest' : List Char}

theorem Behind.line_le (behind : a.Behind x) : a.line ≤ a.span.offset + 1 := by
  have count : x.count '\n' ≤ x.length := List.count_le_length
  have bytes := length_le_utf8Len x
  rw [behind.line, behind.offset]
  omega

theorem Behind.column_le (behind : a.Behind x) : a.column ≤ a.span.offset + 1 := by
  have line : (x.rtakeWhile (· ≠ '\n')).length ≤ x.length :=
    (List.rtakeWhile_suffix _ _).length_le
  have bytes := length_le_utf8Len x
  rw [behind.column, behind.offset]
  omega

theorem Behind.found (behind : a.Behind x) (rest : List Char) : a.Found (x ++ rest) where
  counted := by
    rw [behind.offset, LineIndex.before?_eq]
    rfl
  position := by
    rw [behind.offset, place, behind.line, behind.column, LineIndex.position?_eq]

/-- Lines and columns are counted from one, so that thirty-two bits hold those of every offset but
    the last one they can address. -/
theorem Behind.exact (behind : a.Behind x) (fits : a.span.offset + 1 < 2 ^ 32) :
    a.place.1.toNat = a.line ∧ a.place.2.toNat = a.column := by
  have size : UInt32.size = 2 ^ 32 := rfl
  have line := behind.line_le
  have column := behind.column_le
  exact ⟨UInt32.toNat_ofNat_of_lt' (by omega), UInt32.toNat_ofNat_of_lt' (by omega)⟩

end Loc

namespace TokenStream

variable {maxIdentLen : Nat} {source : String}

end TokenStream

end Kpl
