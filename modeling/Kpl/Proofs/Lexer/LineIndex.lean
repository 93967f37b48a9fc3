import Mathlib.Data.List.DropRight
import Mathlib.Data.String.Basic

/-!
Lines and columns by look-up. An index lists the byte offsets at which the lines of a text start;
the line of an offset is found in it by bisection, and the column by counting the characters from
the start of that line. Both are 32 bits wide.
-/

namespace Kpl

open String (utf8Len)

/-- How many of `xs` are before the first one that does not satisfy `p`, by bisection. -/
def partitionPoint (p : Nat → Bool) (xs : Array Nat) : Nat := go 0 xs.size
where
  go (low high : Nat) : Nat :=
    if low < high then
      let middle := (low + high) / 2
      if (xs[middle]?.map p).getD false then go (middle + 1) high else go low middle
    else low
    termination_by high - low

/-- A text cut in two behind its first bytes, unless that cuts a character in two or is too far. -/
def splitBytes? : Nat → List Char → Option (List Char × List Char)
  | 0, text => some ([], text)
  | _ + 1, [] => none
  | bytes + 1, c :: text =>
    if c.utf8Size ≤ bytes + 1 then
      (splitBytes? (bytes + 1 - c.utf8Size) text).map fun (front, rest) => (c :: front, rest)
    else none

/-- The characters from one byte offset to another, if both are between characters. -/
def slice? (text : List Char) (start stop : Nat) : Option (List Char) :=
  if start ≤ stop then do
    let (_, rest) ← splitBytes? start text
    let (inside, _) ← splitBytes? (stop - start) rest
    return inside
  else none

namespace LineIndex

def later (offset : Nat) : List Char → List Nat
  | [] => []
  | c :: text =>
    let behind := offset + c.utf8Size
    if c = '\n' then behind :: later behind text else later behind text

def starts (text : List Char) : Array Nat := (0 :: later 0 text).toArray

def line (text : List Char) (offset : Nat) : Nat :=
  max (partitionPoint (· ≤ offset) (starts text)) 1

def start? (text : List Char) (offset : Nat) : Option Nat := (starts text)[line text offset - 1]?

def before? (text : List Char) (offset : Nat) : Option (List Char) :=
  start? text offset >>= fun start => slice? text start offset

/-- The line and the column of an offset. Where no characters can be counted, bytes are. -/
def position? (text : List Char) (offset : Nat) : Option (UInt32 × UInt32) := do
  let start ← start? text offset
  let column := ((before? text offset).map (·.length)).getD (offset - start) + 1
  return (.ofNat (line text offset), .ofNat column)

end LineIndex

theorem partitionPoint_eq {p : Nat → Bool} {front rest : List Nat} (before : ∀ x ∈ front, p x)
    (behind : ∀ x ∈ rest, ¬ p x) : partitionPoint p (front ++ rest).toArray = front.length := by
  have decides (i : Nat) :
      (((front ++ rest).toArray[i]?.map p).getD false = true) ↔ i < front.length := by
    rw [List.getElem?_toArray]
    constructor
    · intro holds
      refine Nat.lt_of_not_le fun beyond => ?_
      rw [List.getElem?_append_right beyond] at holds
      cases found : rest[i - front.length]? with
      | none => simp [found] at holds
      | some x => exact behind x (List.mem_of_getElem? found) (by simpa [found] using holds)
    · intro inside
      rw [List.getElem?_append_left inside, List.getElem?_eq_getElem inside]
      exact before _ (List.getElem_mem inside)
  have bisect (low high : Nat) (above : low ≤ front.length) (below : front.length ≤ high) :
      partitionPoint.go p (front ++ rest).toArray low high = front.length := by
    fun_induction partitionPoint.go p (front ++ rest).toArray low high with
    | case1 low high wide middle holds ih =>
      exact ih ((decides middle).mp holds) below
    | case2 low high wide middle fails ih =>
      exact ih above (Nat.le_of_not_lt (mt (decides middle).mpr fails))
    | case3 low high narrow => omega
  exact bisect 0 _ (Nat.zero_le _) (by simp)

theorem splitBytes?_append (front rest : List Char) :
    splitBytes? (utf8Len front) (front ++ rest) = some (front, rest) := by
  induction front with
  | nil => rw [String.utf8Len_nil, List.nil_append, splitBytes?]
  | cons c front ih =>
    have positive : 0 < c.utf8Size := c.utf8Size_pos
    obtain ⟨bytes, size⟩ : ∃ bytes, utf8Len (c :: front) = bytes + 1 :=
      ⟨utf8Len front + c.utf8Size - 1, by rw [String.utf8Len_cons]; omega⟩
    have others : bytes + 1 - c.utf8Size = utf8Len front := by
      rw [← size, String.utf8Len_cons, Nat.add_sub_cancel_right]
    have fits : c.utf8Size ≤ bytes + 1 := by
      rw [← size, String.utf8Len_cons]
      exact Nat.le_add_left ..
    rw [size, List.cons_append, splitBytes?, if_pos fits, others, ih]
    rfl

theorem slice?_append (front inside rest : List Char) :
    slice? (front ++ (inside ++ rest)) (utf8Len front) (utf8Len front + utf8Len inside) =
      some inside := by
  rw [slice?, if_pos (Nat.le_add_right ..), splitBytes?_append, Nat.add_sub_cancel_left]
  show (splitBytes? _ (inside ++ rest)).bind _ = _
  rw [splitBytes?_append]
  rfl

namespace LineIndex

theorem later_append (offset : Nat) (a b : List Char) :
    later offset (a ++ b) = later offset a ++ later (offset + utf8Len a) b := by
  induction a generalizing offset with
  | nil => rfl
  | cons c a ih =>
    have same : offset + c.utf8Size + utf8Len a = offset + utf8Len (c :: a) := by
      rw [String.utf8Len_cons]
      omega
    rw [List.cons_append, later, later, ih, same]
    split <;> rfl

theorem length_later (offset : Nat) (text : List Char) :
    (later offset text).length = text.count '\n' := by
  induction text generalizing offset with
  | nil => rfl
  | cons c text ih =>
    rw [later]
    split
    · rename_i newline
      rw [List.length_cons, ih, newline, List.count_cons_self]
    · rename_i other
      rw [ih, List.count_cons_of_ne other]

theorem mem_later {offset x : Nat} {text : List Char} (member : x ∈ later offset text) :
    offset < x ∧ x ≤ offset + utf8Len text := by
  induction text generalizing offset with
  | nil => cases member
  | cons c text ih =>
    have positive : 0 < c.utf8Size := c.utf8Size_pos
    rw [String.utf8Len_cons]
    have newest : x = offset + c.utf8Size ∨ x ∈ later (offset + c.utf8Size) text := by
      rw [later] at member
      split at member
      · exact List.mem_cons.mp member
      · exact .inr member
    rcases newest with rfl | member
    · omega
    · have bounds := ih member
      omega

theorem getLast?_starts (text : List Char) : (0 :: later 0 text).getLast? =
    some (utf8Len (text.rdropWhile (· ≠ '\n'))) := by
  induction text using List.reverseRecOn with
  | nil => rfl
  | append_singleton text c ih =>
    rw [later_append, Nat.zero_add, ← List.cons_append]
    by_cases newline : c = '\n'
    · subst newline
      rw [List.rdropWhile_concat_neg _ _ _ (by simp), String.utf8Len_append]
      exact List.getLast?_concat
    · rw [List.rdropWhile_concat_pos _ _ _ (by simpa using newline), later, if_neg newline, later,
        List.append_nil, ih]

section Offsets

variable (before rest : List Char)

theorem line_eq : line (before ++ rest) (utf8Len before) = before.count '\n' + 1 := by
  have point : partitionPoint (· ≤ utf8Len before) (starts (before ++ rest)) =
      before.count '\n' + 1 := by
    rw [starts, later_append, Nat.zero_add, ← List.cons_append, partitionPoint_eq,
      List.length_cons, length_later]
    · intro x member
      rcases List.mem_cons.mp member with rfl | member
      · simp
      · simpa using (mem_later member).2
    · intro x member
      simpa using (mem_later member).1
  rw [line, point, Nat.max_eq_left (Nat.le_add_left ..)]

theorem start?_eq : start? (before ++ rest) (utf8Len before) =
    some (utf8Len (before.rdropWhile (· ≠ '\n'))) := by
  have known : before.count '\n' < (0 :: later 0 before).length := by
    rw [List.length_cons, length_later]
    exact Nat.lt_succ_self _
  rw [start?, line_eq, starts, later_append, ← List.cons_append, List.getElem?_toArray,
    Nat.add_sub_cancel, List.getElem?_append_left known, ← getLast?_starts,
    List.getLast?_eq_getElem?, List.length_cons, length_later]
  rfl

theorem slice_of_line : slice? (before ++ rest) (utf8Len (before.rdropWhile (· ≠ '\n')))
    (utf8Len before) = some (before.rtakeWhile (· ≠ '\n')) := by
  have parts := List.rdropWhile_append_rtakeWhile (p := (· ≠ '\n')) (l := before)
  have cut := slice?_append (before.rdropWhile (· ≠ '\n')) (before.rtakeWhile (· ≠ '\n')) rest
  rwa [← List.append_assoc, ← String.utf8Len_append, parts] at cut

theorem before?_eq : before? (before ++ rest) (utf8Len before) =
    some (before.rtakeWhile (· ≠ '\n')) := by
  rw [before?, start?_eq]
  exact slice_of_line before rest

theorem position?_eq : position? (before ++ rest) (utf8Len before) =
    some (.ofNat (before.count '\n' + 1), .ofNat ((before.rtakeWhile (· ≠ '\n')).length + 1)) := by
  rw [position?, start?_eq, line_eq, before?_eq]
  rfl

end Offsets

end LineIndex

end Kpl
