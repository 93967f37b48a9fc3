namespace Kpl

namespace Digits

/-- The value of a digit of any base up to sixteen; letters count in both cases. -/
def digit (c : Char) : Nat :=
  if c.isDigit then c.toNat - '0'.toNat else c.toLower.toNat - 'a'.toNat + 10

def value (base : Nat) (digits : List Char) : Nat :=
  digits.foldl (fun n c => base * n + digit c) 0

theorem value_append (base : Nat) (ds : List Char) (c : Char) :
    value base (ds ++ [c]) = base * value base ds + digit c := by
  simp [value]

theorem value_append_zeros (base : Nat) (ds : List Char) (n : Nat) :
    value base (ds ++ List.replicate n '0') = Nat.pow base n * value base ds := by
  induction n generalizing ds with
  | zero => simp
  | succ n ih =>
    have zero : digit '0' = 0 := rfl
    rw [List.replicate_succ, List.append_cons, ih, value_append, zero]
    simp [Nat.pow_succ, Nat.mul_assoc]

end Digits

end Kpl
