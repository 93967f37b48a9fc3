import Kpl.Digits

namespace Kpl

/-- The number that `digits` write, times ten to the power of `exponent`. -/
structure Decimal where
  negative : Bool
  digits : List Char
  exponent : Int
deriving DecidableEq, Repr

namespace Decimal

/-- The integer part of the magnitude: the digits with zeros behind them, or without those behind
    the point. -/
def integerPart (d : Decimal) : Nat :=
  match d.exponent with
  | .ofNat zeros => Digits.value 10 (d.digits ++ List.replicate zeros '0')
  | .negSucc places => Digits.value 10 (d.digits.take (d.digits.length - (places + 1)))

/-- The least magnitude that rounds to infinity. It lies half a step beyond the greatest finite
    float, which is `2 ^ 1024 - 2 ^ 971`. -/
def leastInfinite : Nat := Nat.pow 2 1024 - Nat.pow 2 970

def infiniteZeros : Nat := 309

/-- Whether the nearest 64-bit float is positive infinity. The bound is an integer, so that only
    the integer part counts, and more zeros than `infiniteZeros` make no difference. -/
def overflows (d : Decimal) : Bool :=
  let exponent := if d.exponent ≤ infiniteZeros then d.exponent else infiniteZeros
  !d.negative && leastInfinite ≤ { d with exponent }.integerPart

theorem leastInfinite_le {zeros : Nat} (h : infiniteZeros ≤ zeros) :
    leastInfinite ≤ Nat.pow 10 zeros := by
  have least : leastInfinite ≤ Nat.pow 10 infiniteZeros := by decide +kernel
  have grows (m n : Nat) (h : m ≤ n) : Nat.pow 10 m ≤ Nat.pow 10 n :=
    Nat.pow_le_pow_right (by decide) h
  exact Nat.le_trans least (grows infiniteZeros zeros h)

theorem overflows_iff (d : Decimal) :
    d.overflows ↔ d.negative = false ∧ leastInfinite ≤ d.integerPart := by
  rcases d with ⟨negative, digits, exponent⟩
  by_cases short : exponent ≤ infiniteZeros
  · simp [overflows, short]
  · obtain ⟨zeros, rfl⟩ := Int.eq_ofNat_of_zero_le (a := exponent) (by omega)
    have long : infiniteZeros ≤ zeros := by omega
    simp only [overflows, short, if_false, integerPart, Digits.value_append_zeros,
      Bool.and_eq_true, Bool.not_eq_true', decide_eq_true_eq]
    rcases Nat.eq_zero_or_pos (Digits.value 10 digits) with zero | pos
    · simp only [zero, Nat.mul_zero]
    · have beyond (n : Nat) (h : infiniteZeros ≤ n) :
          leastInfinite ≤ Nat.pow 10 n * Digits.value 10 digits :=
        Nat.le_trans (leastInfinite_le h) (Nat.le_mul_of_pos_right _ pos)
      have least := beyond infiniteZeros (Nat.le_refl infiniteZeros)
      simp only [least, beyond zeros long]

end Decimal

end Kpl
