import Kpl.Token.Basic

namespace Kpl

inductive Balanced : List Token → Prop where
  | nil : Balanced []
  | plain {t : Token} {ts : List Token} : t.kind ≠ .symbol .lSelector →
    t.kind ≠ .symbol .rSelector → Balanced ts → Balanced (t :: ts)
  | brackets {l r : Token} {inside rest : List Token} : l.kind = .symbol .lSelector →
    Balanced inside → r.kind = .symbol .rSelector → Balanced rest →
      Balanced (l :: (inside ++ r :: rest))

inductive Subscripts : List Token → Prop where
  | nil : Subscripts []
  | cons {l r : Token} {inside rest : List Token} : l.kind = .symbol .lSelector →
    Balanced inside → r.kind = .symbol .rSelector → Subscripts rest →
      Subscripts (l :: (inside ++ r :: rest))

namespace Balanced

theorem single {t : Token} (noOpening : t.kind ≠ .symbol .lSelector)
    (noClosing : t.kind ≠ .symbol .rSelector) : Balanced [t] :=
  .plain noOpening noClosing .nil

theorem append {a b : List Token} (ha : Balanced a) (hb : Balanced b) : Balanced (a ++ b) := by
  induction ha with
  | nil => exact hb
  | plain noOpening noClosing _ ih => exact .plain noOpening noClosing ih
  | brackets opens inside closes _ _ ih => simpa using Balanced.brackets opens inside closes ih

/-- A closing bracket behind a balanced list is the first one that closes nothing in the list. -/
theorem closing_unique {a b x y : List Token} {r r' : Token} (ha : Balanced a) (hb : Balanced b)
    (closes : r.kind = .symbol .rSelector) (closes' : r'.kind = .symbol .rSelector)
    (same : a ++ r :: x = b ++ r' :: y) : a = b ∧ r = r' ∧ x = y := by
  induction ha generalizing b r r' x y with
  | nil =>
    cases hb with
    | nil => simpa using same
    | plain _ noClosing => simp_all
    | brackets opens => simp_all
  | plain noOpening noClosing _ ih =>
    cases hb with
    | nil => simp_all
    | plain _ _ hb =>
      obtain ⟨rfl, tails⟩ := List.cons.inj same
      obtain ⟨rfl, rfl, rfl⟩ := ih hb closes closes' tails
      exact ⟨rfl, rfl, rfl⟩
    | brackets opens => simp_all
  | brackets opens _ closed _ ihInside ihRest =>
    cases hb with
    | nil => simp_all
    | plain noOpening => simp_all
    | brackets opens' inside' closed' rest' =>
      simp only [List.cons_append, List.append_assoc, List.cons.injEq] at same
      obtain ⟨rfl, groups⟩ := same
      obtain ⟨rfl, rfl, tails⟩ := ihInside inside' closed closed' groups
      obtain ⟨rfl, rfl, rfl⟩ := ihRest rest' closes closes' tails
      exact ⟨rfl, rfl, rfl⟩

end Balanced

namespace Subscripts

theorem opens {t : Token} {ts : List Token} (h : Subscripts (t :: ts)) :
    t.kind = .symbol .lSelector := by
  cases h
  assumption

theorem balanced {a : List Token} (h : Subscripts a) : Balanced a := by
  induction h with
  | nil => exact .nil
  | cons opens inside closes _ ih => exact .brackets opens inside closes ih

theorem append {a b : List Token} (ha : Subscripts a) (hb : Subscripts b) :
    Subscripts (a ++ b) := by
  induction ha with
  | nil => exact hb
  | cons opens inside closes _ ih => simpa using Subscripts.cons opens inside closes ih

theorem of_append {a b : List Token} (ha : Subscripts a) (h : Subscripts (a ++ b)) :
    Subscripts b := by
  induction ha with
  | nil => exact h
  | @cons l r inside rest opens balanced closes _ ih =>
    generalize split : l :: (inside ++ r :: rest) ++ b = ts at h
    cases h with
    | nil => simp at split
    | cons _ balanced' closes' others =>
      simp only [List.cons_append, List.append_assoc, List.cons.injEq] at split
      obtain ⟨-, -, rfl⟩ := balanced.closing_unique balanced' closes closes' split.2
      exact ih others

end Subscripts

end Kpl
