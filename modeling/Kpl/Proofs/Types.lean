import Kpl.Table.Resolve

namespace Kpl

namespace Ty

theorem same_iff {a b : Ty} : a.same b = true ↔ a = b := by
  induction a generalizing b with
  | int => cases b <;> simp [same]
  | char => cases b <;> simp [same]
  | array m a ih => cases b <;> simp [same, ih]

@[simp] theorem duplicate_eq (a : Ty) : a.duplicate = a := by
  induction a with
  | int => rfl
  | char => rfl
  | array size element ih => rw [duplicate, ih]

theorem requireSame_ok {expected found : Ty} {loc : Loc} {u : Unit} :
    requireSame expected found loc = .ok u ↔ found = expected := by
  unfold requireSame
  split
  · rename_i same
    simp [same_iff.mp same]
  · rename_i differ
    rw [same_iff] at differ
    simp [Ne.symm differ]

theorem requireSame_error {expected found : Ty} {loc : Loc} {e : SemanticError} :
    requireSame expected found loc = .error e ↔
      found ≠ expected ∧ e = ⟨.typeInconsistency expected found, none, loc⟩ := by
  unfold requireSame
  split
  · rename_i same
    simp [same_iff.mp same]
  · rename_i differ
    rw [same_iff] at differ
    simp [Ne.symm differ, eq_comm]

theorem requireInt_ok {ty : Ty} {loc : Loc} {u : Unit} : ty.requireInt loc = .ok u ↔ ty = .int :=
  requireSame_ok

theorem requireInt_error {ty : Ty} {loc : Loc} {e : SemanticError} :
    ty.requireInt loc = .error e ↔ ty ≠ .int ∧ e = ⟨.typeInconsistency .int ty, none, loc⟩ :=
  requireSame_error

theorem requireBasic_ok {ty : Ty} {loc : Loc} {u : Unit} :
    ty.requireBasic loc = .ok u ↔ ty.isBasic = true := by
  unfold requireBasic
  split <;> simp_all

theorem requireArray_ok {ty element : Ty} {loc : Loc} :
    ty.requireArray loc = .ok element ↔ ∃ size, ty = .array size element := by
  cases ty <;> simp [requireArray, element?]

section Places

variable {ty expected found : Ty} {loc loc' : Loc} {u : Unit}

theorem requireSame_at (h : requireSame expected found loc = .ok u) :
    requireSame expected found loc' = .ok u :=
  requireSame_ok.mpr (requireSame_ok.mp h)

theorem requireInt_at (h : ty.requireInt loc = .ok u) : ty.requireInt loc' = .ok u :=
  requireSame_at h

theorem requireBasic_at (h : ty.requireBasic loc = .ok u) : ty.requireBasic loc' = .ok u :=
  requireBasic_ok.mpr (requireBasic_ok.mp h)

end Places

end Ty

end Kpl
