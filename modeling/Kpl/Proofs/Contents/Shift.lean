import Kpl.Proofs.Contents.Initial
import Kpl.Proofs.Contents.Operations

namespace Kpl

/-- The number of an object behind `n` others that are no builtins. -/
def ObjectId.shift (n : Nat) (id : ObjectId) : ObjectId :=
  if id.index < Table.initial.objects.size then id else ⟨id.index + n⟩

def ScopeId.shift (m : Nat) (id : ScopeId) : ScopeId :=
  if id.index < Table.initial.scopes.size then id else ⟨id.index + m⟩

def Meaning.shift (n m : Nat) : Meaning → Meaning
  | program scope => program (scope.shift m)
  | const value => const value
  | type actual => type actual
  | var ty => var ty
  | function params returns scope => function (params.map (·.shift n)) returns (scope.shift m)
  | procedure params scope => procedure (params.map (·.shift n)) (scope.shift m)
  | param mode ty routine => param mode ty (routine.shift n)

def Object.shift (n m : Nat) (o : Object) : Object := { o with meaning := o.meaning.shift n m }

def Scope.shift (n m : Nat) (s : Scope) : Scope where
  owner := s.owner.map (·.shift n)
  outer := s.outer.map (·.shift m)
  objects := s.objects.map (·.shift n)

@[simp] theorem ObjectId.shift_zero (id : ObjectId) : id.shift 0 = id := by
  unfold shift
  split <;> rfl

@[simp] theorem ScopeId.shift_zero (id : ScopeId) : id.shift 0 = id := by
  unfold shift
  split <;> rfl

@[simp] theorem Meaning.shift_zero (meaning : Meaning) : meaning.shift 0 0 = meaning := by
  cases meaning <;> simp [shift]

@[simp] theorem Scope.shift_zero (s : Scope) : s.shift 0 0 = s := by
  simp [shift]

theorem eq_append_map {α : Type} {xs ys zs : Array α} {n : Nat} {f : α → α}
    (old : ∀ i < xs.size, zs[i]? = xs[i]?) (new : ∀ i, zs[xs.size + i]? = ys[n + i]?.map f) :
    zs = xs ++ (ys.extract n).map f := by
  apply Array.ext_getElem?
  intro i
  by_cases lt : i < xs.size
  · rw [Array.getElem?_append_left lt, old i lt]
  · obtain ⟨j, rfl⟩ : ∃ j, i = xs.size + j := ⟨i - xs.size, by omega⟩
    rw [Array.getElem?_append_right (Nat.le_add_right _ _), new, Nat.add_sub_cancel_left,
      Array.getElem?_map, Array.getElem?_extract]
    split
    · rfl
    · rw [Array.getElem?_eq_none (by omega)]

namespace Table

def userObjects (t : Table) : Nat := t.objects.size - initial.objects.size

def userScopes (t : Table) : Nat := t.scopes.size - initial.scopes.size

/-- A table with everything that another one adds to the builtins, behind what it has itself. -/
def followedBy (t u : Table) : Table where
  objects := t.objects ++
    (u.objects.extract initial.objects.size).map (·.shift t.userObjects t.userScopes)
  scopes := t.scopes ++
    (u.scopes.extract initial.scopes.size).map (·.shift t.userObjects t.userScopes)
  current := u.current.map (·.shift t.userScopes)
  builtins := t.builtins
  program := u.program.map (·.shift t.userObjects)

end Table

end Kpl
