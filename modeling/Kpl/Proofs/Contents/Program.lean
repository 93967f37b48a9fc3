import Kpl.Proofs.Contents.Extend

namespace Kpl

namespace Table

variable {t : Table}

def moved (t : Table) (current : Option ScopeId) : Table := { t with current }

def withProgram (t : Table) (name : String) (loc : Loc) : Table :=
  { t with
    objects := t.objects.push ⟨name, some loc, .program t.nextScope⟩
    scopes := t.scopes.push ⟨some t.nextObject, none, []⟩
    program := some t.nextObject }

@[simp] theorem withProgram_builtins (t : Table) (name : String) (loc : Loc) :
    (t.withProgram name loc).builtins = t.builtins := rfl

@[simp] theorem withProgram_objects_size (t : Table) (name : String) (loc : Loc) :
    (t.withProgram name loc).objects.size = t.objects.size + 1 := by
  simp [withProgram]

@[simp] theorem withProgram_scopes_size (t : Table) (name : String) (loc : Loc) :
    (t.withProgram name loc).scopes.size = t.scopes.size + 1 := by
  simp [withProgram]

/-- The table with a further program and all it declares. -/
def plant (t : Table) (root : Root) : Table :=
  (t.withProgram root.name root.loc).extend t.nextScope root.contents

theorem createProgram_eq (name : String) (loc : Loc) :
    t.createProgram name loc = (t.nextObject, t.withProgram name loc) := by
  simp [createProgram, createScope, addScope, addObject, setOwner, modifyScope, nextObject,
    nextScope, withProgram, modify_push_size]

section WithProgram

variable (name : String) (loc : Loc)

theorem object?_withProgram :
    (t.withProgram name loc).object? t.nextObject = some ⟨name, some loc, .program t.nextScope⟩ := by
  simp [object?, withProgram, nextObject]

theorem object?_withProgram_of_lt {id : ObjectId} (h : id.index < t.objects.size) :
    (t.withProgram name loc).object? id = t.object? id := by
  simp [object?, withProgram, Array.getElem?_push, Nat.ne_of_lt h]

theorem object?_withProgram_cases {id : ObjectId} {o : Object}
    (h : (t.withProgram name loc).object? id = some o) :
    t.object? id = some o ∨
      id = t.nextObject ∧ o = ⟨name, some loc, .program t.nextScope⟩ := by
  have known := object?_lt h
  by_cases old : id.index < t.objects.size
  · rw [object?_withProgram_of_lt name loc old] at h
    exact .inl h
  · obtain rfl : id = t.nextObject := by
      cases id
      simp only [withProgram, Array.size_push] at known old
      simp only [nextObject, ObjectId.mk.injEq]
      omega
    rw [object?_withProgram] at h
    exact .inr ⟨rfl, (Option.some.inj h).symm⟩

theorem scope?_withProgram :
    (t.withProgram name loc).scope? t.nextScope = some ⟨some t.nextObject, none, []⟩ := by
  simp [scope?, withProgram, nextScope]

theorem scope?_withProgram_of_lt {id : ScopeId} (h : id.index < t.scopes.size) :
    (t.withProgram name loc).scope? id = t.scope? id := by
  simp [scope?, withProgram, Array.getElem?_push, Nat.ne_of_lt h]

theorem scope?_withProgram_cases {id : ScopeId} {s : Scope}
    (h : (t.withProgram name loc).scope? id = some s) :
    t.scope? id = some s ∨ id = t.nextScope ∧ s = ⟨some t.nextObject, none, []⟩ := by
  have known := scope?_lt h
  by_cases old : id.index < t.scopes.size
  · rw [scope?_withProgram_of_lt name loc old] at h
    exact .inl h
  · obtain rfl : id = t.nextScope := by
      cases id
      simp only [withProgram, Array.size_push] at known old
      simp only [nextScope, ScopeId.mk.injEq]
      omega
    rw [scope?_withProgram] at h
    exact .inr ⟨rfl, (Option.some.inj h).symm⟩

theorem Valid.withProgram (valid : t.Valid) : (t.withProgram name loc).Valid where
  listed {id o} member := by
    obtain ⟨s, hs, member⟩ := mem_objectsIn.mp member
    rcases scope?_withProgram_cases name loc hs with old | ⟨_, rfl⟩
    · have bound := valid.listed (mem_objectsIn.mpr ⟨s, old, member⟩)
      simp only [Table.withProgram, Array.size_push]
      omega
    · cases member
  params {id p} member := by
    obtain ⟨o, ho, member⟩ := mem_params.mp member
    rcases object?_withProgram_cases name loc ho with old | ⟨_, rfl⟩
    · have bound := valid.params (mem_params.mpr ⟨o, old, member⟩)
      simp only [Table.withProgram, Array.size_push]
      omega
    · cases member
  outer {id outer} around := by
    obtain ⟨s, hs, around⟩ := outer?_eq_some.mp around
    rcases scope?_withProgram_cases name loc hs with old | ⟨_, rfl⟩
    · exact valid.outer (outer?_eq_some.mpr ⟨s, old, around⟩)
    · cases around

theorem Valid.moved (valid : t.Valid) (current : Option ScopeId) : (t.moved current).Valid :=
  ⟨valid.listed, valid.params, valid.outer⟩

end WithProgram

end Table

end Kpl
