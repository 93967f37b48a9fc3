import Kpl.Proofs.Contents.Program

namespace Kpl

namespace Table

structure Extends (t base : Table) : Prop where
  objects : base.objects.size ≤ t.objects.size
  scopes : base.scopes.size ≤ t.scopes.size
  object {id : ObjectId} : id.index < base.objects.size → t.object? id = base.object? id
  scope {id : ScopeId} : id.index < base.scopes.size → t.scope? id = base.scope? id
  builtins : t.builtins = base.builtins

variable {t u base : Table}

theorem Extends.refl (t : Table) : t.Extends t :=
  ⟨Nat.le_refl _, Nat.le_refl _, fun _ => rfl, fun _ => rfl, rfl⟩

theorem Extends.trans (h : u.Extends t) (g : t.Extends base) : u.Extends base where
  objects := Nat.le_trans g.objects h.objects
  scopes := Nat.le_trans g.scopes h.scopes
  object lt := (h.object (Nat.lt_of_lt_of_le lt g.objects)).trans (g.object lt)
  scope lt := (h.scope (Nat.lt_of_lt_of_le lt g.scopes)).trans (g.scope lt)
  builtins := h.builtins.trans g.builtins

theorem object?_addObject (o : Object) (id : ObjectId) :
    (t.addObject o).object? id = if id.index = t.objects.size then some o else t.object? id := by
  simp [object?, addObject, Array.getElem?_push]

theorem scope?_addScope (s : Scope) (id : ScopeId) :
    (t.addScope s).scope? id = if id.index = t.scopes.size then some s else t.scope? id := by
  simp [scope?, addScope, Array.getElem?_push]

theorem object?_modifyMeaning (i : ObjectId) (f : Meaning → Meaning) (id : ObjectId) :
    (t.modifyMeaning i f).object? id =
      if i.index = id.index then (t.object? id).map fun o => { o with meaning := f o.meaning }
      else t.object? id := by
  simp [object?, modifyMeaning, Array.getElem?_modify]

theorem scope?_modifyScope (x : ScopeId) (f : Scope → Scope) (id : ScopeId) :
    (t.modifyScope x f).scope? id =
      if x.index = id.index then (t.scope? id).map f else t.scope? id := by
  simp [scope?, modifyScope, Array.getElem?_modify]

theorem declareIn_current (scope : ScopeId) (o : Object) :
    (t.declareIn scope o).2.current = t.current := by
  obtain ⟨_, _, meaning⟩ := o
  cases meaning <;> rfl

theorem declareIn_program (scope : ScopeId) (o : Object) :
    (t.declareIn scope o).2.program = t.program := by
  obtain ⟨_, _, meaning⟩ := o
  cases meaning <;> rfl

theorem Extends.addObject (h : t.Extends base) (o : Object) : (t.addObject o).Extends base where
  objects := by simpa [Table.addObject] using Nat.le_succ_of_le h.objects
  scopes := h.scopes
  object lt := by
    rw [object?_addObject, if_neg (Nat.ne_of_lt (Nat.lt_of_lt_of_le lt h.objects))]
    exact h.object lt
  scope := h.scope
  builtins := h.builtins

theorem Extends.moved (h : t.Extends base) (current : Option ScopeId)
    (program : Option ObjectId) : { t with current, program }.Extends base :=
  ⟨h.objects, h.scopes, h.object, h.scope, h.builtins⟩

theorem Extends.addScope (h : t.Extends base) (s : Scope) : (t.addScope s).Extends base where
  objects := h.objects
  scopes := by simpa [Table.addScope] using Nat.le_succ_of_le h.scopes
  object := h.object
  scope lt := by
    rw [scope?_addScope, if_neg (Nat.ne_of_lt (Nat.lt_of_lt_of_le lt h.scopes))]
    exact h.scope lt
  builtins := h.builtins

theorem Extends.modifyMeaning (h : t.Extends base) {i : ObjectId} (f : Meaning → Meaning)
    (later : base.objects.size ≤ i.index) : (t.modifyMeaning i f).Extends base where
  objects := by simpa [Table.modifyMeaning] using h.objects
  scopes := h.scopes
  object lt := by
    rw [object?_modifyMeaning, if_neg (Nat.ne_of_gt (Nat.lt_of_lt_of_le lt later))]
    exact h.object lt
  scope := h.scope
  builtins := h.builtins

theorem Extends.modifyScope (h : t.Extends base) {x : ScopeId} (f : Scope → Scope)
    (later : base.scopes.size ≤ x.index) : (t.modifyScope x f).Extends base where
  objects := h.objects
  scopes := by simpa [Table.modifyScope] using h.scopes
  object := h.object
  scope lt := by
    rw [scope?_modifyScope, if_neg (Nat.ne_of_gt (Nat.lt_of_lt_of_le lt later))]
    exact h.scope lt
  builtins := h.builtins

end Table

end Kpl
