import Kpl.Proofs.Contents.Initial
import Kpl.Proofs.Contents.Operations

/-!
The table as a data type of its own. A client makes programs and scopes, makes objects and
declares them, any of them any number of times, and enters and leaves scopes as it likes; nothing
ties it to the order in which a program is read. An object of the table changes in two ways only:
parameters join a routine, and the return type of a function is set.
-/

namespace Kpl

namespace Meaning

def routine? : Meaning → Option ObjectId
  | param _ _ routine => some routine
  | _ => none

/-- What a call may make of a meaning: a parameter joins a routine, or a return type is set. -/
inductive Grows : Meaning → Meaning → Prop where
  | same (m : Meaning) : Grows m m
  | function (params : List ObjectId) (returns : Option Ty) (scope : ScopeId) (id : ObjectId) :
    Grows (.function params returns scope) (.function (params ++ [id]) returns scope)
  | procedure (params : List ObjectId) (scope : ScopeId) (id : ObjectId) :
    Grows (.procedure params scope) (.procedure (params ++ [id]) scope)
  | returns (params : List ObjectId) (returns : Option Ty) (scope : ScopeId) (ty : Ty) :
    Grows (.function params returns scope) (.function params (some ty) scope)

theorem grows_addParam (m : Meaning) (id : ObjectId) : m.Grows (m.addParam id) := by
  cases m with
  | function => exact .function ..
  | procedure => exact .procedure ..
  | _ => exact .same _

theorem grows_setReturns (m : Meaning) (ty : Ty) : m.Grows (m.setReturns ty) := by
  cases m with
  | function => exact .returns ..
  | _ => exact .same _

end Meaning

/-- A table in use, and the objects that have been made to be declared in it. -/
structure Arena where
  table : Table
  drafts : List Object

namespace Arena

/-- The calls of a client. Handles are numbers of objects and scopes that exist. A call that fails
    changes nothing, and is left out. -/
inductive Step : Arena → Arena → Prop where
  | program {t : Table} {drafts : List Object} (name : String) (loc : Loc) :
    Step ⟨t, drafts⟩ ⟨(t.createProgram name loc).2, drafts⟩
  | scope {t : Table} {drafts : List Object} (owner : Option ObjectId) (outer : Option ScopeId) :
    (∀ id ∈ owner, id.index < t.objects.size) → (∀ x ∈ outer, x.index < t.scopes.size) →
      Step ⟨t, drafts⟩ ⟨(t.createScope owner outer).2, drafts⟩
  | plain {t : Table} {drafts : List Object} (name : String) (loc : Loc) (what : Plain) :
    Step ⟨t, drafts⟩ ⟨t, ⟨name, some loc, what.meaning⟩ :: drafts⟩
  | function {t : Table} {drafts : List Object} (name : String) (loc : Loc) :
    Step ⟨t, drafts⟩ ⟨(t.createFunction name loc).2, (t.createFunction name loc).1 :: drafts⟩
  | procedure {t : Table} {drafts : List Object} (name : String) (loc : Loc) :
    Step ⟨t, drafts⟩ ⟨(t.createProcedure name loc).2, (t.createProcedure name loc).1 :: drafts⟩
  | param {t : Table} {drafts : List Object} {draft : Object} (name : String) (mode : PassMode)
    (ty : Ty) (loc : Loc) : t.createParam name mode ty loc = .ok draft →
      Step ⟨t, drafts⟩ ⟨t, draft :: drafts⟩
  /-- A parameter that is made directly, of a routine or of any other object. -/
  | paramOf {t : Table} {drafts : List Object} (name : String) (loc : Option Loc) (mode : PassMode)
    (ty : Ty) (routine : ObjectId) : routine.index < t.objects.size →
      Step ⟨t, drafts⟩ ⟨t, ⟨name, loc, .param mode ty routine⟩ :: drafts⟩
  | declare {t u : Table} {drafts : List Object} {draft : Object} {id : ObjectId} :
    draft ∈ drafts → t.declare draft = .ok (id, u) → Step ⟨t, drafts⟩ ⟨u, drafts⟩
  | setReturns {t : Table} {drafts : List Object} (id : ObjectId) (ty : Ty) :
    id.index < t.objects.size → Step ⟨t, drafts⟩ ⟨t.setReturns id ty, drafts⟩
  | enter {t : Table} {drafts : List Object} (scope : ScopeId) : scope.index < t.scopes.size →
    Step ⟨t, drafts⟩ ⟨t.enter scope, drafts⟩
  | exit {t u : Table} {drafts : List Object} : t.exit = .ok u → Step ⟨t, drafts⟩ ⟨u, drafts⟩

inductive Reached : Arena → Prop where
  | initial : Reached ⟨.initial, []⟩
  | step {a b : Arena} : Reached a → Step a b → Reached b

end Arena

namespace Table

variable {t u : Table}

section DeclareIn

variable (scope : ScopeId) {o : Object}

@[simp] theorem declareIn_objects_size :
    (t.declareIn scope o).2.objects.size = t.objects.size + 1 := by
  obtain ⟨_, _, meaning⟩ := o
  cases meaning <;> simp [declareIn, addObject, modifyScope, modifyMeaning, setOwner,
    Meaning.ownedScope?]

@[simp] theorem declareIn_scopes_size :
    (t.declareIn scope o).2.scopes.size = t.scopes.size := by
  obtain ⟨_, _, meaning⟩ := o
  cases meaning <;> simp [declareIn, addObject, modifyScope, modifyMeaning, setOwner,
    Meaning.ownedScope?]

theorem declareIn_builtins : (t.declareIn scope o).2.builtins = t.builtins := by
  obtain ⟨_, _, meaning⟩ := o
  cases meaning <;> rfl

theorem object?_declareIn (id : ObjectId) : (t.declareIn scope o).2.object? id =
    if o.meaning.routine? = some id then
      ((t.addObject o).object? id).map fun p =>
        { p with meaning := p.meaning.addParam t.nextObject }
    else (t.addObject o).object? id := by
  obtain ⟨name, loc, meaning⟩ := o
  cases meaning with
  | param mode ty routine =>
    have joined := object?_modifyMeaning (t := t.addObject ⟨name, loc, .param mode ty routine⟩)
      routine (·.addParam t.nextObject) id
    have same : routine.index = id.index ↔ some routine = some id := by
      cases routine
      cases id
      simp
    simp only [same] at joined
    exact joined
  | _ => exact (if_neg nofun).symm

theorem object?_declareIn_next (known : ∀ r ∈ o.meaning.routine?, r.index < t.objects.size) :
    (t.declareIn scope o).2.object? t.nextObject = some o := by
  have other : o.meaning.routine? ≠ some t.nextObject :=
    fun same => Nat.lt_irrefl _ (known _ same)
  rw [object?_declareIn, if_neg other, object?_addObject]
  exact if_pos rfl

theorem object?_declareIn_cases (known : ∀ r ∈ o.meaning.routine?, r.index < t.objects.size)
    {id : ObjectId} {p : Object} (h : (t.declareIn scope o).2.object? id = some p) :
    id = t.nextObject ∧ p = o ∨ ∃ before, t.object? id = some before ∧
      p = { before with meaning :=
        if o.meaning.routine? = some id then before.meaning.addParam t.nextObject
        else before.meaning } := by
  by_cases new : id.index = t.objects.size
  · obtain rfl : id = t.nextObject := by
      cases id
      cases new
      rfl
    rw [object?_declareIn_next scope known] at h
    exact .inl ⟨rfl, (Option.some.inj h).symm⟩
  · rw [object?_declareIn, object?_addObject, if_neg new] at h
    refine .inr ?_
    split at h
    · obtain ⟨before, found, rfl⟩ := Option.map_eq_some_iff.mp h
      exact ⟨before, found, by rw [if_pos ‹_›]⟩
    · exact ⟨p, h, by rw [if_neg ‹_›]⟩

theorem scope?_declareIn (x : ScopeId) :
    (t.declareIn scope o).2.scope? x = ((t.scope? x).map fun before =>
      if scope = x then { before with objects := before.objects ++ [t.nextObject] }
      else before).map fun before =>
        if o.meaning.ownedScope? = some x then { before with owner := some t.nextObject }
        else before := by
  have same (y : ScopeId) : y.index = x.index ↔ y = x := by
    cases x
    cases y
    simp
  have modified (u : Table) (y : ScopeId) (f : Scope → Scope) :
      (u.modifyScope y f).scope? x = (u.scope? x).map fun s => if y = x then f s else s := by
    rw [scope?_modifyScope]
    simp only [same]
    split <;> simp
  rw [← modified]
  obtain ⟨name, loc, meaning⟩ := o
  cases meaning with
  | program inner | function _ _ inner | procedure _ inner =>
    simp only [Meaning.ownedScope?, Option.some.injEq]
    exact modified _ inner _
  | _ =>
    simp only [Meaning.ownedScope?, reduceCtorEq, if_false, Option.map_id']
    rfl

theorem scope?_declareIn_cases {x : ScopeId} {s : Scope}
    (h : (t.declareIn scope o).2.scope? x = some s) : ∃ before, t.scope? x = some before ∧
      s.outer = before.outer ∧ (s.owner = before.owner ∨ s.owner = some t.nextObject) ∧
      s.objects = if scope = x then before.objects ++ [t.nextObject] else before.objects := by
  rw [scope?_declareIn, Option.map_map, Option.map_eq_some_iff] at h
  obtain ⟨before, found, rfl⟩ := h
  refine ⟨before, found, ?_⟩
  dsimp only [Function.comp]
  split <;> split <;> simp

theorem mem_objectsIn_declareIn {x : ScopeId} {id : ObjectId}
    (h : id ∈ (t.declareIn scope o).2.objectsIn x) :
    id ∈ t.objectsIn x ∨ x = scope ∧ id = t.nextObject := by
  obtain ⟨s, found, member⟩ := mem_objectsIn.mp h
  obtain ⟨before, known, _, _, objects⟩ := scope?_declareIn_cases scope found
  rw [objects] at member
  split at member
  · rename_i here
    rcases List.mem_append.mp member with old | new
    · exact .inl (mem_objectsIn.mpr ⟨before, known, old⟩)
    · exact .inr ⟨here.symm, List.mem_singleton.mp new⟩
  · exact .inl (mem_objectsIn.mpr ⟨before, known, member⟩)

end DeclareIn

theorem declare_eq_ok {o : Object} {id : ObjectId} (h : t.declare o = .ok (id, u)) :
    ∃ scope, t.current = some scope ∧ u = (t.declareIn scope o).2 := by
  rw [declare] at h
  split at h
  · exact ⟨_, ‹_›, (congrArg Prod.snd (Except.ok.inj h)).symm⟩
  · cases h

theorem exit_eq_ok (h : t.exit = .ok u) :
    ∃ scope, t.current = some scope ∧ u = t.moved (t.outer? scope) := by
  rw [exit] at h
  split at h
  · exact ⟨_, ‹_›, (Except.ok.inj h).symm⟩
  · cases h

/-- The objects of a table are still there, with their names and places, and with meanings that
    at most grew. -/
def GrowsTo (t u : Table) : Prop := ∀ {id : ObjectId} {o : Object}, t.object? id = some o →
  ∃ m, u.object? id = some { o with meaning := m } ∧ o.meaning.Grows m

theorem growsTo_of_same (same : ∀ {id o}, t.object? id = some o → u.object? id = some o) :
    t.GrowsTo u := fun found => ⟨_, same found, .same _⟩

theorem growsTo_declareIn (scope : ScopeId) (o : Object) : t.GrowsTo (t.declareIn scope o).2 := by
  intro id p found
  rw [object?_declareIn, object?_addObject, if_neg (Nat.ne_of_lt (object?_lt found)), found]
  split
  · exact ⟨_, rfl, p.meaning.grows_addParam _⟩
  · exact ⟨_, rfl, .same _⟩

theorem growsTo_setReturns (id : ObjectId) (ty : Ty) : t.GrowsTo (t.setReturns id ty) := by
  intro i p found
  rw [setReturns, object?_modifyMeaning, found]
  split
  · exact ⟨_, rfl, p.meaning.grows_setReturns ty⟩
  · exact ⟨_, rfl, .same _⟩

end Table

theorem Arena.Step.growsTo {a b : Arena} (h : Step a b) : a.table.GrowsTo b.table := by
  cases h with
  | program name loc =>
    refine Table.growsTo_of_same fun found => ?_
    rw [Table.createProgram_eq, Table.object?_withProgram_of_lt name loc (Table.object?_lt found)]
    exact found
  | declare _ declared =>
    obtain ⟨scope, _, rfl⟩ := Table.declare_eq_ok declared
    exact Table.growsTo_declareIn scope _
  | setReturns id ty _ => exact Table.growsTo_setReturns id ty
  | exit left =>
    obtain ⟨scope, _, rfl⟩ := Table.exit_eq_ok left
    exact Table.growsTo_of_same id
  | _ => exact Table.growsTo_of_same id

end Kpl
