import Kpl.Proofs.Contents.Outline

namespace Kpl

namespace Table

variable {t : Table}

@[simp] theorem plant_builtins (t : Table) (root : Root) : (t.plant root).builtins = t.builtins := rfl

@[simp] theorem plant_program (t : Table) (root : Root) :
    (t.plant root).program = some t.nextObject := rfl

theorem plant_objects_size (t : Table) (root : Root) :
    (t.plant root).objects.size = t.objects.size + 1 + root.contents.objectCount := by
  rw [plant, extend_objects_size, withProgram_objects_size]

theorem plant_scopes_size (t : Table) (root : Root) :
    (t.plant root).scopes.size = t.scopes.size + 1 + root.contents.scopeCount := by
  rw [plant, extend_scopes_size, withProgram_scopes_size]

section Plant

variable (root : Root)

theorem object?_plant_of_lt {id : ObjectId} (h : id.index < t.objects.size) :
    (t.plant root).object? id = t.object? id := by
  have old : id.index < (t.withProgram root.name root.loc).objects.size := by
    rw [withProgram_objects_size]
    exact Nat.lt_succ_of_lt h
  rw [plant, object?_extend_of_lt _ old, object?_withProgram_of_lt _ _ h]

theorem scope?_plant_of_lt {id : ScopeId} (h : id.index < t.scopes.size) :
    (t.plant root).scope? id = t.scope? id := by
  have old : id.index < (t.withProgram root.name root.loc).scopes.size := by
    rw [withProgram_scopes_size]
    exact Nat.lt_succ_of_lt h
  have older : id ≠ t.nextScope := by
    rintro rfl
    exact Nat.lt_irrefl _ h
  rw [plant, scope?_extend_of_ne _ old older, scope?_withProgram_of_lt _ _ h]

theorem object?_plant :
    (t.plant root).object? t.nextObject = some ⟨root.name, some root.loc, .program t.nextScope⟩ := by
  have old : t.nextObject.index < (t.withProgram root.name root.loc).objects.size := by
    simp [withProgram, nextObject]
  rw [plant, object?_extend_of_lt _ old, object?_withProgram]

theorem scope?_plant :
    (t.plant root).scope? t.nextScope =
      some ⟨some t.nextObject, none, root.contents.ids (t.objects.size + 1)⟩ := by
  have own := scope?_extend_same root.contents (scope?_withProgram (t := t) root.name root.loc)
  rw [plant, own]
  simp [withProgram]

theorem holds_plant :
    (t.plant root).Holds (t.objects.size + 1) (t.scopes.size + 1) t.nextScope root.contents := by
  constructor
  · intro i o found
    rw [← withProgram_objects_size t root.name root.loc,
      ← withProgram_scopes_size t root.name root.loc] at found
    rw [objectAt, plant, ← withProgram_objects_size t root.name root.loc, object?_extend_add, found]
  · intro j s found
    rw [← withProgram_objects_size t root.name root.loc,
      ← withProgram_scopes_size t root.name root.loc] at found
    rw [scopeAt, plant, ← withProgram_scopes_size t root.name root.loc, scope?_extend_add, found]

theorem namesIn_root (valid : t.Valid) :
    (t.withProgram root.name root.loc).namesIn t.nextScope = [] := by
  have missing : t.scope? t.nextScope = none := scope?_eq_none (Nat.le_refl _)
  rw [namesIn_withProgram _ _ valid, namesIn, objectsIn, missing]
  rfl

theorem Linked.plant (linked : t.Linked) (valid : t.Valid) (fresh : root.contents.Fresh []) :
    (t.plant root).Linked := by
  refine (linked.withProgram root.name root.loc valid).extend (valid.withProgram _ _) root.contents
    ?_ (namesIn_root root valid ▸ fresh)
  rw [withProgram_scopes_size]
  exact Nat.lt_succ_self _

theorem Valid.plant (valid : t.Valid) (fresh : root.contents.Fresh []) : (t.plant root).Valid := by
  refine (valid.withProgram root.name root.loc).extend root.contents ?_
    (namesIn_root root valid ▸ fresh)
  rw [withProgram_scopes_size]
  exact Nat.lt_succ_self _

end Plant

/-- The programs stand in the table one after the other, from the given numbers to its end. -/
def Laid (t : Table) : Nat → Nat → List Root → Prop
  | n, m, [] => t.objects.size = n ∧ t.scopes.size = m
  | n, m, root :: roots =>
    t.object? ⟨n⟩ = some ⟨root.name, some root.loc, .program ⟨m⟩⟩ ∧
      t.scope? ⟨m⟩ = some ⟨some ⟨n⟩, none, root.contents.ids (n + 1)⟩ ∧
      t.Holds (n + 1) (m + 1) ⟨m⟩ root.contents ∧
      t.Laid (n + 1 + root.contents.objectCount) (m + 1 + root.contents.scopeCount) roots

theorem Laid.bounds {n m : Nat} {roots : List Root} (laid : t.Laid n m roots) :
    n ≤ t.objects.size ∧ m ≤ t.scopes.size := by
  induction roots generalizing n m with
  | nil => exact ⟨Nat.le_of_eq laid.1.symm, Nat.le_of_eq laid.2.symm⟩
  | cons root roots ih =>
    have rest := ih laid.2.2.2
    omega

theorem Holds.plant {n m : Nat} {scope : ScopeId} {contents : Contents}
    (holds : t.Holds n m scope contents) (root : Root) :
    (t.plant root).Holds n m scope contents where
  objects i o found := by
    have before := holds.objects i o found
    rw [objectAt, object?_plant_of_lt root (object?_lt before)]
    exact before
  scopes j s found := by
    have before := holds.scopes j s found
    rw [scopeAt, scope?_plant_of_lt root (scope?_lt before)]
    exact before

theorem Laid.plant {n m : Nat} {roots : List Root} (laid : t.Laid n m roots) (root : Root) :
    (t.plant root).Laid n m (roots ++ [root]) := by
  induction roots generalizing n m with
  | nil =>
    obtain ⟨rfl, rfl⟩ := laid
    exact ⟨object?_plant root, scope?_plant root, holds_plant root, plant_objects_size t root,
      plant_scopes_size t root⟩
  | cons first roots ih =>
    obtain ⟨object, scope, holds, rest⟩ := laid
    refine ⟨?_, ?_, holds.plant root, ih rest⟩
    · rw [object?_plant_of_lt root (object?_lt object), object]
    · rw [scope?_plant_of_lt root (scope?_lt scope), scope]

def isProgram (t : Table) (id : ObjectId) : Bool :=
  ((t.meaning? id).map (·.isProgram)).getD false

def programsFrom (t : Table) (n count : Nat) : List ObjectId :=
  ((List.range' n count).map ObjectId.mk).filter t.isProgram

def programs (t : Table) : List ObjectId := t.programsFrom 0 t.objects.size

theorem programsFrom_add (t : Table) (n a b : Nat) :
    t.programsFrom n (a + b) = t.programsFrom n a ++ t.programsFrom (n + a) b := by
  rw [programsFrom, ← List.range'_append_1, List.map_append, List.filter_append, programsFrom,
    programsFrom]

theorem programsFrom_nil {n count : Nat}
    (none : ∀ i, i < count → t.isProgram ⟨n + i⟩ = false) : t.programsFrom n count = [] := by
  rw [programsFrom, List.filter_eq_nil_iff]
  intro id member
  obtain ⟨i, inside, rfl⟩ := List.mem_map.mp member
  obtain ⟨j, bound, rfl⟩ := List.mem_range'.mp inside
  simp [none j bound]

theorem Holds.programsFrom {n m : Nat} {scope : ScopeId} {contents : Contents}
    (holds : t.Holds n m scope contents) : t.programsFrom n contents.objectCount = [] := by
  refine programsFrom_nil fun i inside => ?_
  have within : i < (contents.objects n m).length := by rwa [Contents.length_objects]
  have found := holds.objects i _ (List.getElem?_eq_getElem within)
  have sort := Contents.objects_sort (List.getElem_mem within)
  rw [objectAt] at found
  simp [isProgram, meaning?, found, sort]

theorem preorder_root {n m : Nat} {root : Root} {roots : List Root}
    (laid : t.Laid n m (root :: roots)) :
    t.preorder ⟨n⟩ = (List.range' n (1 + root.contents.objectCount)).map ObjectId.mk := by
  obtain ⟨object, scope, holds, rest⟩ := laid
  have bounds := rest.bounds
  rw [preorder, outline, walk_owner object rfl, objectsIn_of_scope scope, holds.walk (by omega),
    List.map_cons, Contents.outline_ids, range'_one_add, List.map_cons]

theorem Laid.preorders {n m : Nat} {roots : List Root} (laid : t.Laid n m roots) :
    (t.programsFrom n (t.objects.size - n)).flatMap t.preorder =
      (List.range' n (t.objects.size - n)).map ObjectId.mk := by
  induction roots generalizing n m with
  | nil =>
    rw [laid.1, Nat.sub_self]
    rfl
  | cons root roots ih =>
    have walk := preorder_root laid
    obtain ⟨object, scope, holds, rest⟩ := laid
    have bounds := rest.bounds
    have split : t.objects.size - n = 1 + root.contents.objectCount +
        (t.objects.size - (n + 1 + root.contents.objectCount)) := by omega
    have one : t.programsFrom n 1 = [⟨n⟩] := by
      simp [Table.programsFrom, isProgram, meaning?, object, Meaning.isProgram]
    rw [split, programsFrom_add, programsFrom_add, one, holds.programsFrom, List.append_nil,
      List.flatMap_append, List.flatMap_singleton, walk, ← Nat.add_assoc, ih rest,
      ← List.map_append, Nat.add_assoc n, List.range'_append_1]

theorem meaning?_owned (t : Table) (id : ObjectId) :
    t.meaning? id >>= (·.ownedScope?) = t.object? id >>= (·.meaning.ownedScope?) := by
  cases found : t.object? id <;> simp [meaning?, found]

theorem Laid.scopes {n m : Nat} {roots : List Root} (laid : t.Laid n m roots) :
    (List.range' n (t.objects.size - n)).filterMap
        (fun i => t.meaning? ⟨i⟩ >>= (·.ownedScope?)) =
      (List.range' m (t.scopes.size - m)).map ScopeId.mk := by
  induction roots generalizing n m with
  | nil =>
    rw [laid.1, laid.2, Nat.sub_self, Nat.sub_self]
    rfl
  | cons root roots ih =>
    obtain ⟨object, scope, holds, rest⟩ := laid
    have bounds := rest.bounds
    have objects : t.objects.size - n = 1 + (root.contents.objectCount +
        (t.objects.size - (n + 1 + root.contents.objectCount))) := by omega
    have scopes : t.scopes.size - m = 1 + (root.contents.scopeCount +
        (t.scopes.size - (m + 1 + root.contents.scopeCount))) := by omega
    have own : t.meaning? ⟨n⟩ >>= (·.ownedScope?) = some ⟨m⟩ := by
      simp [meaning?, object, Meaning.ownedScope?]
    have inside := holds.objects.filterMap fun o => o.meaning.ownedScope?
    rw [Contents.length_objects, Contents.objects_scopes] at inside
    simp only [objectAt, ← meaning?_owned] at inside
    rw [objects, scopes, range'_one_add, range'_one_add, List.filterMap_cons, own,
      ← List.range'_append_1, List.filterMap_append, inside, ih rest, ← List.range'_append_1,
      List.map_cons, List.map_append]

end Table

end Kpl
