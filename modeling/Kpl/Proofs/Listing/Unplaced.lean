import Kpl.Proofs.Listing.Lines

namespace Kpl

def Object.unplaced (o : Object) : Object := { o with loc := none }

/-- The table with nothing left out but where its objects were declared. -/
def Table.unplaced (t : Table) : Table := { t with objects := t.objects.map Object.unplaced }

namespace Table

variable (t : Table)

theorem object?_unplaced (id : ObjectId) :
    t.unplaced.object? id = (t.object? id).map Object.unplaced := by
  simp [object?, unplaced]

theorem meaning?_unplaced (id : ObjectId) : t.unplaced.meaning? id = t.meaning? id := by
  rw [meaning?, object?_unplaced, Option.map_map]
  rfl

theorem walk_unplaced (levels depth : Nat) (id : ObjectId) :
    t.unplaced.walk levels depth id = t.walk levels depth id := by
  induction levels generalizing depth id with
  | zero => rfl
  | succ levels ih =>
    have below : t.unplaced.walk levels (depth + 1) = t.walk levels (depth + 1) := funext (ih _)
    rw [walk, walk, meaning?_unplaced, below]
    rfl

theorem entryText_unplaced : t.unplaced.entryText = t.entryText := by
  funext entry
  rw [entryText, entryText, object?_unplaced]
  cases t.object? entry.2 <;> rfl

theorem render_unplaced : t.unplaced.render = t.render := by
  have outlines (id : ObjectId) : t.unplaced.outline id = t.outline id :=
    t.walk_unplaced (t.scopes.size + 1) 0 id
  have objects (id : ObjectId) : t.unplaced.renderObject id 0 = t.renderObject id 0 := by
    rw [renderObject_eq, renderObject_eq, outlines, entryText_unplaced]
  have program : t.unplaced.program = t.program := rfl
  rw [render, render, program]
  cases t.program with
  | none => rfl
  | some id => exact objects id

end Table

namespace Header

theorem params_unplaced (header : Header) :
    header.unplaced.params = header.params.map fun p => { p with loc := .start } := by
  cases header <;> rfl

@[simp] theorem length_unplaced (header : Header) :
    header.unplaced.params.length = header.params.length := by
  simp [params_unplaced]

@[simp] theorem ids_unplaced (n : Nat) (header : Header) : header.unplaced.ids n = header.ids n := by
  simp [ids]

@[simp] theorem meaning_unplaced (ids : List ObjectId) (scope : ScopeId) (header : Header) :
    header.unplaced.meaning ids scope = header.meaning ids scope := by
  cases header <;> rfl

theorem objects_unplaced (routine : ObjectId) (header : Header) :
    (header.unplaced.objects routine).map Object.unplaced =
      (header.objects routine).map Object.unplaced := by
  simp [objects, params_unplaced, Object.unplaced, Function.comp_def]

end Header

namespace Contents

@[simp] theorem objectCount_unplaced (contents : Contents) :
    contents.unplaced.objectCount = contents.objectCount := by
  induction contents with
  | nil => rfl
  | plain name loc what rest ih => simp only [unplaced, objectCount, ih]
  | routine name loc header inside rest insideCount restCount =>
    simp only [unplaced, objectCount, Header.length_unplaced, insideCount, restCount]

@[simp] theorem scopeCount_unplaced (contents : Contents) :
    contents.unplaced.scopeCount = contents.scopeCount := by
  induction contents with
  | nil => rfl
  | plain name loc what rest ih => simp only [unplaced, scopeCount, ih]
  | routine name loc header inside rest insideCount restCount =>
    simp only [unplaced, scopeCount, insideCount, restCount]

theorem ids_unplaced (n : Nat) (contents : Contents) : contents.unplaced.ids n = contents.ids n := by
  induction contents generalizing n with
  | nil => rfl
  | plain name loc what rest ih => simp only [unplaced, ids, ih]
  | routine name loc header inside rest _ ih =>
    simp only [unplaced, ids, ih, Header.length_unplaced, objectCount_unplaced]

theorem scopes_unplaced (n m : Nat) (around : ScopeId) (contents : Contents) :
    contents.unplaced.scopes n m around = contents.scopes n m around := by
  induction contents generalizing n m around with
  | nil => rfl
  | plain name loc what rest ih => simp only [unplaced, scopes, ih]
  | routine name loc header inside rest insideScopes restScopes =>
    simp only [unplaced, scopes, insideScopes, restScopes, ids_unplaced, Header.ids_unplaced,
      Header.length_unplaced, objectCount_unplaced, scopeCount_unplaced]

theorem objects_unplaced (n m : Nat) (contents : Contents) :
    (contents.unplaced.objects n m).map Object.unplaced =
      (contents.objects n m).map Object.unplaced := by
  induction contents generalizing n m with
  | nil => rfl
  | plain name loc what rest ih =>
    simp only [unplaced, objects, List.map_cons, ih]
    rfl
  | routine name loc header inside rest insideObjects restObjects =>
    simp only [unplaced, objects, List.map_cons, List.map_append, insideObjects, restObjects,
      Header.objects_unplaced, Header.ids_unplaced, Header.meaning_unplaced, Header.length_unplaced,
      objectCount_unplaced, scopeCount_unplaced]
    rfl

end Contents

theorem Table.plant_unplaced (t : Table) (root : Root) :
    (t.plant root.unplaced).unplaced = (t.plant root).unplaced := by
  simp [unplaced, plant, withProgram, extend, Root.unplaced, Contents.ids_unplaced,
    Contents.scopes_unplaced, Contents.objects_unplaced, Object.unplaced]

end Kpl
