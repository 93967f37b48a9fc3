import Kpl.Proofs.Contents.Tree

/-!
Where a table keeps the contents of a scope. Objects are numbered from `n` and scopes from `m`, in
the order of the text, so a routine stands before its parameters and these before what its block
declares. `Table.extend` adds contents to one scope, and the operations of the table that
declarations use are small cases of it.
-/

namespace Kpl

theorem modify_append_of_lt {α : Type} (a b : Array α) (f : α → α) {i : Nat} (h : i < a.size) :
    (a ++ b).modify i f = a.modify i f ++ b := by
  apply Array.ext_getElem?
  intro j
  simp only [Array.getElem?_modify, Array.getElem?_append, Array.size_modify]
  by_cases hj : j < a.size
  · simp only [hj, if_true]
  · have ne : i ≠ j := by omega
    simp only [hj, if_false, ne]

theorem modify_push_of_lt {α : Type} (a : Array α) (f : α → α) (x : α) {i : Nat}
    (h : i < a.size) : (a.push x).modify i f = (a.modify i f).push x := by
  simpa only [Array.append_singleton] using modify_append_of_lt a #[x] f h

theorem modify_append_cons {α : Type} (a : Array α) (f : α → α) (x : α) (xs : List α) :
    (a ++ (x :: xs).toArray).modify a.size f = a ++ (f x :: xs).toArray := by
  apply Array.ext_getElem?
  intro j
  simp only [Array.getElem?_modify, Array.getElem?_append, List.getElem?_toArray]
  by_cases hj : j < a.size
  · have ne : a.size ≠ j := by omega
    simp only [hj, if_true, ne, if_false]
  · by_cases here : a.size = j
    · simp [here]
    · obtain ⟨i, hi⟩ : ∃ i, j - a.size = i + 1 := ⟨j - a.size - 1, by omega⟩
      simp [hj, here, hi]

theorem modify_push_size {α : Type} (a : Array α) (f : α → α) (x : α) :
    (a.push x).modify a.size f = a.push (f x) := by
  simpa using modify_append_cons a f x []

namespace Header

def ids (n : Nat) (header : Header) : List ObjectId :=
  (List.range' n header.params.length).map ObjectId.mk

def objects (routine : ObjectId) (header : Header) : List Object :=
  header.params.map fun p => ⟨p.name, some p.loc, .param p.mode p.ty routine⟩

@[simp] theorem length_ids (n : Nat) (header : Header) :
    (header.ids n).length = header.params.length := by
  simp [ids]

@[simp] theorem length_objects (routine : ObjectId) (header : Header) :
    (header.objects routine).length = header.params.length := by
  simp [objects]

theorem mem_ids {n : Nat} {header : Header} {id : ObjectId} :
    id ∈ header.ids n ↔ n ≤ id.index ∧ id.index < n + header.params.length := by
  obtain ⟨i⟩ := id
  simp [ids]

theorem ids_addParam (n : Nat) (header : Header) (param : Param) :
    (header.addParam param).ids n = header.ids n ++ [⟨n + header.params.length⟩] := by
  simp [ids, List.range'_concat]

theorem objects_addParam (routine : ObjectId) (header : Header) (param : Param) :
    (header.addParam param).objects routine =
      header.objects routine ++ [⟨param.name, some param.loc, .param param.mode param.ty routine⟩] := by
  simp [objects]

@[simp] theorem ids_setReturns (n : Nat) (header : Header) (ty : Ty) :
    (header.setReturns ty).ids n = header.ids n := by
  simp [ids]

@[simp] theorem objects_setReturns (routine : ObjectId) (header : Header) (ty : Ty) :
    (header.setReturns ty).objects routine = header.objects routine := by
  simp [objects]

end Header

namespace Contents

def objectCount : Contents → Nat
  | nil => 0
  | plain _ _ _ rest => 1 + rest.objectCount
  | routine _ _ header inside rest =>
    1 + header.params.length + inside.objectCount + rest.objectCount

def scopeCount : Contents → Nat
  | nil => 0
  | plain _ _ _ rest => rest.scopeCount
  | routine _ _ _ inside rest => 1 + inside.scopeCount + rest.scopeCount

def ids (n : Nat) : Contents → List ObjectId
  | nil => []
  | plain _ _ _ rest => ⟨n⟩ :: rest.ids (n + 1)
  | routine _ _ header inside rest =>
    ⟨n⟩ :: rest.ids (n + 1 + header.params.length + inside.objectCount)

def objects (n m : Nat) : Contents → List Object
  | nil => []
  | plain name loc what rest => ⟨name, some loc, what.meaning⟩ :: rest.objects (n + 1) m
  | routine name loc header inside rest =>
    ⟨name, some loc, header.meaning (header.ids (n + 1)) ⟨m⟩⟩ ::
      (header.objects ⟨n⟩ ++ (inside.objects (n + 1 + header.params.length) (m + 1) ++
        rest.objects (n + 1 + header.params.length + inside.objectCount)
          (m + 1 + inside.scopeCount)))

def scopes (n m : Nat) (around : ScopeId) : Contents → List Scope
  | nil => []
  | plain _ _ _ rest => rest.scopes (n + 1) m around
  | routine _ _ header inside rest =>
    ⟨some ⟨n⟩, some around, header.ids (n + 1) ++ inside.ids (n + 1 + header.params.length)⟩ ::
      (inside.scopes (n + 1 + header.params.length) (m + 1) ⟨m⟩ ++
        rest.scopes (n + 1 + header.params.length + inside.objectCount)
          (m + 1 + inside.scopeCount) around)

@[simp] theorem length_objects (n m : Nat) (contents : Contents) :
    (contents.objects n m).length = contents.objectCount := by
  induction contents generalizing n m with
  | nil => rfl
  | plain name loc what rest ih => simp only [objects, objectCount, List.length_cons, ih]; omega
  | routine name loc header inside rest insideLength restLength =>
    simp only [objects, objectCount, List.length_cons, List.length_append, insideLength, restLength,
      Header.length_objects]
    omega

@[simp] theorem length_scopes (n m : Nat) (around : ScopeId) (contents : Contents) :
    (contents.scopes n m around).length = contents.scopeCount := by
  induction contents generalizing n m around with
  | nil => rfl
  | plain name loc what rest ih => simp only [scopes, scopeCount, ih]
  | routine name loc header inside rest insideLength restLength =>
    simp only [scopes, scopeCount, List.length_cons, List.length_append, insideLength, restLength]
    omega

theorem ids_append (n : Nat) (a b : Contents) :
    (a ++ b).ids n = a.ids n ++ b.ids (n + a.objectCount) := by
  induction a generalizing n with
  | nil => simp [ids, objectCount]
  | plain name loc what rest ih =>
    simp only [plain_append, ids, ih, objectCount, List.cons_append, Nat.add_assoc]
  | routine name loc header inside rest _ ih =>
    simp only [routine_append, ids, ih, objectCount, List.cons_append, Nat.add_assoc]

theorem objects_append (n m : Nat) (a b : Contents) :
    (a ++ b).objects n m = a.objects n m ++ b.objects (n + a.objectCount) (m + a.scopeCount) := by
  induction a generalizing n m with
  | nil => simp [objects, objectCount, scopeCount]
  | plain name loc what rest ih =>
    simp only [plain_append, objects, ih, objectCount, scopeCount, List.cons_append, Nat.add_assoc]
  | routine name loc header inside rest _ ih =>
    simp only [routine_append, objects, ih, objectCount, scopeCount, List.cons_append,
      List.append_assoc, Nat.add_assoc]

theorem scopes_append (n m : Nat) (around : ScopeId) (a b : Contents) :
    (a ++ b).scopes n m around =
      a.scopes n m around ++ b.scopes (n + a.objectCount) (m + a.scopeCount) around := by
  induction a generalizing n m with
  | nil => simp [scopes, objectCount, scopeCount]
  | plain name loc what rest ih =>
    simp only [plain_append, scopes, ih, objectCount, scopeCount, Nat.add_assoc]
  | routine name loc header inside rest _ ih =>
    simp only [routine_append, scopes, ih, objectCount, scopeCount, List.cons_append,
      List.append_assoc, Nat.add_assoc]

end Contents

namespace Table

/-- Adds contents to a scope, behind what it has. -/
def extend (t : Table) (scope : ScopeId) (contents : Contents) : Table :=
  { t with
    objects := t.objects ++ (contents.objects t.objects.size t.scopes.size).toArray
    scopes := (t.scopes.modify scope.index fun s =>
        { s with objects := s.objects ++ contents.ids t.objects.size }) ++
      (contents.scopes t.objects.size t.scopes.size scope).toArray }

@[simp] theorem extend_current (t : Table) (scope : ScopeId) (contents : Contents) :
    (t.extend scope contents).current = t.current := rfl

@[simp] theorem extend_builtins (t : Table) (scope : ScopeId) (contents : Contents) :
    (t.extend scope contents).builtins = t.builtins := rfl

@[simp] theorem extend_program (t : Table) (scope : ScopeId) (contents : Contents) :
    (t.extend scope contents).program = t.program := rfl

@[simp] theorem extend_objects_size (t : Table) (scope : ScopeId) (contents : Contents) :
    (t.extend scope contents).objects.size = t.objects.size + contents.objectCount := by
  simp [extend]

@[simp] theorem extend_scopes_size (t : Table) (scope : ScopeId) (contents : Contents) :
    (t.extend scope contents).scopes.size = t.scopes.size + contents.scopeCount := by
  simp [extend]

theorem extend_nil (t : Table) (scope : ScopeId) : t.extend scope .nil = t := by
  have same : (t.scopes.modify scope.index fun s =>
      { s with objects := s.objects ++ ([] : List ObjectId) }) = t.scopes := by
    apply Array.ext_getElem?
    intro j
    simp [Array.getElem?_modify]
  simp only [extend, Contents.objects, Contents.scopes, Contents.ids, Array.append_empty, same]

theorem modify_modify_objects (scopes : Array Scope) (i : Nat) (a b : List ObjectId) :
    (scopes.modify i fun s => { s with objects := s.objects ++ a }).modify i
        (fun s => { s with objects := s.objects ++ b }) =
      scopes.modify i fun s => { s with objects := s.objects ++ (a ++ b) } := by
  apply Array.ext_getElem?
  intro j
  by_cases h : i = j <;> simp [Array.getElem?_modify, h, Function.comp_def]

theorem extend_append (t : Table) {scope : ScopeId} (a b : Contents)
    (known : scope.index < t.scopes.size) :
    (t.extend scope a).extend scope b = t.extend scope (a ++ b) := by
  have inside : scope.index < (t.scopes.modify scope.index fun s =>
      { s with objects := s.objects ++ a.ids t.objects.size }).size := by simpa using known
  rw [extend, extend_objects_size, extend_scopes_size]
  simp only [extend, Contents.objects_append, Contents.scopes_append, Contents.ids_append,
    modify_append_of_lt _ _ _ inside, modify_modify_objects, List.append_toArray,
    Array.append_assoc]

theorem extend_inside (t : Table) {scope : ScopeId} (name : String) (loc : Loc) (header : Header)
    (inside : Contents) :
    (t.extend scope (.routine name loc header .nil .nil)).extend t.nextScope inside =
      t.extend scope (.routine name loc header inside .nil) := by
  have add := modify_push_size (t.scopes.modify scope.index fun s =>
      { s with objects := s.objects ++ [⟨t.objects.size⟩] })
    (fun s => { s with objects := s.objects ++ inside.ids (t.objects.size + 1 + header.params.length) })
    ⟨some ⟨t.objects.size⟩, some scope, header.ids (t.objects.size + 1)⟩
  simp only [Array.size_modify, Nat.add_assoc, ← Array.append_singleton] at add
  rw [extend, extend_objects_size, extend_scopes_size]
  simp only [extend, nextScope, Contents.objects, Contents.scopes, Contents.ids,
    Contents.objectCount, Contents.scopeCount, List.append_nil, Nat.add_zero, Nat.add_assoc, add,
    Array.append_assoc, List.append_toArray, List.cons_append, List.nil_append]

end Table

namespace Table

variable {t : Table} {scope : ScopeId}

theorem declareIn_plain (name : String) (loc : Loc) (what : Plain) :
    t.declareIn scope ⟨name, some loc, what.meaning⟩ =
      (t.nextObject, t.extend scope (.plain name loc what .nil)) := by
  cases what <;>
    simp [declareIn, extend, Plain.meaning, Meaning.ownedScope?, addObject, modifyScope, nextObject,
      Contents.objects, Contents.scopes, Contents.ids]

theorem declareIn_routine (name : String) (loc : Loc) (header : Header)
    (empty : header.params = []) (known : scope.index < t.scopes.size) :
    (t.addScope ⟨none, some scope, []⟩).declareIn scope
        ⟨name, some loc, header.meaning [] t.nextScope⟩ =
      (t.nextObject, t.extend scope (.routine name loc header .nil .nil)) := by
  have ids (n : Nat) : header.ids n = [] := by simp [Header.ids, empty]
  have objects (id : ObjectId) : header.objects id = [] := by simp [Header.objects, empty]
  have add := modify_push_size (t.scopes.modify scope.index fun s =>
      { s with objects := s.objects ++ [⟨t.objects.size⟩] })
    (fun s => { s with owner := some ⟨t.objects.size⟩ }) ⟨none, some scope, []⟩
  simp only [Array.size_modify] at add
  cases header <;>
    simp [declareIn, extend, Header.meaning, Meaning.ownedScope?, addObject, addScope, modifyScope,
      setOwner, nextObject, nextScope, Contents.objects, Contents.scopes, Contents.ids, ids, objects,
      modify_push_of_lt _ _ _ known, add]

theorem declareIn_param (name : String) (loc : Loc) (header : Header) (param : Param) :
    (t.extend scope (.routine name loc header .nil .nil)).declareIn t.nextScope
        ⟨param.name, some param.loc, .param param.mode param.ty t.nextObject⟩ =
      (⟨t.objects.size + 1 + header.params.length⟩,
        t.extend scope (.routine name loc (header.addParam param) .nil .nil)) := by
  have addScope := modify_push_size (t.scopes.modify scope.index fun s =>
      { s with objects := s.objects ++ [⟨t.objects.size⟩] })
    (fun s => { s with objects := s.objects ++ [⟨t.objects.size + (header.params.length + 1)⟩] })
    ⟨some ⟨t.objects.size⟩, some scope, header.ids (t.objects.size + 1)⟩
  have addMeaning := modify_append_cons t.objects
    (fun o => { o with meaning := o.meaning.addParam ⟨t.objects.size + (header.params.length + 1)⟩ })
    ⟨name, some loc, header.meaning (header.ids (t.objects.size + 1)) ⟨t.scopes.size⟩⟩
    (header.objects ⟨t.objects.size⟩ ++
      [⟨param.name, some param.loc, .param param.mode param.ty ⟨t.objects.size⟩⟩])
  have reorder : t.objects.size + 1 + header.params.length =
      t.objects.size + (header.params.length + 1) := by omega
  simp only [Array.size_modify] at addScope
  simp only [Header.meaning_addParam _ _ _ param] at addMeaning
  simp [declareIn, extend, Meaning.ownedScope?, addObject, modifyScope, modifyMeaning, nextObject,
    nextScope, Contents.objects, Contents.scopes, Contents.ids, Header.ids_addParam,
    Header.objects_addParam, reorder, addScope, addMeaning]

theorem setReturns_routine (name : String) (loc : Loc) (header : Header) (ty : Ty) :
    (t.extend scope (.routine name loc header .nil .nil)).setReturns t.nextObject ty =
      t.extend scope (.routine name loc (header.setReturns ty) .nil .nil) := by
  simp [setReturns, modifyMeaning, extend, nextObject, Contents.objects, Contents.scopes,
    Contents.ids, modify_append_cons, Header.meaning_setReturns]

end Table

end Kpl
