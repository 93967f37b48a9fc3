import Kpl.Proofs.Contents.Layout
import Mathlib.Data.List.Nodup

namespace Kpl

theorem filterMap_range' {α β : Type} {l : List α} {n : Nat} {f : Nat → Option β} {g : α → β}
    (h : ∀ i a, l[i]? = some a → f (n + i) = some (g a)) :
    (List.range' n l.length).filterMap f = l.map g := by
  induction l generalizing n with
  | nil => rfl
  | cons a l ih =>
    have rest := ih (n := n + 1) fun i b hb => by
      rw [Nat.add_assoc, Nat.add_comm 1]
      exact h (i + 1) b hb
    have first : f n = some (g a) := h 0 a rfl
    rw [List.length_cons, List.range'_succ, List.filterMap_cons, first, rest, List.map_cons]

namespace Table

variable {t : Table} {scope : ScopeId}

def outer? (t : Table) (scope : ScopeId) : Option ScopeId := t.scope? scope >>= (·.outer)

def namesIn (t : Table) (scope : ScopeId) : List String := (t.objectsIn scope).filterMap t.name?

/-- Lists and parameters hold numbers of objects, and a scope is younger than the one around it. -/
structure Valid (t : Table) : Prop where
  listed : ∀ {scope id}, id ∈ t.objectsIn scope → id.index < t.objects.size
  params : ∀ {id p}, p ∈ t.params id → p.index < t.objects.size
  outer : ∀ {scope outer}, t.outer? scope = some outer → outer.index < scope.index

theorem object?_eq_none {id : ObjectId} (h : t.objects.size ≤ id.index) : t.object? id = none := by
  simp [object?, h]

theorem scope?_eq_none {id : ScopeId} (h : t.scopes.size ≤ id.index) : t.scope? id = none := by
  simp [scope?, h]

theorem object?_lt {id : ObjectId} {o : Object} (h : t.object? id = some o) :
    id.index < t.objects.size := by
  refine Nat.lt_of_not_le fun beyond => ?_
  rw [object?_eq_none beyond] at h
  cases h

theorem scope?_lt {id : ScopeId} {s : Scope} (h : t.scope? id = some s) :
    id.index < t.scopes.size := by
  refine Nat.lt_of_not_le fun beyond => ?_
  rw [scope?_eq_none beyond] at h
  cases h

theorem name?_lt {id : ObjectId} {name : String} (h : t.name? id = some name) :
    id.index < t.objects.size := by
  obtain ⟨o, ho, _⟩ := Option.map_eq_some_iff.mp h
  exact object?_lt ho

theorem objectsIn_of_scope {id : ScopeId} {s : Scope} (h : t.scope? id = some s) :
    t.objectsIn id = s.objects := by
  simp [objectsIn, h]

theorem mem_objectsIn {scope : ScopeId} {id : ObjectId} :
    id ∈ t.objectsIn scope ↔ ∃ s, t.scope? scope = some s ∧ id ∈ s.objects := by
  cases h : t.scope? scope <;> simp [objectsIn, h]

theorem mem_params {id p : ObjectId} :
    p ∈ t.params id ↔ ∃ o, t.object? id = some o ∧ p ∈ o.meaning.params := by
  cases h : t.object? id <;> simp [params, meaning?, h]

theorem outer?_eq_some {scope outer : ScopeId} :
    t.outer? scope = some outer ↔ ∃ s, t.scope? scope = some s ∧ s.outer = some outer := by
  cases h : t.scope? scope <;> simp [outer?, h]

section Extend

variable (contents : Contents)

theorem object?_extend_of_lt {id : ObjectId} (h : id.index < t.objects.size) :
    (t.extend scope contents).object? id = t.object? id := by
  simp [object?, extend, Array.getElem?_append, h]

theorem object?_extend_add (i : Nat) :
    (t.extend scope contents).object? ⟨t.objects.size + i⟩ =
      (contents.objects t.objects.size t.scopes.size)[i]? := by
  have beyond : ¬ t.objects.size + i < t.objects.size := by omega
  simp [object?, extend, Array.getElem?_append, beyond]

theorem scope?_extend_of_ne {id : ScopeId} (h : id.index < t.scopes.size) (ne : id ≠ scope) :
    (t.extend scope contents).scope? id = t.scope? id := by
  have index : scope.index ≠ id.index := fun same => ne (by cases id; cases scope; simp_all)
  simp [scope?, extend, Array.getElem?_append, Array.getElem_modify, h, index]

theorem scope?_extend_same {s : Scope} (h : t.scope? scope = some s) :
    (t.extend scope contents).scope? scope =
      some { s with objects := s.objects ++ contents.ids t.objects.size } := by
  have known := scope?_lt h
  rw [scope?, Array.getElem?_eq_getElem known] at h
  cases h
  simp [scope?, extend, Array.getElem?_append, Array.getElem_modify, known]

theorem scope?_extend_add (j : Nat) :
    (t.extend scope contents).scope? ⟨t.scopes.size + j⟩ =
      (contents.scopes t.objects.size t.scopes.size scope)[j]? := by
  have beyond : ¬ t.scopes.size + j < t.scopes.size := by omega
  simp [scope?, extend, Array.getElem?_append, beyond]

theorem object?_extend_cases {id : ObjectId} {o : Object}
    (h : (t.extend scope contents).object? id = some o) :
    t.object? id = some o ∨ ∃ i, id = ⟨t.objects.size + i⟩ ∧
      (contents.objects t.objects.size t.scopes.size)[i]? = some o := by
  by_cases old : id.index < t.objects.size
  · rw [object?_extend_of_lt contents old] at h
    exact .inl h
  · obtain ⟨i, hi⟩ : ∃ i, id.index = t.objects.size + i := ⟨id.index - t.objects.size, by omega⟩
    obtain rfl : id = ⟨t.objects.size + i⟩ := by cases id; cases hi; rfl
    rw [object?_extend_add] at h
    exact .inr ⟨i, rfl, h⟩

theorem scope?_extend_cases {id : ScopeId} {s : Scope} (known : scope.index < t.scopes.size)
    (h : (t.extend scope contents).scope? id = some s) :
    id ≠ scope ∧ t.scope? id = some s ∨
      (∃ before, id = scope ∧ t.scope? scope = some before ∧
        s = { before with objects := before.objects ++ contents.ids t.objects.size }) ∨
      ∃ j, id = ⟨t.scopes.size + j⟩ ∧
        (contents.scopes t.objects.size t.scopes.size scope)[j]? = some s := by
  by_cases old : id.index < t.scopes.size
  · by_cases same : id = scope
    · subst same
      have before : t.scope? id = some t.scopes[id.index] := Array.getElem?_eq_getElem known
      rw [scope?_extend_same contents before] at h
      exact .inr (.inl ⟨_, rfl, before, (Option.some.inj h).symm⟩)
    · rw [scope?_extend_of_ne contents old same] at h
      exact .inl ⟨same, h⟩
  · obtain ⟨j, hj⟩ : ∃ j, id.index = t.scopes.size + j := ⟨id.index - t.scopes.size, by omega⟩
    obtain rfl : id = ⟨t.scopes.size + j⟩ := by cases id; cases hj; rfl
    rw [scope?_extend_add] at h
    exact .inr (.inr ⟨j, rfl, h⟩)

end Extend

section Plain

variable (name : String) (loc : Loc) (what : Plain)

theorem object?_plain :
    (t.extend scope (.plain name loc what .nil)).object? t.nextObject =
      some ⟨name, some loc, what.meaning⟩ :=
  object?_extend_add (.plain name loc what .nil) 0

theorem object?_plain_cases {id : ObjectId} {o : Object}
    (h : (t.extend scope (.plain name loc what .nil)).object? id = some o) :
    t.object? id = some o ∨ id = t.nextObject ∧ o = ⟨name, some loc, what.meaning⟩ := by
  rcases object?_extend_cases _ h with old | ⟨i, rfl, new⟩
  · exact .inl old
  · cases i with
    | zero => exact .inr ⟨rfl, (Option.some.inj new).symm⟩
    | succ i => simp [Contents.objects] at new

theorem scope?_plain_cases {id : ScopeId} {s : Scope} (known : scope.index < t.scopes.size)
    (h : (t.extend scope (.plain name loc what .nil)).scope? id = some s) :
    id ≠ scope ∧ t.scope? id = some s ∨ ∃ before, id = scope ∧ t.scope? scope = some before ∧
      s = { before with objects := before.objects ++ [t.nextObject] } := by
  rcases scope?_extend_cases _ known h with old | same | ⟨j, _, new⟩
  · exact .inl old
  · exact .inr same
  · simp [Contents.scopes] at new

end Plain

section Routine

variable (name : String) (loc : Loc) (header : Header)

theorem object?_routine :
    (t.extend scope (.routine name loc header .nil .nil)).object? t.nextObject =
      some ⟨name, some loc, header.meaning (header.ids (t.objects.size + 1)) t.nextScope⟩ :=
  object?_extend_add (.routine name loc header .nil .nil) 0

theorem object?_routine_param {i : Nat} {p : Param} (h : header.params[i]? = some p) :
    (t.extend scope (.routine name loc header .nil .nil)).object? ⟨t.objects.size + 1 + i⟩ =
      some ⟨p.name, some p.loc, .param p.mode p.ty t.nextObject⟩ := by
  rw [Nat.add_assoc, Nat.add_comm 1 i, object?_extend_add]
  simp [Contents.objects, Header.objects, nextObject, h]

theorem object?_routine_cases {id : ObjectId} {o : Object}
    (h : (t.extend scope (.routine name loc header .nil .nil)).object? id = some o) :
    t.object? id = some o ∨
      (id = t.nextObject ∧
        o = ⟨name, some loc, header.meaning (header.ids (t.objects.size + 1)) t.nextScope⟩) ∨
      ∃ i p, header.params[i]? = some p ∧ id = ⟨t.objects.size + 1 + i⟩ ∧
        o = ⟨p.name, some p.loc, .param p.mode p.ty t.nextObject⟩ := by
  rcases object?_extend_cases _ h with old | ⟨i, rfl, new⟩
  · exact .inl old
  · cases i with
    | zero => exact .inr (.inl ⟨rfl, (Option.some.inj new).symm⟩)
    | succ i =>
      simp only [Contents.objects, List.getElem?_cons_succ, List.append_nil, Header.objects,
        List.getElem?_map, Option.map_eq_some_iff] at new
      obtain ⟨p, hp, rfl⟩ := new
      exact .inr (.inr ⟨i, p, hp, by rw [Nat.add_assoc, Nat.add_comm 1 i], rfl⟩)

theorem scope?_routine :
    (t.extend scope (.routine name loc header .nil .nil)).scope? t.nextScope =
      some ⟨some t.nextObject, some scope, header.ids (t.objects.size + 1)⟩ := by
  have new := @scope?_extend_add t scope (.routine name loc header .nil .nil) 0
  simpa [Contents.scopes, Contents.ids, nextScope, nextObject] using new

theorem scope?_routine_cases {id : ScopeId} {s : Scope} (known : scope.index < t.scopes.size)
    (h : (t.extend scope (.routine name loc header .nil .nil)).scope? id = some s) :
    id ≠ scope ∧ t.scope? id = some s ∨
      (∃ before, id = scope ∧ t.scope? scope = some before ∧
        s = { before with objects := before.objects ++ [t.nextObject] }) ∨
      id = t.nextScope ∧ s = ⟨some t.nextObject, some scope, header.ids (t.objects.size + 1)⟩ := by
  rcases scope?_extend_cases _ known h with old | same | ⟨j, rfl, new⟩
  · exact .inl old
  · exact .inr (.inl same)
  · cases j with
    | zero => exact .inr (.inr ⟨rfl, by
        simpa [Contents.scopes, Contents.ids, nextObject] using new.symm⟩)
    | succ j => simp [Contents.scopes] at new

end Routine

theorem name?_extend_of_lt (contents : Contents) {id : ObjectId} (h : id.index < t.objects.size) :
    (t.extend scope contents).name? id = t.name? id := by
  rw [name?, object?_extend_of_lt contents h, name?]

theorem meaning?_extend_of_lt (contents : Contents) {id : ObjectId}
    (h : id.index < t.objects.size) :
    (t.extend scope contents).meaning? id = t.meaning? id := by
  rw [meaning?, object?_extend_of_lt contents h, meaning?]

theorem objectsIn_extend_same (contents : Contents) (known : scope.index < t.scopes.size) :
    (t.extend scope contents).objectsIn scope = t.objectsIn scope ++ contents.ids t.objects.size := by
  have before : t.scope? scope = some t.scopes[scope.index] := Array.getElem?_eq_getElem known
  rw [objectsIn_of_scope (scope?_extend_same contents before), objectsIn_of_scope before]

theorem objectsIn_extend_of_ne (contents : Contents) {id : ScopeId} (h : id.index < t.scopes.size)
    (ne : id ≠ scope) : (t.extend scope contents).objectsIn id = t.objectsIn id := by
  rw [objectsIn, scope?_extend_of_ne contents h ne, objectsIn]

theorem Valid.namesIn_eq {u : Table} {id : ScopeId} (valid : t.Valid)
    (names : ∀ {o : ObjectId}, o.index < t.objects.size → u.name? o = t.name? o) :
    (t.objectsIn id).filterMap u.name? = t.namesIn id := by
  rw [namesIn]
  exact List.filterMap_congr fun o member => names (valid.listed member)

theorem namesIn_extend_of_ne (valid : t.Valid) (contents : Contents) {id : ScopeId}
    (h : id.index < t.scopes.size) (ne : id ≠ scope) :
    (t.extend scope contents).namesIn id = t.namesIn id := by
  rw [namesIn, objectsIn_extend_of_ne contents h ne]
  exact valid.namesIn_eq (name?_extend_of_lt contents)

theorem namesIn_plain (valid : t.Valid) (name : String) (loc : Loc) (what : Plain)
    (known : scope.index < t.scopes.size) :
    (t.extend scope (.plain name loc what .nil)).namesIn scope = t.namesIn scope ++ [name] := by
  rw [namesIn, objectsIn_extend_same _ known, List.filterMap_append,
    valid.namesIn_eq (name?_extend_of_lt _)]
  have new := @object?_plain t scope name loc what
  simp only [Contents.ids, List.filterMap_cons, name?]
  rw [nextObject] at new
  rw [new]
  rfl

theorem namesIn_routine (valid : t.Valid) (name : String) (loc : Loc) (header : Header)
    (known : scope.index < t.scopes.size) :
    (t.extend scope (.routine name loc header .nil .nil)).namesIn scope =
      t.namesIn scope ++ [name] := by
  rw [namesIn, objectsIn_extend_same _ known, List.filterMap_append,
    valid.namesIn_eq (name?_extend_of_lt _)]
  have new := @object?_routine t scope name loc header
  simp only [Contents.ids, List.filterMap_cons, name?]
  rw [nextObject] at new
  rw [new]
  rfl

theorem namesIn_routine_inside (name : String) (loc : Loc) (header : Header) :
    (t.extend scope (.routine name loc header .nil .nil)).namesIn t.nextScope = header.names := by
  rw [namesIn, objectsIn_of_scope (scope?_routine name loc header), Header.ids,
    List.filterMap_map, Header.names]
  apply filterMap_range'
  intro i p found
  rw [Function.comp_apply, name?, object?_routine_param name loc header found]
  rfl

theorem Valid.lt_of_appended (valid : t.Valid) {before : Scope} {o : ObjectId}
    (found : t.scope? scope = some before) (member : o ∈ before.objects ++ [t.nextObject]) :
    o.index < t.objects.size + 1 := by
  rcases List.mem_append.mp member with old | new
  · exact Nat.lt_succ_of_lt (valid.listed (mem_objectsIn.mpr ⟨before, found, old⟩))
  · rw [List.mem_singleton.mp new]
    exact Nat.lt_succ_self _

theorem Valid.plain (valid : t.Valid) (name : String) (loc : Loc) (what : Plain)
    (known : scope.index < t.scopes.size) : (t.extend scope (.plain name loc what .nil)).Valid where
  listed {id o} member := by
    obtain ⟨s, hs, member⟩ := mem_objectsIn.mp member
    simp only [extend_objects_size, Contents.objectCount]
    rcases scope?_plain_cases name loc what known hs with ⟨_, old⟩ | ⟨_, rfl, old, rfl⟩
    · have bound := valid.listed (mem_objectsIn.mpr ⟨s, old, member⟩)
      omega
    · have bound := valid.lt_of_appended old member
      omega
  params {id p} member := by
    obtain ⟨o, ho, member⟩ := mem_params.mp member
    simp only [extend_objects_size, Contents.objectCount]
    rcases object?_plain_cases name loc what ho with old | ⟨rfl, rfl⟩
    · have bound := valid.params (mem_params.mpr ⟨o, old, member⟩)
      omega
    · cases what <;> cases member
  outer {id outer} around := by
    obtain ⟨s, hs, around⟩ := outer?_eq_some.mp around
    rcases scope?_plain_cases name loc what known hs with ⟨_, old⟩ | ⟨before, rfl, old, rfl⟩
    · exact valid.outer (outer?_eq_some.mpr ⟨s, old, around⟩)
    · exact valid.outer (outer?_eq_some.mpr ⟨before, old, around⟩)

theorem Valid.routine (valid : t.Valid) (name : String) (loc : Loc) (header : Header)
    (known : scope.index < t.scopes.size) :
    (t.extend scope (.routine name loc header .nil .nil)).Valid where
  listed {id o} member := by
    obtain ⟨s, hs, member⟩ := mem_objectsIn.mp member
    simp only [extend_objects_size, Contents.objectCount]
    rcases scope?_routine_cases name loc header known hs with
      ⟨_, old⟩ | ⟨_, rfl, old, rfl⟩ | ⟨_, rfl⟩
    · have bound := valid.listed (mem_objectsIn.mpr ⟨s, old, member⟩)
      omega
    · have bound := valid.lt_of_appended old member
      omega
    · have bound := Header.mem_ids.mp member
      omega
  params {id p} member := by
    obtain ⟨o, ho, member⟩ := mem_params.mp member
    simp only [extend_objects_size, Contents.objectCount]
    rcases object?_routine_cases name loc header ho with old | ⟨rfl, rfl⟩ | ⟨i, q, _, rfl, rfl⟩
    · have bound := valid.params (mem_params.mpr ⟨o, old, member⟩)
      omega
    · rw [Header.meaning_params] at member
      have bound := Header.mem_ids.mp member
      omega
    · cases member
  outer {id outer} around := by
    obtain ⟨s, hs, around⟩ := outer?_eq_some.mp around
    rcases scope?_routine_cases name loc header known hs with
      ⟨_, old⟩ | ⟨before, rfl, old, rfl⟩ | ⟨rfl, rfl⟩
    · exact valid.outer (outer?_eq_some.mpr ⟨s, old, around⟩)
    · exact valid.outer (outer?_eq_some.mpr ⟨before, old, around⟩)
    · cases around
      exact known

/-- What one plain declaration and one header keep, all contents keep, as long as every scope
    declares fresh names. -/
theorem extend_induction {P : Table → Prop}
    (plain : ∀ {t : Table} {scope : ScopeId} (name : String) (loc : Loc) (what : Plain),
      t.Valid → P t → scope.index < t.scopes.size → name ∉ t.namesIn scope →
      P (t.extend scope (.plain name loc what .nil)))
    (routine : ∀ {t : Table} {scope : ScopeId} (name : String) (loc : Loc) (header : Header),
      t.Valid → P t → scope.index < t.scopes.size → name ∉ t.namesIn scope → header.names.Nodup →
      P (t.extend scope (.routine name loc header .nil .nil)))
    (contents : Contents) {t : Table} {scope : ScopeId} (valid : t.Valid) (holds : P t)
    (known : scope.index < t.scopes.size) (fresh : contents.Fresh (t.namesIn scope)) :
    (t.extend scope contents).Valid ∧ P (t.extend scope contents) := by
  induction contents generalizing t scope with
  | nil =>
    rw [extend_nil]
    exact ⟨valid, holds⟩
  | plain name loc what rest ih =>
    have split := extend_append t (.plain name loc what .nil) rest known
    rw [Contents.plain_append, Contents.nil_append] at split
    rw [← split]
    apply ih (valid.plain name loc what known) (plain name loc what valid holds known fresh.1)
    · simp only [extend_scopes_size]
      omega
    · rw [namesIn_plain valid name loc what known]
      exact fresh.2
  | routine name loc header inside rest insideHolds restHolds =>
    obtain ⟨new, distinct, insideFresh, restFresh⟩ := fresh
    have split := extend_append t (.routine name loc header inside .nil) rest known
    rw [Contents.routine_append, Contents.nil_append] at split
    rw [← split, ← extend_inside]
    obtain ⟨insideValid, insideHolds⟩ := @insideHolds _ t.nextScope
      (valid.routine name loc header known)
      (routine name loc header valid holds known new distinct)
      (by simp [nextScope, Contents.scopeCount])
      (by rw [namesIn_routine_inside]; exact insideFresh)
    have older : scope ≠ t.nextScope := by
      rintro rfl
      exact Nat.lt_irrefl _ known
    apply restHolds insideValid insideHolds
    · simp only [extend_scopes_size]
      omega
    · rw [namesIn_extend_of_ne (valid.routine name loc header known) inside
        (by simp only [extend_scopes_size]; omega) older, namesIn_routine valid name loc header known]
      exact restFresh

theorem Valid.extend (valid : t.Valid) (contents : Contents)
    (known : scope.index < t.scopes.size) (fresh : contents.Fresh (t.namesIn scope)) :
    (t.extend scope contents).Valid :=
  (extend_induction (P := fun _ => True) (fun _ _ _ _ _ _ _ => trivial)
    (fun _ _ _ _ _ _ _ _ => trivial) contents valid trivial known fresh).1

end Table

end Kpl
