import Kpl.Proofs.Contents.Consistent

namespace Kpl

namespace Table

theorem initial_valid : Table.initial.Valid where
  listed {scope id} member := by
    have bounded : ∀ s ∈ Table.initial.scopes, ∀ id ∈ s.objects,
        id.index < Table.initial.objects.size := by decide
    obtain ⟨s, found, member⟩ := mem_objectsIn.mp member
    exact bounded s (Array.mem_of_getElem? found) id member
  params {id p} member := by
    have bounded : ∀ o ∈ Table.initial.objects, ∀ p ∈ o.meaning.params,
        p.index < Table.initial.objects.size := by decide
    obtain ⟨o, found, member⟩ := mem_params.mp member
    exact bounded o (Array.mem_of_getElem? found) p member
  outer {scope outer} around := by
    have alone : ∀ s ∈ Table.initial.scopes, s.outer = none := by decide
    obtain ⟨s, found, around⟩ := outer?_eq_some.mp around
    rw [alone s (Array.mem_of_getElem? found)] at around
    cases around

theorem initial_scope_lt {id : ObjectId} {scope : ScopeId}
    (h : id ∈ Table.initial.objectsIn scope) : scope.index < 5 := by
  obtain ⟨s, found, _⟩ := mem_objectsIn.mp h
  exact scope?_lt found

theorem initial_object_lt {id : ObjectId} {meaning : Meaning}
    (h : Table.initial.meaning? id = some meaning) : id.index < 7 := by
  obtain ⟨o, found, _⟩ := meaning?_eq_some.mp h
  exact object?_lt found

theorem initial_listed {id : ObjectId} {scope : ScopeId} (h : id ∈ Table.initial.objectsIn scope) :
    scope = ⟨2⟩ ∧ id = ⟨3⟩ ∨ scope = ⟨3⟩ ∧ id = ⟨5⟩ := by
  have known := initial_scope_lt h
  obtain ⟨i⟩ := scope
  match i, known with
  | 0, _ | 1, _ | 4, _ => cases h
  | 2, _ => exact .inl ⟨rfl, List.mem_singleton.mp h⟩
  | 3, _ => exact .inr ⟨rfl, List.mem_singleton.mp h⟩

theorem initial_linked : Table.initial.Linked where
  distinct scope := by
    obtain ⟨i⟩ := scope
    match i with
    | 0 | 1 | 2 | 3 | 4 => decide
    | i + 5 => exact List.nodup_nil
  builtins := by decide
  declared := by
    intro id scope member
    rcases initial_listed member with ⟨rfl, rfl⟩ | ⟨rfl, rfl⟩
    · exact ⟨by decide, _, rfl, rfl⟩
    · exact ⟨by decide, _, rfl, rfl⟩
  once := by
    intro id a b inA inB
    rcases initial_listed inA with ⟨rfl, rfl⟩ | ⟨rfl, rfl⟩ <;>
      rcases initial_listed inB with ⟨rfl, same⟩ | ⟨rfl, same⟩
    · rfl
    · cases same
    · cases same
    · rfl
  listed := by
    intro id meaning found _ user
    have known := initial_object_lt found
    obtain ⟨i⟩ := id
    match i, known with
    | 0, _ | 1, _ | 2, _ | 4, _ | 6, _ => exact absurd (by decide) user
    | 3, _ => exact ⟨⟨2⟩, by decide⟩
    | 5, _ => exact ⟨⟨3⟩, by decide⟩
  owner := by
    intro id meaning scope found owned
    have known := initial_object_lt found
    obtain ⟨i⟩ := id
    match i, known with
    | 0, _ | 1, _ | 2, _ | 4, _ | 6, _ =>
      cases found
      cases owned
      rfl
    | 3, _ | 5, _ =>
      cases found
      cases owned
  around := by
    intro id meaning scope found owned
    have known := initial_object_lt found
    obtain ⟨i⟩ := id
    match i, known with
    | 0, _ | 1, _ | 2, _ | 4, _ | 6, _ =>
      cases found
      cases owned
      rfl
    | 3, _ | 5, _ =>
      cases found
      cases owned
  params := by
    intro id meaning scope found routine owned
    have known := initial_object_lt found
    obtain ⟨i⟩ := id
    match i, known with
    | 0, _ | 1, _ | 6, _ =>
      cases found
      cases owned
      exact ⟨[], rfl, nofun, nofun⟩
    | 2, _ | 4, _ =>
      cases found
      cases owned
      exact ⟨[], rfl, fun p member => List.mem_singleton.mp member ▸ ⟨_, _, rfl⟩, nofun⟩
    | 3, _ | 5, _ =>
      cases found
      cases owned

theorem initial_planted : Table.initial.Planted where
  valid := initial_valid
  linked := initial_linked
  laid := ⟨[], rfl, rfl⟩
  builtins := by decide
  program := nofun

end Table

end Kpl
