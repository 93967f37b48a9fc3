import Kpl.Proofs.Arena.Calls

namespace Kpl

namespace Table

/-- The numbers by which names are found and scopes are entered and left are numbers of the
    table. -/
structure Closed (t : Table) : Prop where
  listed : ∀ {x id}, id ∈ t.objectsIn x → id.index < t.objects.size
  builtins : ∀ {id}, id ∈ t.builtins → id.index < t.objects.size
  owned : ∀ {id o x}, t.object? id = some o → o.meaning.ownedScope? = some x →
    x.index < t.scopes.size
  outer : ∀ {x outer}, t.outer? x = some outer → outer.index < x.index
  current : ∀ {x}, t.current = some x → x.index < t.scopes.size

variable {t : Table}

theorem Sound.closed (sound : t.Sound) : t.Closed where
  listed := sound.listed_lt
  builtins member := sound.objects (.builtin member)
  owned found owns := sound.scopes (.owned found owns)
  outer := sound.outer
  current here := sound.scopes (.current here)

theorem closed_of_reached {a : Arena} (reached : Arena.Reached a) : a.table.Closed :=
  reached.sound.table.closed

theorem Closed.outer_lt (closed : t.Closed) {x outer : ScopeId} (around : t.outer? x = some outer) :
    outer.index < t.scopes.size := by
  obtain ⟨s, found, _⟩ := outer?_eq_some.mp around
  exact Nat.lt_trans (closed.outer around) (scope?_lt found)

theorem Closed.moved (closed : t.Closed) {current : Option ScopeId}
    (known : ∀ x, current = some x → x.index < t.scopes.size) : (t.moved current).Closed :=
  ⟨closed.listed, closed.builtins, closed.owned, closed.outer, fun here => known _ here⟩

theorem Closed.addScope (closed : t.Closed) {owner : Option ObjectId} {outer : Option ScopeId}
    (known : ∀ x ∈ outer, x.index < t.scopes.size) :
    (t.addScope ⟨owner, outer, []⟩).Closed where
  listed member := by
    rw [objectsIn_addScope] at member
    exact closed.listed member
  builtins := closed.builtins
  owned found owns := by
    have old := closed.owned found owns
    simp only [addScope_scopes_size]
    omega
  outer around := by
    obtain ⟨s, found, around⟩ := outer?_eq_some.mp around
    rcases scope?_addScope_cases found with ⟨new, rfl⟩ | old
    · rw [new]
      exact known _ around
    · exact closed.outer (outer?_eq_some.mpr ⟨s, old, around⟩)
  current here := by
    have old := closed.current here
    simp only [addScope_scopes_size]
    omega

theorem Closed.declareIn (closed : t.Closed) (scope : ScopeId) {o : Object}
    (known : ∀ x, o.meaning.ownedScope? = some x → x.index < t.scopes.size) :
    (t.declareIn scope o).2.Closed where
  listed member := by
    rw [declareIn_objects_size]
    rcases mem_objectsIn_declareIn scope member with old | ⟨_, rfl⟩
    · exact Nat.lt_succ_of_lt (closed.listed old)
    · exact Nat.lt_succ_self _
  builtins member := by
    rw [declareIn_builtins] at member
    rw [declareIn_objects_size]
    exact Nat.lt_succ_of_lt (closed.builtins member)
  owned {id p x} found owns := by
    have stored {q : Object} (found : (t.addObject o).object? id = some q)
        (owns : q.meaning.ownedScope? = some x) : x.index < t.scopes.size := by
      rw [object?_addObject] at found
      split at found
      · cases found
        exact known x owns
      · exact closed.owned found owns
    rw [declareIn_scopes_size]
    rw [object?_declareIn] at found
    split at found
    · obtain ⟨before, old, rfl⟩ := Option.map_eq_some_iff.mp found
      rw [ownedScope?_addParam] at owns
      exact stored old owns
    · exact stored found owns
  outer around := by
    obtain ⟨s, found, around⟩ := outer?_eq_some.mp around
    obtain ⟨before, old, same, _⟩ := scope?_declareIn_cases scope found
    exact closed.outer (outer?_eq_some.mpr ⟨before, old, same ▸ around⟩)
  current here := by
    rw [declareIn_current] at here
    rw [declareIn_scopes_size]
    exact closed.current here

theorem Closed.setReturns (closed : t.Closed) (id : ObjectId) (ty : Ty) :
    (t.setReturns id ty).Closed where
  listed member := by
    rw [setReturns_objects_size]
    exact closed.listed member
  builtins member := by
    rw [setReturns_objects_size]
    exact closed.builtins member
  owned found owns := by
    obtain ⟨before, old, _, _, same, _⟩ := object?_setReturns_cases found
    exact closed.owned old (same ▸ owns)
  outer := closed.outer
  current := closed.current

theorem Closed.withProgram (closed : t.Closed) (name : String) (loc : Loc) :
    (t.withProgram name loc).Closed where
  listed member := by
    rw [objectsIn_withProgram] at member
    rw [withProgram_objects_size]
    exact Nat.lt_succ_of_lt (closed.listed member)
  builtins member := by
    rw [withProgram_objects_size]
    exact Nat.lt_succ_of_lt (closed.builtins member)
  owned found owns := by
    rw [withProgram_scopes_size]
    rcases object?_withProgram_cases name loc found with old | ⟨_, rfl⟩
    · exact Nat.lt_succ_of_lt (closed.owned old owns)
    · cases owns
      exact Nat.lt_succ_self _
  outer around := by
    obtain ⟨s, found, around⟩ := outer?_eq_some.mp around
    rcases scope?_withProgram_cases name loc found with old | ⟨_, rfl⟩
    · exact closed.outer (outer?_eq_some.mpr ⟨s, old, around⟩)
    · cases around
  current here := by
    rw [withProgram_scopes_size]
    exact Nat.lt_succ_of_lt (closed.current here)

end Table

end Kpl
