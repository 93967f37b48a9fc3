import Kpl.Proofs.Arena.Steps

namespace Kpl

namespace Table

def routine? (t : Table) (id : ObjectId) : Option ObjectId := t.meaning? id >>= (·.routine?)

def paramsOf (t : Table) (id : ObjectId) : List ObjectId :=
  ((List.range t.objects.size).map ObjectId.mk).filter fun p => t.routine? p = some id

/-- The numbers of objects that a table stores. -/
inductive Mentions (t : Table) : ObjectId → Prop where
  | param {id p : ObjectId} {o : Object} :
    t.object? id = some o → p ∈ o.meaning.params → Mentions t p
  | routine {id routine : ObjectId} {o : Object} :
    t.object? id = some o → o.meaning.routine? = some routine → Mentions t routine
  | owner {x : ScopeId} {s : Scope} {id : ObjectId} :
    t.scope? x = some s → s.owner = some id → Mentions t id
  | listed {x : ScopeId} {s : Scope} {id : ObjectId} :
    t.scope? x = some s → id ∈ s.objects → Mentions t id
  | builtin {id : ObjectId} : id ∈ t.builtins → Mentions t id
  | program {id : ObjectId} : t.program = some id → Mentions t id

inductive MentionsScope (t : Table) : ScopeId → Prop where
  | owned {id : ObjectId} {o : Object} {x : ScopeId} :
    t.object? id = some o → o.meaning.ownedScope? = some x → MentionsScope t x
  | outer {x outer : ScopeId} {s : Scope} :
    t.scope? x = some s → s.outer = some outer → MentionsScope t outer
  | current {x : ScopeId} : t.current = some x → MentionsScope t x

structure Sound (t : Table) : Prop where
  objects : ∀ {id}, t.Mentions id → id.index < t.objects.size
  scopes : ∀ {x}, t.MentionsScope x → x.index < t.scopes.size
  outer : ∀ {x outer}, t.outer? x = some outer → outer.index < x.index
  /-- An object is listed in one scope at most. -/
  once : ∀ {id a b}, id ∈ t.objectsIn a → id ∈ t.objectsIn b → a = b
  /-- A scope lists objects in the order of their creation, none of them twice. -/
  increasing : ∀ x, (t.objectsIn x).Pairwise fun a b => a.index < b.index
  /-- The parameters of a routine are all parameters that name it. -/
  params : ∀ {id o}, t.object? id = some o → o.meaning.isRoutine →
    o.meaning.params = t.paramsOf id

structure Draft (t : Table) (o : Object) : Prop where
  routine : ∀ r ∈ o.meaning.routine?, r.index < t.objects.size
  scope : ∀ x ∈ o.meaning.ownedScope?, x.index < t.scopes.size
  params : o.meaning.params = []

variable {t u : Table}

theorem Draft.mono {o : Object} (draft : t.Draft o) (objects : t.objects.size ≤ u.objects.size)
    (scopes : t.scopes.size ≤ u.scopes.size) : u.Draft o where
  routine r member := Nat.lt_of_lt_of_le (draft.routine r member) objects
  scope x member := Nat.lt_of_lt_of_le (draft.scope x member) scopes
  params := draft.params

theorem Sound.listed_lt (sound : t.Sound) {x : ScopeId} {id : ObjectId}
    (member : id ∈ t.objectsIn x) : id.index < t.objects.size := by
  obtain ⟨s, found, member⟩ := mem_objectsIn.mp member
  exact sound.objects (.listed found member)

theorem routine?_of_object {id : ObjectId} {o : Object} (found : t.object? id = some o) :
    t.routine? id = o.meaning.routine? := by
  simp [routine?, meaning?, found]

theorem routine?_addParam (m : Meaning) (id : ObjectId) :
    (m.addParam id).routine? = m.routine? := by
  cases m <;> rfl

theorem mem_params_addParam {m : Meaning} {id p : ObjectId} (h : p ∈ (m.addParam id).params) :
    p ∈ m.params ∨ p = id := by
  cases m with
  | function | procedure => simpa [Meaning.addParam, Meaning.params] using h
  | _ => cases h

theorem params_addParam {m : Meaning} (id : ObjectId) (routine : m.isRoutine) :
    (m.addParam id).params = m.params ++ [id] := by
  cases m with
  | function | procedure => rfl
  | _ => cases routine

theorem isRoutine_addParam (m : Meaning) (id : ObjectId) :
    (m.addParam id).isRoutine = m.isRoutine := by
  cases m <;> rfl

theorem ownedScope?_addParam (m : Meaning) (id : ObjectId) :
    (m.addParam id).ownedScope? = m.ownedScope? := by
  cases m <;> rfl

theorem Sound.paramsOf_next (sound : t.Sound) : t.paramsOf t.nextObject = [] := by
  refine List.filter_eq_nil_iff.mpr fun p _ named => ?_
  have named : t.routine? p = some t.nextObject := of_decide_eq_true named
  cases found : t.object? p with
  | none => simp [routine?, meaning?, found] at named
  | some o =>
    rw [routine?_of_object found] at named
    exact Nat.lt_irrefl _ (sound.objects (.routine found named))

theorem paramsOf_same {id : ObjectId} (size : u.objects.size = t.objects.size)
    (old : ∀ p, u.routine? p = t.routine? p) : u.paramsOf id = t.paramsOf id := by
  rw [paramsOf, paramsOf, size]
  simp only [old]

theorem paramsOf_push {id : ObjectId} (size : u.objects.size = t.objects.size + 1)
    (old : ∀ p, p.index < t.objects.size → u.routine? p = t.routine? p) :
    u.paramsOf id =
      t.paramsOf id ++ if u.routine? t.nextObject = some id then [t.nextObject] else [] := by
  have before : ((List.range t.objects.size).map ObjectId.mk).filter (fun p => u.routine? p = some id) =
      t.paramsOf id := by
    refine List.filter_congr fun p member => ?_
    obtain ⟨i, inside, rfl⟩ := List.mem_map.mp member
    rw [old _ (List.mem_range.mp inside)]
  rw [paramsOf, size, List.range_succ, List.map_append, List.filter_append, before]
  congr 1
  change [t.nextObject].filter (fun p => u.routine? p = some id) = _
  by_cases named : u.routine? t.nextObject = some id <;> simp [named]

theorem Draft.paramsOf_declareIn (scope : ScopeId) {o : Object} (draft : t.Draft o)
    (id : ObjectId) : (t.declareIn scope o).2.paramsOf id =
      t.paramsOf id ++ if o.meaning.routine? = some id then [t.nextObject] else [] := by
  have new : (t.declareIn scope o).2.routine? t.nextObject = o.meaning.routine? :=
    routine?_of_object (object?_declareIn_next scope draft.routine)
  rw [paramsOf_push (declareIn_objects_size scope), new]
  intro p old
  obtain ⟨before, found⟩ : ∃ before, t.object? p = some before :=
    ⟨_, Array.getElem?_eq_getElem old⟩
  rw [routine?_of_object found, routine?, meaning?, object?_declareIn, object?_addObject,
    if_neg (Nat.ne_of_lt old), found]
  split
  · exact routine?_addParam before.meaning t.nextObject
  · rfl

section DeclareIn

variable (sound : t.Sound) {scope : ScopeId} {o : Object}

include sound

theorem Sound.once_declareIn {id : ObjectId} {a b : ScopeId}
    (inA : id ∈ (t.declareIn scope o).2.objectsIn a)
    (inB : id ∈ (t.declareIn scope o).2.objectsIn b) : a = b := by
  have later {x : ScopeId} (member : t.nextObject ∈ t.objectsIn x) : False :=
    Nat.lt_irrefl _ (sound.listed_lt member)
  rcases mem_objectsIn_declareIn scope inA with oldA | ⟨hereA, newA⟩
  · rcases mem_objectsIn_declareIn scope inB with oldB | ⟨_, newB⟩
    · exact sound.once oldA oldB
    · exact (later (newB ▸ oldA)).elim
  · rcases mem_objectsIn_declareIn scope inB with oldB | ⟨hereB, _⟩
    · exact (later (newA ▸ oldB)).elim
    · exact hereA.trans hereB.symm

theorem Sound.increasing_declareIn (x : ScopeId) :
    ((t.declareIn scope o).2.objectsIn x).Pairwise fun a b => a.index < b.index := by
  cases found : (t.declareIn scope o).2.scope? x with
  | none =>
    rw [objectsIn, found]
    exact .nil
  | some s =>
    obtain ⟨before, known, _, _, objects⟩ := scope?_declareIn_cases scope found
    have old := sound.increasing x
    rw [objectsIn_of_scope known] at old
    rw [objectsIn_of_scope found, objects]
    split
    · refine List.pairwise_append.mpr ⟨old, List.pairwise_singleton _ _, ?_⟩
      intro id member new last
      rw [List.mem_singleton.mp last]
      exact sound.objects (.listed known member)
    · exact old

variable (draft : t.Draft o)

include draft

theorem Sound.mentions_declareIn {id : ObjectId} (h : (t.declareIn scope o).2.Mentions id) :
    id.index < t.objects.size + 1 := by
  have old {id : ObjectId} (mentions : t.Mentions id) : id.index < t.objects.size + 1 :=
    Nat.lt_succ_of_lt (sound.objects mentions)
  have new : t.nextObject.index < t.objects.size + 1 := Nat.lt_succ_self _
  cases h with
  | param found member =>
    rcases object?_declareIn_cases scope draft.routine found with ⟨_, rfl⟩ | ⟨p, before, rfl⟩
    · rw [draft.params] at member
      cases member
    · dsimp only at member
      split at member
      · rcases mem_params_addParam member with member | rfl
        · exact old (.param before member)
        · exact new
      · exact old (.param before member)
  | routine found named =>
    rcases object?_declareIn_cases scope draft.routine found with ⟨_, rfl⟩ | ⟨p, before, rfl⟩
    · exact Nat.lt_succ_of_lt (draft.routine _ named)
    · dsimp only at named
      split at named
      · rw [routine?_addParam] at named
        exact old (.routine before named)
      · exact old (.routine before named)
  | owner found owned =>
    obtain ⟨s, before, _, same | added, _⟩ := scope?_declareIn_cases scope found
    · exact old (.owner before (same ▸ owned))
    · obtain rfl := Option.some.inj (owned.symm.trans added)
      exact new
  | listed found member =>
    rcases mem_objectsIn_declareIn scope (mem_objectsIn.mpr ⟨_, found, member⟩) with
      member | ⟨_, rfl⟩
    · exact Nat.lt_succ_of_lt (sound.listed_lt member)
    · exact new
  | builtin member =>
    rw [declareIn_builtins] at member
    exact old (.builtin member)
  | program last =>
    rw [declareIn_program] at last
    exact old (.program last)

theorem Sound.mentionsScope_declareIn {x : ScopeId}
    (h : (t.declareIn scope o).2.MentionsScope x) : x.index < t.scopes.size := by
  cases h with
  | owned found owned =>
    rcases object?_declareIn_cases scope draft.routine found with ⟨_, rfl⟩ | ⟨p, before, rfl⟩
    · exact draft.scope _ owned
    · dsimp only at owned
      split at owned
      · rw [ownedScope?_addParam] at owned
        exact sound.scopes (.owned before owned)
      · exact sound.scopes (.owned before owned)
  | outer found around =>
    obtain ⟨s, before, same, _⟩ := scope?_declareIn_cases scope found
    exact sound.scopes (.outer before (same ▸ around))
  | current here =>
    rw [declareIn_current] at here
    exact sound.scopes (.current here)

theorem Sound.params_declareIn {id : ObjectId} {p : Object}
    (found : (t.declareIn scope o).2.object? id = some p) (routine : p.meaning.isRoutine) :
    p.meaning.params = (t.declareIn scope o).2.paramsOf id := by
  rw [draft.paramsOf_declareIn]
  rcases object?_declareIn_cases scope draft.routine found with ⟨rfl, rfl⟩ | ⟨q, before, rfl⟩
  · have other : p.meaning.routine? ≠ some t.nextObject :=
      fun same => Nat.lt_irrefl _ (draft.routine _ same)
    rw [draft.params, sound.paramsOf_next, if_neg other]
    rfl
  · dsimp only at routine ⊢
    split
    · rename_i joins
      rw [if_pos joins, isRoutine_addParam] at routine
      rw [params_addParam _ routine, sound.params before routine]
    · rename_i other
      rw [if_neg other] at routine
      rw [sound.params before routine, List.append_nil]

theorem Sound.declareIn : (t.declareIn scope o).2.Sound where
  objects mentions := by
    rw [declareIn_objects_size]
    exact sound.mentions_declareIn draft mentions
  scopes mentions := by
    rw [declareIn_scopes_size]
    exact sound.mentionsScope_declareIn draft mentions
  outer around := by
    obtain ⟨s, found, around⟩ := outer?_eq_some.mp around
    obtain ⟨before, known, same, _⟩ := scope?_declareIn_cases scope found
    exact sound.outer (outer?_eq_some.mpr ⟨before, known, same ▸ around⟩)
  once := sound.once_declareIn
  increasing := sound.increasing_declareIn
  params := sound.params_declareIn draft

end DeclareIn

end Table

end Kpl
