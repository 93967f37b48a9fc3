import Kpl.Proofs.Contents.Program

namespace Kpl

def Meaning.isProgram : Meaning → Bool
  | .program _ => true
  | _ => false

def Meaning.isParam : Meaning → Bool
  | .param .. => true
  | _ => false

namespace Table

structure Linked (t : Table) : Prop where
  distinct : ∀ scope, (t.namesIn scope).Nodup
  builtins : ∀ {id}, id ∈ t.builtins → id.index < t.objects.size
  declared : ∀ {id scope}, id ∈ t.objectsIn scope → id ∉ t.builtins ∧
    ∃ meaning, t.meaning? id = some meaning ∧ meaning.isProgram = false
  once : ∀ {id a b}, id ∈ t.objectsIn a → id ∈ t.objectsIn b → a = b
  listed : ∀ {id meaning}, t.meaning? id = some meaning → meaning.isProgram = false →
    id ∉ t.builtins → ∃ scope, id ∈ t.objectsIn scope
  owner : ∀ {id meaning scope}, t.meaning? id = some meaning → meaning.ownedScope? = some scope →
    t.owner? scope = some id
  around : ∀ {id meaning scope}, t.meaning? id = some meaning → meaning.ownedScope? = some scope →
    if meaning.isProgram ∨ id ∈ t.builtins then t.outer? scope = none
    else ∃ outer, t.outer? scope = some outer ∧ id ∈ t.objectsIn outer
  /-- The parameters of a routine come first in its scope, and point back to the routine. -/
  params : ∀ {id meaning scope}, t.meaning? id = some meaning → meaning.isRoutine →
    meaning.ownedScope? = some scope → ∃ rest, t.objectsIn scope = meaning.params ++ rest ∧
      (∀ p ∈ meaning.params, ∃ mode ty, t.meaning? p = some (.param mode ty id)) ∧
      ∀ r ∈ rest, ∃ other, t.meaning? r = some other ∧ other.isParam = false

variable {t : Table} {scope : ScopeId}

theorem owner?_eq_some {scope : ScopeId} {id : ObjectId} :
    t.owner? scope = some id ↔ ∃ s, t.scope? scope = some s ∧ s.owner = some id := by
  cases h : t.scope? scope <;> simp [owner?, h]

theorem owner?_lt {scope : ScopeId} {id : ObjectId} (h : t.owner? scope = some id) :
    scope.index < t.scopes.size := by
  obtain ⟨s, found, _⟩ := owner?_eq_some.mp h
  exact scope?_lt found

theorem owner?_extend (contents : Contents) {id : ScopeId} (known : id.index < t.scopes.size) :
    (t.extend scope contents).owner? id = t.owner? id := by
  by_cases same : id = scope
  · subst same
    have before : t.scope? id = some t.scopes[id.index] := Array.getElem?_eq_getElem known
    rw [owner?, scope?_extend_same contents before, owner?, before]
    rfl
  · rw [owner?, scope?_extend_of_ne contents known same, owner?]

theorem outer?_extend (contents : Contents) {id : ScopeId} (known : id.index < t.scopes.size) :
    (t.extend scope contents).outer? id = t.outer? id := by
  by_cases same : id = scope
  · subst same
    have before : t.scope? id = some t.scopes[id.index] := Array.getElem?_eq_getElem known
    rw [outer?, scope?_extend_same contents before, outer?, before]
    rfl
  · rw [outer?, scope?_extend_of_ne contents known same, outer?]

theorem mem_objectsIn_extend (contents : Contents) {a : ScopeId} {id : ObjectId}
    (h : id ∈ t.objectsIn a) : id ∈ (t.extend scope contents).objectsIn a := by
  obtain ⟨s, found, _⟩ := mem_objectsIn.mp h
  by_cases same : a = scope
  · subst same
    rw [objectsIn_extend_same contents (scope?_lt found)]
    exact List.mem_append_left _ h
  · rw [objectsIn_extend_of_ne contents (scope?_lt found) same]
    exact h

theorem meaning?_eq_some {id : ObjectId} {meaning : Meaning} :
    t.meaning? id = some meaning ↔ ∃ o, t.object? id = some o ∧ o.meaning = meaning :=
  Option.map_eq_some_iff

theorem Linked.nodup_fresh (linked : t.Linked) {name : String} (fresh : name ∉ t.namesIn scope) :
    (t.namesIn scope ++ [name]).Nodup := by
  rw [← List.concat_eq_append]
  exact List.Nodup.concat fresh (linked.distinct scope)

theorem Linked.nextObject_notMem (linked : t.Linked) : t.nextObject ∉ t.builtins :=
  fun builtin => Nat.lt_irrefl _ (linked.builtins builtin)

theorem Linked.builtins_extend (linked : t.Linked) (contents : Contents) {id : ObjectId}
    (member : id ∈ t.builtins) : id.index < (t.extend scope contents).objects.size := by
  rw [extend_objects_size]
  exact Nat.lt_add_right _ (linked.builtins member)

/-- Contents change nothing for the routines that were there: their scopes keep their owners and
    surroundings, and the objects that joined them are no parameters. -/
theorem Linked.params_extend (linked : t.Linked) (valid : t.Valid) (contents : Contents)
    (known : scope.index < t.scopes.size)
    (new : ∀ r ∈ contents.ids t.objects.size, ∃ other,
      (t.extend scope contents).meaning? r = some other ∧ other.isParam = false)
    {id : ObjectId} {meaning : Meaning} {inside : ScopeId} (found : t.meaning? id = some meaning)
    (routine : meaning.isRoutine) (owned : meaning.ownedScope? = some inside) :
    ∃ rest, (t.extend scope contents).objectsIn inside = meaning.params ++ rest ∧
      (∀ p ∈ meaning.params, ∃ mode ty,
        (t.extend scope contents).meaning? p = some (.param mode ty id)) ∧
      ∀ r ∈ rest, ∃ other, (t.extend scope contents).meaning? r = some other ∧
        other.isParam = false := by
  obtain ⟨rest, objects, params, others⟩ := linked.params found routine owned
  have old {r : ObjectId} (member : r ∈ t.objectsIn inside) :
      (t.extend scope contents).meaning? r = t.meaning? r :=
    meaning?_extend_of_lt contents (valid.listed member)
  have paramsKept : ∀ p ∈ meaning.params, ∃ mode ty,
      (t.extend scope contents).meaning? p = some (.param mode ty id) := by
    intro p member
    obtain ⟨mode, ty, meant⟩ := params p member
    exact ⟨mode, ty, by rw [old (objects ▸ List.mem_append_left _ member), meant]⟩
  have othersKept : ∀ r ∈ rest, ∃ other, (t.extend scope contents).meaning? r = some other ∧
      other.isParam = false := by
    intro r member
    obtain ⟨other, meant, sort⟩ := others r member
    exact ⟨other, by rw [old (objects ▸ List.mem_append_right _ member), meant], sort⟩
  by_cases same : inside = scope
  · subst same
    refine ⟨rest ++ contents.ids t.objects.size, ?_, paramsKept, ?_⟩
    · rw [objectsIn_extend_same contents known, objects, List.append_assoc]
    · intro r member
      rcases List.mem_append.mp member with member | member
      · exact othersKept r member
      · exact new r member
  · refine ⟨rest, ?_, paramsKept, othersKept⟩
    rw [objectsIn_extend_of_ne contents (owner?_lt (linked.owner found owned)) same, objects]

theorem Linked.around_extend (linked : t.Linked) (contents : Contents) {id : ObjectId}
    {meaning : Meaning} {inside : ScopeId} (found : t.meaning? id = some meaning)
    (owned : meaning.ownedScope? = some inside) :
    if meaning.isProgram ∨ id ∈ t.builtins then (t.extend scope contents).outer? inside = none
    else ∃ outer, (t.extend scope contents).outer? inside = some outer ∧
      id ∈ (t.extend scope contents).objectsIn outer := by
  have before := linked.around found owned
  rw [outer?_extend contents (owner?_lt (linked.owner found owned))]
  split
  · rename_i alone
    rwa [if_pos alone] at before
  · rename_i inner
    rw [if_neg inner] at before
    obtain ⟨outer, around, member⟩ := before
    exact ⟨outer, around, mem_objectsIn_extend contents member⟩

theorem Linked.owner_extend (linked : t.Linked) (contents : Contents) {id : ObjectId}
    {meaning : Meaning} {inside : ScopeId} (found : t.meaning? id = some meaning)
    (owned : meaning.ownedScope? = some inside) :
    (t.extend scope contents).owner? inside = some id := by
  have before := linked.owner found owned
  rw [owner?_extend contents (owner?_lt before), before]

section Plain

variable (name : String) (loc : Loc) (what : Plain)

theorem meaning?_plain_cases {id : ObjectId} {meaning : Meaning}
    (h : (t.extend scope (.plain name loc what .nil)).meaning? id = some meaning) :
    t.meaning? id = some meaning ∨ id = t.nextObject ∧ meaning = what.meaning := by
  obtain ⟨o, found, rfl⟩ := meaning?_eq_some.mp h
  rcases object?_plain_cases name loc what found with old | ⟨rfl, rfl⟩
  · exact .inl (meaning?_eq_some.mpr ⟨o, old, rfl⟩)
  · exact .inr ⟨rfl, rfl⟩

theorem meaning?_plain :
    (t.extend scope (.plain name loc what .nil)).meaning? t.nextObject = some what.meaning :=
  meaning?_eq_some.mpr ⟨_, object?_plain name loc what, rfl⟩

theorem mem_objectsIn_plain (known : scope.index < t.scopes.size) {id : ObjectId} {a : ScopeId}
    (h : id ∈ (t.extend scope (.plain name loc what .nil)).objectsIn a) :
    id ∈ t.objectsIn a ∨ a = scope ∧ id = t.nextObject := by
  obtain ⟨s, found, member⟩ := mem_objectsIn.mp h
  rcases scope?_plain_cases name loc what known found with ⟨_, old⟩ | ⟨before, rfl, old, rfl⟩
  · exact .inl (mem_objectsIn.mpr ⟨s, old, member⟩)
  · rcases List.mem_append.mp member with member | member
    · exact .inl (mem_objectsIn.mpr ⟨before, old, member⟩)
    · exact .inr ⟨rfl, List.mem_singleton.mp member⟩

theorem Linked.plain (linked : t.Linked) (valid : t.Valid) (known : scope.index < t.scopes.size)
    (fresh : name ∉ t.namesIn scope) : (t.extend scope (.plain name loc what .nil)).Linked := by
  have listed : t.nextObject ∈ (t.extend scope (.plain name loc what .nil)).objectsIn scope := by
    rw [objectsIn_extend_same _ known]
    exact List.mem_append_right _ List.mem_cons_self
  have old {id : ObjectId} {a : ScopeId} (member : id ∈ t.objectsIn a) : id ≠ t.nextObject := by
    rintro rfl
    exact Nat.lt_irrefl _ (valid.listed member)
  have sort : what.meaning.isProgram = false ∧ what.meaning.isParam = false := by
    cases what <;> exact ⟨rfl, rfl⟩
  constructor
  case distinct =>
    intro a
    by_cases same : a = scope
    · subst same
      rw [namesIn_plain valid name loc what known]
      exact linked.nodup_fresh fresh
    · by_cases inside : a.index < t.scopes.size
      · rw [namesIn_extend_of_ne valid _ inside same]
        exact linked.distinct a
      · have none : (t.extend scope (.plain name loc what .nil)).scope? a = none :=
          scope?_eq_none (by simpa [Contents.scopeCount] using inside)
        simp [namesIn, objectsIn, none]
  case builtins => exact linked.builtins_extend _
  case declared =>
    intro id a member
    rcases mem_objectsIn_plain name loc what known member with before | ⟨rfl, rfl⟩
    · rw [meaning?_extend_of_lt _ (valid.listed before)]
      exact linked.declared before
    · exact ⟨linked.nextObject_notMem, _, meaning?_plain name loc what, sort.1⟩
  case once =>
    intro id a b inA inB
    rcases mem_objectsIn_plain name loc what known inA with beforeA | ⟨hereA, new⟩ <;>
      rcases mem_objectsIn_plain name loc what known inB with beforeB | ⟨hereB, new'⟩
    · exact linked.once beforeA beforeB
    · exact absurd new' (old beforeA)
    · exact absurd new (old beforeB)
    · rw [hereA, hereB]
  case listed =>
    intro id meaning found kind unlisted
    rcases meaning?_plain_cases name loc what found with before | ⟨rfl, rfl⟩
    · obtain ⟨a, member⟩ := linked.listed before kind unlisted
      exact ⟨a, mem_objectsIn_extend _ member⟩
    · exact ⟨scope, listed⟩
  case owner =>
    intro id meaning inside found owned
    rcases meaning?_plain_cases name loc what found with before | ⟨rfl, rfl⟩
    · exact linked.owner_extend _ before owned
    · cases what <;> cases owned
  case around =>
    intro id meaning inside found owned
    rcases meaning?_plain_cases name loc what found with before | ⟨rfl, rfl⟩
    · exact linked.around_extend _ before owned
    · cases what <;> cases owned
  case params =>
    intro id meaning inside found routine owned
    rcases meaning?_plain_cases name loc what found with before | ⟨rfl, rfl⟩
    · refine linked.params_extend valid _ known ?_ before routine owned
      intro r member
      obtain rfl := List.mem_singleton.mp member
      exact ⟨_, meaning?_plain name loc what, sort.2⟩
    · cases what <;> cases routine

end Plain

section Routine

variable (name : String) (loc : Loc) (header : Header)

theorem meaning?_routine_cases {id : ObjectId} {meaning : Meaning}
    (h : (t.extend scope (.routine name loc header .nil .nil)).meaning? id = some meaning) :
    t.meaning? id = some meaning ∨
      (id = t.nextObject ∧
        meaning = header.meaning (header.ids (t.objects.size + 1)) t.nextScope) ∨
      id ∈ header.ids (t.objects.size + 1) ∧ ∃ mode ty, meaning = .param mode ty t.nextObject := by
  obtain ⟨o, found, rfl⟩ := meaning?_eq_some.mp h
  rcases object?_routine_cases name loc header found with old | ⟨rfl, rfl⟩ | ⟨i, p, hp, rfl, rfl⟩
  · exact .inl (meaning?_eq_some.mpr ⟨o, old, rfl⟩)
  · exact .inr (.inl ⟨rfl, rfl⟩)
  · obtain ⟨inside, _⟩ := List.getElem?_eq_some_iff.mp hp
    have bounds : t.objects.size + 1 ≤ t.objects.size + 1 + i ∧
        t.objects.size + 1 + i < t.objects.size + 1 + header.params.length := by omega
    exact .inr (.inr ⟨Header.mem_ids.mpr bounds, p.mode, p.ty, rfl⟩)

theorem meaning?_routine :
    (t.extend scope (.routine name loc header .nil .nil)).meaning? t.nextObject =
      some (header.meaning (header.ids (t.objects.size + 1)) t.nextScope) :=
  meaning?_eq_some.mpr ⟨_, object?_routine name loc header, rfl⟩

theorem meaning?_routine_param {id : ObjectId} (h : id ∈ header.ids (t.objects.size + 1)) :
    ∃ mode ty, (t.extend scope (.routine name loc header .nil .nil)).meaning? id =
      some (.param mode ty t.nextObject) := by
  obtain ⟨i⟩ := id
  obtain ⟨low, high⟩ := Header.mem_ids.mp h
  simp only at low high
  obtain ⟨j, rfl⟩ : ∃ j, i = t.objects.size + 1 + j := ⟨i - (t.objects.size + 1), by omega⟩
  have inside : j < header.params.length := by omega
  exact ⟨_, _, meaning?_eq_some.mpr
    ⟨_, object?_routine_param name loc header (List.getElem?_eq_getElem inside), rfl⟩⟩

theorem mem_objectsIn_routine (known : scope.index < t.scopes.size) {id : ObjectId} {a : ScopeId}
    (h : id ∈ (t.extend scope (.routine name loc header .nil .nil)).objectsIn a) :
    id ∈ t.objectsIn a ∨ (a = scope ∧ id = t.nextObject) ∨
      a = t.nextScope ∧ id ∈ header.ids (t.objects.size + 1) := by
  obtain ⟨s, found, member⟩ := mem_objectsIn.mp h
  rcases scope?_routine_cases name loc header known found with
    ⟨_, old⟩ | ⟨before, rfl, old, rfl⟩ | ⟨rfl, rfl⟩
  · exact .inl (mem_objectsIn.mpr ⟨s, old, member⟩)
  · rcases List.mem_append.mp member with member | member
    · exact .inl (mem_objectsIn.mpr ⟨before, old, member⟩)
    · exact .inr (.inl ⟨rfl, List.mem_singleton.mp member⟩)
  · exact .inr (.inr ⟨rfl, member⟩)

theorem Linked.routine (linked : t.Linked) (valid : t.Valid) (known : scope.index < t.scopes.size)
    (fresh : name ∉ t.namesIn scope) (distinct : header.names.Nodup) :
    (t.extend scope (.routine name loc header .nil .nil)).Linked := by
  have listed : t.nextObject ∈ (t.extend scope (.routine name loc header .nil .nil)).objectsIn scope := by
    rw [objectsIn_extend_same _ known]
    exact List.mem_append_right _ List.mem_cons_self
  have inside : (t.extend scope (.routine name loc header .nil .nil)).objectsIn t.nextScope =
      header.ids (t.objects.size + 1) := objectsIn_of_scope (scope?_routine name loc header)
  constructor
  case distinct =>
    intro a
    by_cases same : a = scope
    · subst same
      rw [namesIn_routine valid name loc header known]
      exact linked.nodup_fresh fresh
    by_cases own : a = t.nextScope
    · subst own
      rw [namesIn_routine_inside]
      exact distinct
    by_cases old : a.index < t.scopes.size
    · rw [namesIn_extend_of_ne valid _ old same]
      exact linked.distinct a
    · have beyond : t.scopes.size + 1 ≤ a.index := by
        refine Nat.lt_of_le_of_ne (Nat.le_of_not_lt old) fun eq => own ?_
        cases a
        exact congrArg ScopeId.mk eq.symm
      have none : (t.extend scope (.routine name loc header .nil .nil)).scope? a = none :=
        scope?_eq_none (by simpa [Contents.scopeCount] using beyond)
      simp [namesIn, objectsIn, none]
  case builtins => exact linked.builtins_extend _
  case declared =>
    intro id a member
    rcases mem_objectsIn_routine name loc header known member with before | ⟨rfl, rfl⟩ | ⟨rfl, param⟩
    · rw [meaning?_extend_of_lt _ (valid.listed before)]
      exact linked.declared before
    · refine ⟨linked.nextObject_notMem, _, meaning?_routine name loc header, ?_⟩
      cases header <;> rfl
    · obtain ⟨mode, ty, meant⟩ := @meaning?_routine_param t scope name loc header _ param
      refine ⟨fun builtin => ?_, _, meant, rfl⟩
      have bound := linked.builtins builtin
      have low := Header.mem_ids.mp param
      omega
  case once =>
    intro id a b inA inB
    have old {c : ScopeId} (member : id ∈ t.objectsIn c) : id.index < t.objects.size :=
      valid.listed member
    have later (param : id ∈ header.ids (t.objects.size + 1)) : t.objects.size < id.index :=
      (Header.mem_ids.mp param).1
    have new (same : id = t.nextObject) : id.index = t.objects.size := congrArg ObjectId.index same
    rcases mem_objectsIn_routine name loc header known inA with
      beforeA | ⟨hereA, sameA⟩ | ⟨hereA, paramA⟩ <;>
    rcases mem_objectsIn_routine name loc header known inB with
      beforeB | ⟨hereB, sameB⟩ | ⟨hereB, paramB⟩
    · exact linked.once beforeA beforeB
    · exact absurd (new sameB) (Nat.ne_of_lt (old beforeA))
    · exact absurd (later paramB) (Nat.lt_asymm (old beforeA))
    · exact absurd (new sameA) (Nat.ne_of_lt (old beforeB))
    · rw [hereA, hereB]
    · exact absurd (new sameA) (Nat.ne_of_gt (later paramB))
    · exact absurd (later paramA) (Nat.lt_asymm (old beforeB))
    · exact absurd (new sameB) (Nat.ne_of_gt (later paramA))
    · rw [hereA, hereB]
  case listed =>
    intro id meaning found kind unlisted
    rcases meaning?_routine_cases name loc header found with before | ⟨rfl, rfl⟩ | ⟨param, _⟩
    · obtain ⟨a, member⟩ := linked.listed before kind unlisted
      exact ⟨a, mem_objectsIn_extend _ member⟩
    · exact ⟨scope, listed⟩
    · exact ⟨t.nextScope, inside ▸ param⟩
  case owner =>
    intro id meaning owned found owns
    rcases meaning?_routine_cases name loc header found with before | ⟨rfl, rfl⟩ | ⟨_, _, _, rfl⟩
    · exact linked.owner_extend _ before owns
    · rw [Header.meaning_ownedScope] at owns
      obtain rfl := Option.some.inj owns
      exact owner?_eq_some.mpr ⟨_, scope?_routine name loc header, rfl⟩
    · cases owns
  case around =>
    intro id meaning owned found owns
    rcases meaning?_routine_cases name loc header found with before | ⟨rfl, rfl⟩ | ⟨_, _, _, rfl⟩
    · exact linked.around_extend _ before owns
    · rw [Header.meaning_ownedScope] at owns
      obtain rfl := Option.some.inj owns
      rw [if_neg]
      · exact ⟨scope, outer?_eq_some.mpr ⟨_, scope?_routine name loc header, rfl⟩, listed⟩
      · rintro (program | builtin)
        · cases header <;> cases program
        · exact linked.nextObject_notMem builtin
    · cases owns
  case params =>
    intro id meaning owned found routine owns
    rcases meaning?_routine_cases name loc header found with before | ⟨rfl, rfl⟩ | ⟨_, _, _, rfl⟩
    · refine linked.params_extend valid _ known ?_ before routine owns
      intro r member
      obtain rfl := List.mem_singleton.mp member
      refine ⟨_, meaning?_routine name loc header, ?_⟩
      cases header <;> rfl
    · rw [Header.meaning_ownedScope] at owns
      obtain rfl := Option.some.inj owns
      rw [inside, Header.meaning_params]
      exact ⟨[], (List.append_nil _).symm,
        fun p member => meaning?_routine_param name loc header member, by simp⟩
    · cases routine

end Routine

section Program

variable (name : String) (loc : Loc)

theorem meaning?_withProgram_cases {id : ObjectId} {meaning : Meaning}
    (h : (t.withProgram name loc).meaning? id = some meaning) :
    t.meaning? id = some meaning ∨ id = t.nextObject ∧ meaning = .program t.nextScope := by
  obtain ⟨o, found, rfl⟩ := meaning?_eq_some.mp h
  rcases object?_withProgram_cases name loc found with old | ⟨rfl, rfl⟩
  · exact .inl (meaning?_eq_some.mpr ⟨o, old, rfl⟩)
  · exact .inr ⟨rfl, rfl⟩

theorem meaning?_withProgram_of_lt {id : ObjectId} (h : id.index < t.objects.size) :
    (t.withProgram name loc).meaning? id = t.meaning? id := by
  rw [meaning?, object?_withProgram_of_lt name loc h, meaning?]

theorem objectsIn_withProgram (a : ScopeId) :
    (t.withProgram name loc).objectsIn a = t.objectsIn a := by
  by_cases old : a.index < t.scopes.size
  · rw [objectsIn, scope?_withProgram_of_lt name loc old, objectsIn]
  · rw [objectsIn, objectsIn, scope?_eq_none (t := t) (Nat.le_of_not_lt old)]
    cases found : (t.withProgram name loc).scope? a with
    | none => rfl
    | some s =>
      rcases scope?_withProgram_cases name loc found with before | ⟨_, rfl⟩
      · exact absurd (scope?_lt before) old
      · rfl

theorem namesIn_withProgram (valid : t.Valid) (a : ScopeId) :
    (t.withProgram name loc).namesIn a = t.namesIn a := by
  rw [namesIn, objectsIn_withProgram]
  exact valid.namesIn_eq fun old => by rw [name?, object?_withProgram_of_lt name loc old, name?]

theorem Linked.withProgram (linked : t.Linked) (valid : t.Valid) :
    (t.withProgram name loc).Linked := by
  have kept {id : ObjectId} {a : ScopeId} (member : id ∈ t.objectsIn a) :
      (t.withProgram name loc).meaning? id = t.meaning? id :=
    meaning?_withProgram_of_lt name loc (valid.listed member)
  have scopeKept {id : ObjectId} {meaning : Meaning} {inside : ScopeId}
      (found : t.meaning? id = some meaning) (owned : meaning.ownedScope? = some inside) :
      (t.withProgram name loc).scope? inside = t.scope? inside :=
    scope?_withProgram_of_lt name loc (owner?_lt (linked.owner found owned))
  constructor
  case distinct =>
    intro a
    rw [namesIn_withProgram name loc valid]
    exact linked.distinct a
  case builtins =>
    intro id member
    have bound := linked.builtins member
    simp only [Table.withProgram, Array.size_push]
    omega
  case declared =>
    intro id a member
    rw [objectsIn_withProgram] at member
    rw [kept member]
    exact linked.declared member
  case once =>
    intro id a b inA inB
    rw [objectsIn_withProgram] at inA inB
    exact linked.once inA inB
  case listed =>
    intro id meaning found kind unlisted
    rcases meaning?_withProgram_cases name loc found with before | ⟨rfl, rfl⟩
    · obtain ⟨a, member⟩ := linked.listed before kind unlisted
      exact ⟨a, by rwa [objectsIn_withProgram]⟩
    · cases kind
  case owner =>
    intro id meaning inside found owned
    rcases meaning?_withProgram_cases name loc found with before | ⟨rfl, rfl⟩
    · rw [owner?, scopeKept before owned]
      exact linked.owner before owned
    · obtain rfl := Option.some.inj owned
      exact owner?_eq_some.mpr ⟨_, scope?_withProgram name loc, rfl⟩
  case around =>
    intro id meaning inside found owned
    rcases meaning?_withProgram_cases name loc found with before | ⟨rfl, rfl⟩
    · have same : (t.withProgram name loc).outer? inside = t.outer? inside := by
        rw [outer?, scopeKept before owned, outer?]
      rw [same, withProgram_builtins]
      simpa only [objectsIn_withProgram] using linked.around before owned
    · obtain rfl := Option.some.inj owned
      rw [if_pos (.inl rfl), outer?, scope?_withProgram]
      rfl
  case params =>
    intro id meaning inside found routine owned
    rcases meaning?_withProgram_cases name loc found with before | ⟨rfl, rfl⟩
    · obtain ⟨rest, objects, params, others⟩ := linked.params before routine owned
      refine ⟨rest, by rw [objectsIn_withProgram, objects], ?_, ?_⟩
      · intro p member
        rw [kept (objects ▸ List.mem_append_left _ member)]
        exact params p member
      · intro r member
        rw [kept (objects ▸ List.mem_append_right _ member)]
        exact others r member
    · cases routine

theorem Linked.moved (linked : t.Linked) (current : Option ScopeId) : (t.moved current).Linked :=
  ⟨linked.distinct, linked.builtins, linked.declared, linked.once, linked.listed, linked.owner,
    linked.around, linked.params⟩

end Program

theorem Linked.extend (linked : t.Linked) (valid : t.Valid) (contents : Contents)
    (known : scope.index < t.scopes.size) (fresh : contents.Fresh (t.namesIn scope)) :
    (t.extend scope contents).Linked :=
  (extend_induction (P := Linked)
    (fun name loc what valid linked known new => linked.plain name loc what valid known new)
    (fun name loc header valid linked known new distinct =>
      linked.routine name loc header valid known new distinct) contents valid linked known fresh).2

end Table

end Kpl
