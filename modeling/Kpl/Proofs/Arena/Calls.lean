import Kpl.Proofs.Arena.Sound

namespace Kpl

namespace Table

variable {t : Table}

theorem initial_sound : Table.initial.Sound where
  objects mentions := by
    cases mentions with
    | param found member => exact initial_valid.params (mem_params.mpr ⟨_, found, member⟩)
    | routine found named =>
      have bounded : ∀ o ∈ Table.initial.objects, ∀ r ∈ o.meaning.routine?,
          r.index < Table.initial.objects.size := by decide
      exact bounded _ (Array.mem_of_getElem? found) _ named
    | owner found owned =>
      have bounded : ∀ s ∈ Table.initial.scopes, ∀ id ∈ s.owner,
          id.index < Table.initial.objects.size := by decide
      exact bounded _ (Array.mem_of_getElem? found) _ owned
    | listed found member => exact initial_valid.listed (mem_objectsIn.mpr ⟨_, found, member⟩)
    | builtin member => exact initial_linked.builtins member
    | program last => cases last
  scopes mentions := by
    cases mentions with
    | owned found owned =>
      have bounded : ∀ o ∈ Table.initial.objects, ∀ x ∈ o.meaning.ownedScope?,
          x.index < Table.initial.scopes.size := by decide
      exact bounded _ (Array.mem_of_getElem? found) _ owned
    | outer found around =>
      have inside := initial_valid.outer (outer?_eq_some.mpr ⟨_, found, around⟩)
      exact Nat.lt_trans inside (scope?_lt found)
    | current here => cases here
  outer := initial_valid.outer
  once := initial_linked.once
  increasing x := by
    obtain ⟨i⟩ := x
    match i with
    | 0 | 1 | 2 | 3 | 4 => decide
    | i + 5 => exact .nil
  params {id o} found routine := by
    have known : id.index < 7 := object?_lt found
    obtain ⟨i⟩ := id
    match i, known with
    | 0, _ | 1, _ | 2, _ | 4, _ | 6, _ =>
      cases found
      decide
    | 3, _ | 5, _ =>
      cases found
      cases routine

theorem Sound.moved (sound : t.Sound) {current : Option ScopeId}
    (known : ∀ x ∈ current, x.index < t.scopes.size) : (t.moved current).Sound where
  objects mentions := by
    cases mentions with
    | param found member => exact sound.objects (.param found member)
    | routine found named => exact sound.objects (.routine found named)
    | owner found owned => exact sound.objects (.owner found owned)
    | listed found member => exact sound.objects (.listed found member)
    | builtin member => exact sound.objects (.builtin member)
    | program last => exact sound.objects (.program last)
  scopes mentions := by
    cases mentions with
    | owned found owned => exact sound.scopes (.owned found owned)
    | outer found around => exact sound.scopes (.outer found around)
    | current here => exact known _ here
  outer := sound.outer
  once := sound.once
  increasing := sound.increasing
  params := sound.params

theorem scope?_addScope_cases {s s' : Scope} {x : ScopeId}
    (h : (t.addScope s).scope? x = some s') : x.index = t.scopes.size ∧ s' = s ∨
      t.scope? x = some s' := by
  rw [scope?_addScope] at h
  split at h
  · exact .inl ⟨‹_›, (Option.some.inj h).symm⟩
  · exact .inr h

theorem objectsIn_addScope (owner : Option ObjectId) (outer : Option ScopeId) (x : ScopeId) :
    (t.addScope ⟨owner, outer, []⟩).objectsIn x = t.objectsIn x := by
  rw [objectsIn, objectsIn, scope?_addScope]
  split
  · rename_i new
    rw [scope?_eq_none (Nat.le_of_eq new.symm)]
    rfl
  · rfl

@[simp] theorem addScope_scopes_size (s : Scope) :
    (t.addScope s).scopes.size = t.scopes.size + 1 := Array.size_push ..

theorem Sound.addScope (sound : t.Sound) {owner : Option ObjectId} {outer : Option ScopeId}
    (owns : ∀ id ∈ owner, id.index < t.objects.size)
    (around : ∀ x ∈ outer, x.index < t.scopes.size) :
    (t.addScope ⟨owner, outer, []⟩).Sound where
  objects mentions := by
    cases mentions with
    | param found member => exact sound.objects (.param found member)
    | routine found named => exact sound.objects (.routine found named)
    | owner found owned =>
      rcases scope?_addScope_cases found with ⟨_, rfl⟩ | old
      · exact owns _ owned
      · exact sound.objects (.owner old owned)
    | listed found member =>
      rcases scope?_addScope_cases found with ⟨_, rfl⟩ | old
      · cases member
      · exact sound.objects (.listed old member)
    | builtin member => exact sound.objects (.builtin member)
    | program last => exact sound.objects (.program last)
  scopes mentions := by
    rw [addScope_scopes_size]
    cases mentions with
    | owned found owned => exact Nat.lt_succ_of_lt (sound.scopes (.owned found owned))
    | outer found inside =>
      rcases scope?_addScope_cases found with ⟨_, rfl⟩ | old
      · exact Nat.lt_succ_of_lt (around _ inside)
      · exact Nat.lt_succ_of_lt (sound.scopes (.outer old inside))
    | current here => exact Nat.lt_succ_of_lt (sound.scopes (.current here))
  outer inside := by
    obtain ⟨s, found, inside⟩ := outer?_eq_some.mp inside
    rcases scope?_addScope_cases found with ⟨new, rfl⟩ | old
    · rw [new]
      exact around _ inside
    · exact sound.outer (outer?_eq_some.mpr ⟨s, old, inside⟩)
  once inA inB := by
    rw [objectsIn_addScope] at inA inB
    exact sound.once inA inB
  increasing x := by
    rw [objectsIn_addScope]
    exact sound.increasing x
  params := sound.params

theorem Sound.withProgram (sound : t.Sound) (name : String) (loc : Loc) :
    (t.withProgram name loc).Sound where
  objects mentions := by
    have new : t.nextObject.index < t.objects.size + 1 := Nat.lt_succ_self _
    rw [withProgram_objects_size]
    cases mentions with
    | param found member =>
      rcases object?_withProgram_cases name loc found with old | ⟨_, rfl⟩
      · exact Nat.lt_succ_of_lt (sound.objects (.param old member))
      · cases member
    | routine found named =>
      rcases object?_withProgram_cases name loc found with old | ⟨_, rfl⟩
      · exact Nat.lt_succ_of_lt (sound.objects (.routine old named))
      · cases named
    | owner found owned =>
      rcases scope?_withProgram_cases name loc found with old | ⟨_, rfl⟩
      · exact Nat.lt_succ_of_lt (sound.objects (.owner old owned))
      · cases owned
        exact new
    | listed found member =>
      rcases scope?_withProgram_cases name loc found with old | ⟨_, rfl⟩
      · exact Nat.lt_succ_of_lt (sound.objects (.listed old member))
      · cases member
    | builtin member => exact Nat.lt_succ_of_lt (sound.objects (.builtin member))
    | program last =>
      cases last
      exact new
  scopes mentions := by
    rw [withProgram_scopes_size]
    cases mentions with
    | owned found owned =>
      rcases object?_withProgram_cases name loc found with old | ⟨_, rfl⟩
      · exact Nat.lt_succ_of_lt (sound.scopes (.owned old owned))
      · cases owned
        exact Nat.lt_succ_self _
    | outer found inside =>
      rcases scope?_withProgram_cases name loc found with old | ⟨_, rfl⟩
      · exact Nat.lt_succ_of_lt (sound.scopes (.outer old inside))
      · cases inside
    | current here => exact Nat.lt_succ_of_lt (sound.scopes (.current here))
  outer inside := by
    obtain ⟨s, found, inside⟩ := outer?_eq_some.mp inside
    rcases scope?_withProgram_cases name loc found with old | ⟨_, rfl⟩
    · exact sound.outer (outer?_eq_some.mpr ⟨s, old, inside⟩)
    · cases inside
  once inA inB := by
    rw [objectsIn_withProgram] at inA inB
    exact sound.once inA inB
  increasing x := by
    rw [objectsIn_withProgram]
    exact sound.increasing x
  params {id o} found routine := by
    have new : (t.withProgram name loc).routine? t.nextObject = none :=
      routine?_of_object (object?_withProgram name loc)
    rw [paramsOf_push (withProgram_objects_size t name loc), new]
    · rcases object?_withProgram_cases name loc found with old | ⟨_, rfl⟩
      · rw [sound.params old routine]
        simp
      · cases routine
    · intro p old
      rw [routine?, meaning?, object?_withProgram_of_lt name loc old]
      rfl

theorem setReturns_objects_size (id : ObjectId) (ty : Ty) :
    (t.setReturns id ty).objects.size = t.objects.size := Array.size_modify

theorem object?_setReturns_cases {id i : ObjectId} {ty : Ty} {o : Object}
    (h : (t.setReturns id ty).object? i = some o) : ∃ before, t.object? i = some before ∧
      o.meaning.params = before.meaning.params ∧ o.meaning.routine? = before.meaning.routine? ∧
      o.meaning.ownedScope? = before.meaning.ownedScope? ∧
      o.meaning.isRoutine = before.meaning.isRoutine := by
  rw [setReturns, object?_modifyMeaning] at h
  split at h
  · obtain ⟨before, found, rfl⟩ := Option.map_eq_some_iff.mp h
    refine ⟨before, found, ?_⟩
    dsimp only
    cases before.meaning <;> exact ⟨rfl, rfl, rfl, rfl⟩
  · exact ⟨o, h, rfl, rfl, rfl, rfl⟩

theorem Sound.setReturns (sound : t.Sound) (id : ObjectId) (ty : Ty) :
    (t.setReturns id ty).Sound where
  objects mentions := by
    rw [setReturns_objects_size]
    cases mentions with
    | param found member =>
      obtain ⟨before, old, params, _⟩ := object?_setReturns_cases found
      exact sound.objects (.param old (params ▸ member))
    | routine found named =>
      obtain ⟨before, old, _, routine, _⟩ := object?_setReturns_cases found
      exact sound.objects (.routine old (routine ▸ named))
    | owner found owned => exact sound.objects (.owner found owned)
    | listed found member => exact sound.objects (.listed found member)
    | builtin member => exact sound.objects (.builtin member)
    | program last => exact sound.objects (.program last)
  scopes mentions := by
    cases mentions with
    | owned found owned =>
      obtain ⟨before, old, _, _, owns, _⟩ := object?_setReturns_cases found
      exact sound.scopes (.owned old (owns ▸ owned))
    | outer found around => exact sound.scopes (.outer found around)
    | current here => exact sound.scopes (.current here)
  outer := sound.outer
  once := sound.once
  increasing := sound.increasing
  params {i o} found routine := by
    obtain ⟨before, old, params, _, _, same⟩ := object?_setReturns_cases found
    rw [params, sound.params old (same ▸ routine), paramsOf_same (setReturns_objects_size id ty)]
    intro p
    rw [routine?, meaning?, Table.setReturns, object?_modifyMeaning]
    split
    · cases found : t.object? p with
      | none => simp [routine?, meaning?, found]
      | some q =>
        rw [routine?_of_object found]
        obtain ⟨_, _, m⟩ := q
        cases m <;> rfl
    · rfl

end Table

namespace Arena

structure Sound (a : Arena) : Prop where
  table : a.table.Sound
  drafts : ∀ o ∈ a.drafts, a.table.Draft o

theorem Sound.draft {t : Table} {drafts : List Object} {o : Object} (sound : Sound ⟨t, drafts⟩)
    (draft : t.Draft o) : Sound ⟨t, o :: drafts⟩ :=
  ⟨sound.table, List.forall_mem_cons.mpr ⟨draft, sound.drafts⟩⟩

theorem Sound.grow {t u : Table} {drafts : List Object} (sound : Sound ⟨t, drafts⟩)
    (table : u.Sound) (objects : t.objects.size ≤ u.objects.size)
    (scopes : t.scopes.size ≤ u.scopes.size) : Sound ⟨u, drafts⟩ :=
  ⟨table, fun o member => (sound.drafts o member).mono objects scopes⟩

theorem Sound.routine {t : Table} {drafts : List Object} (sound : Sound ⟨t, drafts⟩)
    {o : Object} (plain : o.meaning.routine? = none) (owned : o.meaning.ownedScope? = some t.nextScope)
    (params : o.meaning.params = []) : Sound ⟨t.addScope ⟨none, t.current, []⟩, o :: drafts⟩ := by
  have table : (t.addScope ⟨none, t.current, []⟩).Sound :=
    sound.table.addScope nofun fun x here => sound.table.scopes (.current here)
  refine (sound.grow table (Nat.le_refl _) (by simp)).draft ⟨?_, ?_, params⟩
  · rw [plain]
    nofun
  · rw [owned, Table.addScope_scopes_size]
    intro x new
    cases new
    exact Nat.lt_succ_self _

theorem Sound.step {a b : Arena} (sound : a.Sound) (h : Step a b) : b.Sound := by
  cases h with
  | program name loc =>
    rw [Table.createProgram_eq]
    refine sound.grow (sound.table.withProgram name loc) ?_ ?_
    · rw [Table.withProgram_objects_size]
      exact Nat.le_succ _
    · rw [Table.withProgram_scopes_size]
      exact Nat.le_succ _
  | scope owner outer owns around =>
    refine sound.grow (sound.table.addScope owns around) (Nat.le_refl _) ?_
    rw [Table.createScope, Table.addScope_scopes_size]
    exact Nat.le_succ _
  | plain name loc what =>
    refine sound.draft ?_
    cases what <;> exact ⟨by rintro _ ⟨⟩, by rintro _ ⟨⟩, rfl⟩
  | function name loc => exact sound.routine rfl rfl rfl
  | procedure name loc => exact sound.routine rfl rfl rfl
  | param name mode ty loc made =>
    rw [Table.createParam] at made
    split at made
    · rename_i routine owner
      split at made
      · cases made
        obtain ⟨x, _, owned⟩ := Option.bind_eq_some_iff.mp owner
        obtain ⟨s, found, owned⟩ := Table.owner?_eq_some.mp owned
        refine sound.draft ⟨?_, by rintro _ ⟨⟩, rfl⟩
        rintro r ⟨⟩
        exact sound.table.objects (.owner found owned)
      · cases made
    · cases made
  | paramOf name loc mode ty routine known =>
    refine sound.draft ⟨?_, by rintro _ ⟨⟩, rfl⟩
    rintro r ⟨⟩
    exact known
  | declare member declared =>
    obtain ⟨scope, _, rfl⟩ := Table.declare_eq_ok declared
    refine sound.grow (sound.table.declareIn (sound.drafts _ member)) ?_ ?_
    · rw [Table.declareIn_objects_size]
      exact Nat.le_succ _
    · exact Nat.le_of_eq (Table.declareIn_scopes_size ..).symm
  | setReturns id ty _ =>
    refine sound.grow (sound.table.setReturns id ty) ?_ (Nat.le_refl _)
    exact Nat.le_of_eq (Table.setReturns_objects_size ..).symm
  | enter scope known =>
    refine sound.grow (sound.table.moved ?_) (Nat.le_refl _) (Nat.le_refl _)
    rintro x ⟨⟩
    exact known
  | exit left =>
    obtain ⟨scope, _, rfl⟩ := Table.exit_eq_ok left
    refine sound.grow (sound.table.moved fun x around => ?_) (Nat.le_refl _) (Nat.le_refl _)
    obtain ⟨s, found, around⟩ := Table.outer?_eq_some.mp around
    exact sound.table.scopes (.outer found around)

theorem Reached.sound {a : Arena} (reached : Reached a) : a.Sound := by
  induction reached with
  | initial => exact ⟨Table.initial_sound, nofun⟩
  | step _ call ih => exact ih.step call

/-- Whatever a client does, the table is sound, and no call takes anything of its objects away. -/
theorem Reached.invariant {a : Arena} (reached : Reached a) :
    a.table.Sound ∧ ∀ b, Step a b → a.table.GrowsTo b.table :=
  ⟨reached.sound.table, fun _ call => call.growsTo⟩

/-- A procedure that is declared twice, and a parameter of the first of the two that is declared
    elsewhere. -/
theorem Reached.invariant_redeclared :
    let t := ((Table.initial.createProgram "P" .start).2.enter ⟨5⟩).createProcedure "F" .start
    let u := ((t.2.declareIn ⟨5⟩ t.1).2.declareIn ⟨5⟩ t.1).2
    let p : Object := ⟨"x", none, .param .value .int ⟨8⟩⟩
    let a : Arena := ⟨(u.declareIn ⟨5⟩ p).2, [p, t.1]⟩
    Reached a ∧ a.table.Sound ∧ ∀ b, Step a b → a.table.GrowsTo b.table := by
  intro t u p a
  have reached : Reached a := by
    have program := Reached.initial.step (.program "P" .start)
    have inside := program.step (.enter ⟨5⟩ (by decide))
    have drafted := inside.step (.procedure "F" .start)
    have once := drafted.step (.declare List.mem_cons_self rfl)
    have twice := once.step (.declare List.mem_cons_self rfl)
    have named := twice.step (.paramOf "x" none .value .int ⟨8⟩ (by decide))
    exact named.step (.declare List.mem_cons_self rfl)
  exact ⟨reached, reached.invariant⟩

end Arena

end Kpl
