import Kpl.Proofs.Contents.Roots
import Mathlib.Data.List.Nodup

namespace Kpl

namespace Table

variable {t : Table}

def isParam (t : Table) (id : ObjectId) : Bool := ((t.meaning? id).map (·.isParam)).getD false

/-- The numbers 0 to 6, and the scopes 0 to 4, are those of the builtins and their parameters. -/
structure Consistent (t : Table) : Prop where
  names : ∀ scope, (t.objectsIn scope).Pairwise fun a b => t.name? a ≠ t.name? b
  /-- An object is listed in one scope and once there, unless it is a program or a builtin. -/
  listed : ∀ {id meaning}, t.meaning? id = some meaning → meaning.isProgram = false →
    id ∉ t.builtins → ∃ scope, (t.objectsIn scope).count id = 1 ∧
      ∀ other, id ∈ t.objectsIn other → other = scope
  unlisted : ∀ {id meaning}, t.meaning? id = some meaning → meaning.isProgram ∨ id ∈ t.builtins →
    ∀ scope, id ∉ t.objectsIn scope
  /-- The scope around the scope of a routine is the one that lists the routine, if one does. -/
  owner : ∀ {id meaning scope}, t.meaning? id = some meaning → meaning.ownedScope? = some scope →
    t.owner? scope = some id ∧ ∀ outer, t.outer? scope = some outer ↔ id ∈ t.objectsIn outer
  /-- The parameters of a routine are those of its scope, and come first there. -/
  params : ∀ {id meaning scope}, t.meaning? id = some meaning → meaning.isRoutine →
    meaning.ownedScope? = some scope →
      meaning.params = (t.objectsIn scope).takeWhile t.isParam ∧
      meaning.params = (t.objectsIn scope).filter t.isParam ∧
      ∀ p ∈ meaning.params, ∃ mode ty, t.meaning? p = some (.param mode ty id)
  sizes : 7 ≤ t.objects.size ∧ 5 ≤ t.scopes.size
  /-- The walks over the programs meet all other objects, in order and once. -/
  preorders : t.programs.flatMap t.preorder =
    (List.range' 7 (t.objects.size - 7)).map ObjectId.mk
  scopes : (t.programs.flatMap t.preorder).filterMap (fun id => t.meaning? id >>= (·.ownedScope?)) =
    (List.range' 5 (t.scopes.size - 5)).map ScopeId.mk
  /-- No walk is cut short by its bound. -/
  walks : ∀ (id : ObjectId) (depth levels : Nat), t.scopes.size < levels →
    t.walk levels depth id = t.walk (t.scopes.size + 1) depth id
  /-- The listing has one line for each object that the walk over the last program meets. -/
  listing : ∀ {id}, t.program = some id → id ∈ t.programs ∧ (t.preorder id).Nodup ∧
    ∃ lines : List (Nat × Object), lines.map (fun line => some line.2) = (t.preorder id).map t.object? ∧
      lines.map (·.1) = (t.outline id).map (·.1) ∧
      t.render = .join (lines.map fun (depth, o) =>
        blanks (indentStep * depth) ++ o.listing ++ "\n")

theorem Linked.pairwise (linked : t.Linked) (scope : ScopeId) :
    (t.objectsIn scope).Pairwise fun a b => t.name? a ≠ t.name? b := by
  have distinct := linked.distinct scope
  have known : ∀ id ∈ t.objectsIn scope, ∃ name, t.name? id = some name := by
    intro id member
    obtain ⟨_, meaning, found, _⟩ := linked.declared member
    obtain ⟨o, object, _⟩ := meaning?_eq_some.mp found
    exact ⟨o.name, by rw [name?, object]; rfl⟩
  rw [namesIn] at distinct
  generalize t.objectsIn scope = ids at distinct known
  induction ids with
  | nil => exact .nil
  | cons id ids ih =>
    obtain ⟨name, named⟩ := known id List.mem_cons_self
    rw [List.filterMap_cons, named, List.nodup_cons] at distinct
    refine .cons (fun other member same => ?_)
      (ih distinct.2 fun other member => known other (List.mem_cons_of_mem _ member))
    exact distinct.1 (List.mem_filterMap.mpr ⟨other, member, same ▸ named⟩)

theorem Linked.listed_once (linked : t.Linked) {id : ObjectId} {meaning : Meaning}
    (found : t.meaning? id = some meaning) (sort : meaning.isProgram = false)
    (user : id ∉ t.builtins) : ∃ scope, (t.objectsIn scope).count id = 1 ∧
      ∀ other, id ∈ t.objectsIn other → other = scope := by
  obtain ⟨scope, member⟩ := linked.listed found sort user
  have nodup : (t.objectsIn scope).Nodup :=
    (linked.pairwise scope).imp fun differ same => differ (congrArg t.name? same)
  exact ⟨scope, List.count_eq_one_of_mem nodup member, fun other elsewhere =>
    linked.once elsewhere member⟩

theorem Linked.unlisted (linked : t.Linked) {id : ObjectId} {meaning : Meaning}
    (found : t.meaning? id = some meaning) (alone : meaning.isProgram ∨ id ∈ t.builtins)
    (scope : ScopeId) : id ∉ t.objectsIn scope := by
  intro member
  obtain ⟨user, meaning', found', sort⟩ := linked.declared member
  obtain rfl := Option.some.inj (found.symm.trans found')
  rcases alone with program | builtin
  · rw [sort] at program
    cases program
  · exact user builtin

theorem Linked.outer_iff (linked : t.Linked) {id : ObjectId} {meaning : Meaning} {scope : ScopeId}
    (found : t.meaning? id = some meaning) (owned : meaning.ownedScope? = some scope)
    (outer : ScopeId) : t.outer? scope = some outer ↔ id ∈ t.objectsIn outer := by
  have around := linked.around found owned
  split at around
  · rename_i alone
    rw [around]
    exact ⟨nofun, fun member => absurd member (linked.unlisted found alone outer)⟩
  · obtain ⟨parent, around, member⟩ := around
    rw [around]
    constructor
    · intro same
      exact Option.some.inj same ▸ member
    · intro elsewhere
      rw [linked.once elsewhere member]

theorem Linked.params_eq (linked : t.Linked) {id : ObjectId} {meaning : Meaning} {scope : ScopeId}
    (found : t.meaning? id = some meaning) (routine : meaning.isRoutine)
    (owned : meaning.ownedScope? = some scope) :
    meaning.params = (t.objectsIn scope).takeWhile t.isParam ∧
      meaning.params = (t.objectsIn scope).filter t.isParam ∧
      ∀ p ∈ meaning.params, ∃ mode ty, t.meaning? p = some (.param mode ty id) := by
  obtain ⟨rest, objects, params, others⟩ := linked.params found routine owned
  have yes : ∀ p ∈ meaning.params, t.isParam p = true := by
    intro p member
    obtain ⟨mode, ty, meant⟩ := params p member
    rw [isParam, meant]
    rfl
  have no : ∀ r ∈ rest, t.isParam r = false := by
    intro r member
    obtain ⟨other, meant, sort⟩ := others r member
    rw [isParam, meant]
    exact sort
  refine ⟨?_, ?_, params⟩
  · rw [objects, List.takeWhile_append_of_pos yes]
    cases rest with
    | nil => simp
    | cons r rest => simp [no r List.mem_cons_self]
  · have none : rest.filter t.isParam = [] :=
      List.filter_eq_nil_iff.mpr fun r member => by simp [no r member]
    rw [objects, List.filter_append, List.filter_eq_self.mpr yes, none, List.append_nil]

theorem Linked.younger (linked : t.Linked) (valid : t.Valid) {scope inner : ScopeId} {id : ObjectId}
    (member : id ∈ t.objectsIn scope) (owned : t.meaning? id >>= (·.ownedScope?) = some inner) :
    scope.index < inner.index ∧ inner.index < t.scopes.size := by
  obtain ⟨meaning, found, owned⟩ := Option.bind_eq_some_iff.mp owned
  exact ⟨valid.outer ((linked.outer_iff found owned scope).mpr member),
    owner?_lt (linked.owner found owned)⟩

/-- On the way down every scope is younger than the one before, so the number of scopes behind the
    first one bounds the depth. -/
theorem Linked.walk_eq (linked : t.Linked) (valid : t.Valid) (rank : Nat) {id : ObjectId}
    (bound : ∀ scope, t.meaning? id >>= (·.ownedScope?) = some scope →
      scope.index < t.scopes.size ∧ t.scopes.size - scope.index ≤ rank) {levels levels' : Nat}
    (deep : rank < levels) (deep' : rank < levels') (depth : Nat) :
    t.walk levels depth id = t.walk levels' depth id := by
  induction rank generalizing id levels levels' depth with
  | zero =>
    obtain ⟨levels, rfl⟩ : ∃ l, levels = l + 1 := ⟨levels - 1, by omega⟩
    obtain ⟨levels', rfl⟩ : ∃ l, levels' = l + 1 := ⟨levels' - 1, by omega⟩
    rw [walk, walk]
    split
    · rename_i scope owned
      have inside := bound scope owned
      omega
    · rfl
  | succ rank ih =>
    obtain ⟨levels, rfl⟩ : ∃ l, levels = l + 1 := ⟨levels - 1, by omega⟩
    obtain ⟨levels', rfl⟩ : ∃ l, levels' = l + 1 := ⟨levels' - 1, by omega⟩
    rw [walk, walk]
    split
    · rename_i scope owned
      have inside := bound scope owned
      congr 1
      refine List.flatMap_congr fun child member => ih (fun inner owned => ?_) (by omega) (by omega) _
      have younger := linked.younger valid member owned
      omega
    · rfl

theorem Linked.walks (linked : t.Linked) (valid : t.Valid) (id : ObjectId) (depth : Nat)
    {levels : Nat} (deep : t.scopes.size < levels) :
    t.walk levels depth id = t.walk (t.scopes.size + 1) depth id := by
  refine linked.walk_eq valid t.scopes.size (fun scope owned => ?_) deep
    (Nat.lt_succ_self _) depth
  obtain ⟨meaning, found, owned⟩ := Option.bind_eq_some_iff.mp owned
  exact ⟨owner?_lt (linked.owner found owned), Nat.sub_le _ _⟩

theorem lines_of_entries {entries : List (Nat × ObjectId)}
    (known : ∀ other ∈ entries.map (·.2), ∃ o, t.object? other = some o) :
    ∃ lines : List (Nat × Object),
      lines.map (fun line => some line.2) = (entries.map (·.2)).map t.object? ∧
      lines.map (·.1) = entries.map (·.1) ∧
      (entries.map fun entry => match t.object? entry.2 with
        | some o => blanks (0 + indentStep * entry.1) ++ o.listing ++ "\n"
        | none => "") = lines.map fun (depth, o) =>
        blanks (indentStep * depth) ++ o.listing ++ "\n" := by
  induction entries with
  | nil => exact ⟨[], rfl, rfl, rfl⟩
  | cons entry entries ih =>
    obtain ⟨o, found⟩ := known entry.2 List.mem_cons_self
    obtain ⟨lines, objects, depths, same⟩ :=
      ih fun other member => known other (List.mem_cons_of_mem _ member)
    refine ⟨(entry.1, o) :: lines, ?_, ?_, ?_⟩
    · rw [List.map_cons, objects, List.map_cons, List.map_cons, found]
    · rw [List.map_cons, depths, List.map_cons]
    · rw [List.map_cons, same, List.map_cons, found, Nat.zero_add]

theorem render_of_program {id : ObjectId} (last : t.program = some id)
    (known : ∀ other ∈ t.preorder id, ∃ o, t.object? other = some o) :
    ∃ lines : List (Nat × Object),
      lines.map (fun line => some line.2) = (t.preorder id).map t.object? ∧
      lines.map (·.1) = (t.outline id).map (·.1) ∧
      t.render = .join (lines.map fun (depth, o) =>
        blanks (indentStep * depth) ++ o.listing ++ "\n") := by
  obtain ⟨lines, objects, depths, same⟩ := lines_of_entries known
  refine ⟨lines, objects, depths, ?_⟩
  rw [render, last]
  exact congrArg String.join same

structure Planted (t : Table) : Prop where
  valid : t.Valid
  linked : t.Linked
  laid : ∃ roots, t.Laid 7 5 roots
  builtins : ∀ i, i < 7 → t.isProgram ⟨i⟩ = false
  program : ∀ {id}, t.program = some id → t.isProgram id = true

theorem Planted.programs (planted : t.Planted) :
    t.programs = t.programsFrom 7 (t.objects.size - 7) := by
  obtain ⟨roots, laid⟩ := planted.laid
  have split : t.objects.size = 7 + (t.objects.size - 7) := by
    have bounds := laid.bounds
    omega
  have none : t.programsFrom 0 7 = [] := programsFrom_nil fun i inside => by
    rw [Nat.zero_add]
    exact planted.builtins i inside
  rw [Table.programs, split, programsFrom_add, none, List.nil_append, ← split]

theorem mem_programs {id : ObjectId} (h : t.isProgram id = true) : id ∈ t.programs := by
  refine List.mem_filter.mpr ⟨?_, h⟩
  cases found : t.meaning? id with
  | none => simp [isProgram, found] at h
  | some meaning =>
    obtain ⟨o, object, _⟩ := meaning?_eq_some.mp found
    exact List.mem_map.mpr ⟨id.index, List.mem_range'.mpr ⟨id.index, object?_lt object, by simp⟩, rfl⟩

theorem Planted.consistent (planted : t.Planted) : t.Consistent := by
  obtain ⟨roots, laid⟩ := planted.laid
  have preorders := laid.preorders
  rw [← planted.programs] at preorders
  constructor
  case names => exact planted.linked.pairwise
  case listed => exact planted.linked.listed_once
  case unlisted => exact planted.linked.unlisted
  case owner =>
    intro id meaning scope found owned
    exact ⟨planted.linked.owner found owned, planted.linked.outer_iff found owned⟩
  case params => exact planted.linked.params_eq
  case sizes => exact laid.bounds
  case preorders => exact preorders
  case scopes =>
    rw [preorders, List.filterMap_map]
    exact laid.scopes
  case walks => exact fun id depth levels deep => planted.linked.walks planted.valid id depth deep
  case listing =>
    intro id last
    have member := mem_programs (planted.program last)
    have nodup : (t.programs.flatMap t.preorder).Nodup := by
      have distinct : (List.range' 7 (t.objects.size - 7)).Nodup := List.nodup_range'
      rw [preorders]
      exact distinct.map fun a b same => congrArg ObjectId.index same
    refine ⟨member, (List.nodup_flatMap.mp nodup).1 id member, render_of_program last ?_⟩
    intro other inside
    have bound : other ∈ (List.range' 7 (t.objects.size - 7)).map ObjectId.mk := by
      rw [← preorders]
      exact List.mem_flatMap.mpr ⟨id, member, inside⟩
    obtain ⟨i, within, rfl⟩ := List.mem_map.mp bound
    obtain ⟨j, below, rfl⟩ := List.mem_range'.mp within
    exact ⟨_, Array.getElem?_eq_getElem (by simp only; omega)⟩

end Table

end Kpl
