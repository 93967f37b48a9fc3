import Kpl.Table.Outline
import Kpl.Proofs.Contents.Linked

namespace Kpl

def Placed {α : Type} (f : Nat → Option α) (n : Nat) (l : List α) : Prop :=
  ∀ i a, l[i]? = some a → f (n + i) = some a

section Placed

variable {α : Type} {f : Nat → Option α} {n : Nat}

theorem placed_nil : Placed f n [] := nofun

theorem placed_cons {a : α} {l : List α} :
    Placed f n (a :: l) ↔ f n = some a ∧ Placed f (n + 1) l := by
  constructor
  · intro h
    refine ⟨h 0 a rfl, fun i b found => ?_⟩
    rw [Nat.add_assoc, Nat.add_comm 1 i]
    exact h (i + 1) b found
  · rintro ⟨first, rest⟩ i b found
    cases i with
    | zero => exact Option.some.inj found ▸ first
    | succ i =>
      have next := rest i b found
      rwa [Nat.add_assoc, Nat.add_comm 1 i] at next

theorem placed_append {l l' : List α} :
    Placed f n (l ++ l') ↔ Placed f n l ∧ Placed f (n + l.length) l' := by
  induction l generalizing n with
  | nil => simp [placed_nil]
  | cons a l ih =>
    simp only [List.cons_append, placed_cons, ih, List.length_cons, and_assoc]
    rw [Nat.add_assoc, Nat.add_comm 1 l.length]

theorem Placed.filterMap {β : Type} {l : List α} (h : Placed f n l) (g : α → Option β) :
    (List.range' n l.length).filterMap (fun i => f i >>= g) = l.filterMap g := by
  induction l generalizing n with
  | nil => rfl
  | cons a l ih =>
    obtain ⟨first, rest⟩ := placed_cons.mp h
    rw [List.length_cons, List.range'_succ, List.filterMap_cons, List.filterMap_cons, ih rest,
      first]
    rfl

end Placed

theorem range'_one_add (n k : Nat) : List.range' n (1 + k) = n :: List.range' (n + 1) k := by
  rw [Nat.add_comm, List.range'_succ]

namespace Contents

def outline (n depth : Nat) : Contents → List (Nat × ObjectId)
  | nil => []
  | plain _ _ _ rest => (depth, ⟨n⟩) :: rest.outline (n + 1) depth
  | routine _ _ header inside rest =>
    (depth, ⟨n⟩) :: ((header.ids (n + 1)).map (depth + 1, ·) ++
      (inside.outline (n + 1 + header.params.length) (depth + 1) ++
        rest.outline (n + 1 + header.params.length + inside.objectCount) depth))

theorem outline_ids (n depth : Nat) (contents : Contents) :
    (contents.outline n depth).map (·.2) =
      (List.range' n contents.objectCount).map ObjectId.mk := by
  induction contents generalizing n depth with
  | nil => rfl
  | plain name loc what rest ih =>
    rw [outline, List.map_cons, ih, objectCount, range'_one_add, List.map_cons]
  | routine name loc header inside rest insideIds restIds =>
    have ids : ((header.ids (n + 1)).map (depth + 1, ·)).map (·.2) =
        (List.range' (n + 1) header.params.length).map ObjectId.mk := by
      rw [List.map_map, Header.ids]
      exact List.map_id _
    rw [outline, List.map_cons, List.map_append, List.map_append, ids, insideIds, restIds,
      ← List.map_append, ← List.map_append, List.range'_append_1, List.range'_append_1, objectCount,
      Nat.add_assoc 1, Nat.add_assoc 1, range'_one_add, List.map_cons, Nat.add_assoc]

theorem params_scopes (header : Header) (routine : ObjectId) :
    (header.objects routine).filterMap (·.meaning.ownedScope?) = [] := by
  simp [Header.objects, Meaning.ownedScope?]

theorem objects_scopes (n m : Nat) (contents : Contents) :
    (contents.objects n m).filterMap (·.meaning.ownedScope?) =
      (List.range' m contents.scopeCount).map ScopeId.mk := by
  induction contents generalizing n m with
  | nil => rfl
  | plain name loc what rest ih =>
    have none : what.meaning.ownedScope? = .none := by cases what <;> rfl
    rw [objects, List.filterMap_cons, none, ih]
    rfl
  | routine name loc header inside rest insideScopes restScopes =>
    rw [objects, List.filterMap_cons, Header.meaning_ownedScope, List.filterMap_append,
      List.filterMap_append, params_scopes, insideScopes, restScopes, List.nil_append,
      ← List.map_append, List.range'_append_1, scopeCount, Nat.add_assoc 1, range'_one_add,
      List.map_cons]

theorem objects_sort {n m : Nat} {contents : Contents} {o : Object} (h : o ∈ contents.objects n m) :
    o.meaning.isProgram = false := by
  induction contents generalizing n m with
  | nil => cases h
  | plain name loc what rest ih =>
    rcases List.mem_cons.mp h with rfl | h
    · cases what <;> rfl
    · exact ih h
  | routine name loc header inside rest insideSort restSort =>
    rcases List.mem_cons.mp h with rfl | h
    · cases header <;> rfl
    · rcases List.mem_append.mp h with h | h
      · obtain ⟨p, _, rfl⟩ := List.mem_map.mp h
        rfl
      · rcases List.mem_append.mp h with h | h
        · exact insideSort h
        · exact restSort h

end Contents

namespace Table

variable {t : Table}

def objectAt (t : Table) (i : Nat) : Option Object := t.object? ⟨i⟩

def scopeAt (t : Table) (i : Nat) : Option Scope := t.scope? ⟨i⟩

/-- The tree stands in the table, its objects behind `n` and its scopes behind `m`. -/
structure Holds (t : Table) (n m : Nat) (scope : ScopeId) (contents : Contents) : Prop where
  objects : Placed t.objectAt n (contents.objects n m)
  scopes : Placed t.scopeAt m (contents.scopes n m scope)

theorem walk_leaf {id : ObjectId} {o : Object} (found : t.object? id = some o)
    (leaf : o.meaning.ownedScope? = none) (levels depth : Nat) :
    t.walk (levels + 1) depth id = [(depth, id)] := by
  simp [walk, meaning?, found, leaf]

theorem walk_owner {id : ObjectId} {o : Object} {scope : ScopeId} (found : t.object? id = some o)
    (owned : o.meaning.ownedScope? = some scope) (levels depth : Nat) :
    t.walk (levels + 1) depth id =
      (depth, id) :: (t.objectsIn scope).flatMap (t.walk levels (depth + 1)) := by
  simp [walk, meaning?, found, owned]

theorem walk_params {n : Nat} {routine : ObjectId} {header : Header}
    (placed : Placed t.objectAt n (header.objects routine)) (levels depth : Nat) :
    (header.ids n).flatMap (t.walk (levels + 1) depth) = (header.ids n).map (depth, ·) := by
  have leaf : ∀ id ∈ header.ids n, t.walk (levels + 1) depth id = [(depth, id)] := by
    intro id member
    obtain ⟨i⟩ := id
    obtain ⟨low, high⟩ := Header.mem_ids.mp member
    simp only at low high
    obtain ⟨j, rfl⟩ : ∃ j, i = n + j := ⟨i - n, by omega⟩
    have inside : j < (header.objects routine).length := by
      rw [Header.length_objects]
      omega
    refine walk_leaf (placed j _ (List.getElem?_eq_getElem inside)) ?_ levels depth
    simp [Header.objects, Meaning.ownedScope?]
  rw [List.flatMap_congr leaf, List.map_eq_flatMap]

theorem Holds.walk {n m : Nat} {scope : ScopeId} {contents : Contents}
    (holds : t.Holds n m scope contents) {levels : Nat} (deep : contents.scopeCount < levels)
    (depth : Nat) :
    (contents.ids n).flatMap (t.walk levels depth) = contents.outline n depth := by
  induction contents generalizing n m scope levels depth with
  | nil => rfl
  | plain name loc what rest ih =>
    obtain ⟨levels, rfl⟩ : ∃ l, levels = l + 1 := ⟨levels - 1, by omega⟩
    obtain ⟨objects, scopes⟩ := holds
    obtain ⟨first, others⟩ := placed_cons.mp objects
    have leaf : what.meaning.ownedScope? = none := by cases what <;> rfl
    rw [Contents.ids, List.flatMap_cons, walk_leaf first leaf, ih ⟨others, scopes⟩ deep]
    rfl
  | routine name loc header inside rest insideWalk restWalk =>
    obtain ⟨levels, rfl⟩ : ∃ l, levels = l + 2 := ⟨levels - 2, by
      simp only [Contents.scopeCount] at deep
      omega⟩
    obtain ⟨objects, scopes⟩ := holds
    simp only [Contents.scopeCount] at deep
    obtain ⟨first, others⟩ := placed_cons.mp objects
    obtain ⟨params, others⟩ := placed_append.mp others
    obtain ⟨insideObjects, restObjects⟩ := placed_append.mp others
    obtain ⟨own, others⟩ := placed_cons.mp scopes
    obtain ⟨insideScopes, restScopes⟩ := placed_append.mp others
    simp only [Header.length_objects, Contents.length_objects, Contents.length_scopes] at *
    have listed : t.objectsIn ⟨m⟩ = header.ids (n + 1) ++ inside.ids (n + 1 + header.params.length) :=
      objectsIn_of_scope own
    rw [Contents.ids, List.flatMap_cons, walk_owner first (Header.meaning_ownedScope _ _ _), listed,
      List.flatMap_append, walk_params params,
      insideWalk ⟨insideObjects, insideScopes⟩ (by omega),
      restWalk ⟨restObjects, restScopes⟩ (by omega)]
    simp [Contents.outline]

end Table

end Kpl
