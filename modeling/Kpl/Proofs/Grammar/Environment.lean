import Kpl.Proofs.Contents.Tree

namespace Kpl

inductive Entity where
  | const (value : Constant)
  | type (actual : Ty)
  | var (ty : Ty)
  | param (ty : Ty)
  | function (signature : List (PassMode × Ty)) (returns : Option Ty)
  | procedure (signature : List (PassMode × Ty))
deriving DecidableEq, Repr

namespace Entity

def storage? : Entity → Option Ty
  | var ty | param ty => some ty
  | _ => none

def Complete : Entity → Prop
  | function _ returns => returns.isSome
  | _ => True

end Entity

def Plain.entity : Plain → Entity
  | const value => .const value
  | type actual => .type actual
  | var ty => .var ty

def Header.entity (header : Header) : Entity :=
  match header with
  | function _ returns => .function header.signature returns
  | procedure _ => .procedure header.signature

def Contents.bindings : Contents → List (String × Entity)
  | nil => []
  | plain name _ what rest => (name, what.entity) :: rest.bindings
  | routine name _ header _ rest => (name, header.entity) :: rest.bindings

theorem Contents.bindings_append (a b : Contents) :
    (a ++ b).bindings = a.bindings ++ b.bindings := by
  induction a with
  | nil => rfl
  | plain name loc what rest ih => simp only [plain_append, bindings, ih, List.cons_append]
  | routine name loc header inside rest _ ih =>
    simp only [routine_append, bindings, ih, List.cons_append]

theorem Contents.names_eq (contents : Contents) :
    contents.names = contents.bindings.map (·.1) := by
  induction contents with
  | nil => rfl
  | plain name loc what rest ih => simp only [names, bindings, ih, List.map_cons]
  | routine name loc header inside rest _ ih => simp only [names, bindings, ih, List.map_cons]

/-- A scope: the routine whose scope it is, if it is not that of a program, and its names. -/
structure Frame where
  routine : Option String
  names : List (String × Entity)

abbrev Env := List Frame

namespace Env

def builtins : List (String × Entity) :=
  [("READC", .function [] (some .char)), ("READI", .function [] (some .int)),
    ("WRITEI", .procedure [(.value, .int)]), ("WRITEC", .procedure [(.value, .char)]),
    ("WRITELN", .procedure [])]

/-- The nearest declaration of a name, from the innermost scope outward, and then the builtins. -/
def resolve : Env → String → Option Entity
  | [], name => builtins.lookup name
  | frame :: env, name =>
    match frame.names.lookup name with
    | some entity => some entity
    | none => resolve env name

/-- The type of a name that stands for the result of the function being read: the function whose
    scope is the innermost one, unless that scope hides its name. -/
def result? : Env → String → Option Ty
  | frame :: env, name =>
    if frame.routine = some name ∧ frame.names.lookup name = none then
      match resolve env name with
      | some (.function _ returns) => returns
      | _ => none
    else none
  | [], _ => none

def names : Env → List String
  | frame :: _ => frame.names.map (·.1)
  | [] => []

def declare (bindings : List (String × Entity)) : Env → Env
  | frame :: env => { frame with names := frame.names ++ bindings } :: env
  | [] => []

def enter (name : String) (header : Header) (env : Env) : Env :=
  ⟨some name, header.params.map fun p => (p.name, .param p.ty)⟩ ::
    env.declare [(name, header.entity)]

def Complete (env : Env) : Prop := ∀ frame ∈ env, ∀ binding ∈ frame.names, binding.2.Complete

theorem declare_append (a b : List (String × Entity)) (env : Env) :
    (env.declare a).declare b = env.declare (a ++ b) := by
  cases env <;> simp [declare]

@[simp] theorem declare_nil (env : Env) : env.declare [] = env := by
  cases env <;> simp [declare]

theorem resolve_of_result {env : Env} {name : String} {ty : Ty} (h : env.result? name = some ty) :
    ∃ signature, env.resolve name = some (.function signature (some ty)) := by
  cases env with
  | nil => cases h
  | cons frame env =>
    rw [result?] at h
    split at h
    · rename_i condition
      rw [resolve, condition.2]
      split at h
      · rename_i signature returns resolved
        exact ⟨signature, h ▸ resolved⟩
      · cases h
    · cases h

theorem names_declare {env : Env} (inside : env ≠ []) (bindings : List (String × Entity)) :
    (env.declare bindings).names = env.names ++ bindings.map (·.1) := by
  cases env with
  | nil => exact absurd rfl inside
  | cons => simp [declare, names]

theorem declare_ne_nil {env : Env} (inside : env ≠ []) (bindings : List (String × Entity)) :
    env.declare bindings ≠ [] := by
  cases env with
  | nil => exact absurd rfl inside
  | cons => nofun

theorem names_enter (name : String) (header : Header) (env : Env) :
    (env.enter name header).names = header.names := by
  simp [enter, names, Header.names, Function.comp_def]

end Env

theorem Header.Complete.entity {header : Header} (h : header.Complete) : header.entity.Complete := by
  cases header <;> exact h

theorem Contents.Complete.bindings {contents : Contents} (h : contents.Complete) :
    ∀ binding ∈ contents.bindings, binding.2.Complete := by
  induction contents with
  | nil => simp [Contents.bindings]
  | plain name loc what rest ih =>
    intro binding member
    rcases List.mem_cons.mp member with rfl | member
    · cases what <;> exact True.intro
    · exact ih h binding member
  | routine name loc header inside rest _ ih =>
    intro binding member
    rcases List.mem_cons.mp member with rfl | member
    · exact h.1.entity
    · exact ih h.2 binding member

theorem Env.builtins_complete : ∀ binding ∈ Env.builtins, binding.2.Complete := by
  intro binding member
  simp only [Env.builtins, List.mem_cons, List.not_mem_nil, or_false] at member
  rcases member with rfl | rfl | rfl | rfl | rfl
  · rfl
  · rfl
  all_goals exact True.intro

theorem Env.Complete.resolve {env : Env} (h : env.Complete) {name : String} {entity : Entity}
    (resolved : env.resolve name = some entity) : entity.Complete := by
  induction env with
  | nil =>
    obtain ⟨before, behind, split, _⟩ := List.lookup_eq_some_iff.mp resolved
    exact Env.builtins_complete (name, entity) (by simp [split])
  | cons frame env ih =>
    unfold Env.resolve at resolved
    split at resolved
    · rename_i found
      cases resolved
      obtain ⟨before, behind, split, _⟩ := List.lookup_eq_some_iff.mp found
      exact h frame List.mem_cons_self (name, entity) (by simp [split])
    · exact ih (fun other member => h other (List.mem_cons_of_mem _ member)) resolved

theorem Env.Complete.declare {env : Env} (h : env.Complete) (bindings : List (String × Entity))
    (new : ∀ binding ∈ bindings, binding.2.Complete) : (env.declare bindings).Complete := by
  cases env with
  | nil => exact h
  | cons frame env =>
    intro other member binding bound
    rcases List.mem_cons.mp member with rfl | member
    · rcases List.mem_append.mp bound with old | bound
      · exact h frame List.mem_cons_self binding old
      · exact new binding bound
    · exact h other (List.mem_cons_of_mem _ member) binding bound

theorem Env.Complete.enter {env : Env} (h : env.Complete) (name : String) {header : Header}
    (complete : header.Complete) : (env.enter name header).Complete := by
  have outer := h.declare [(name, header.entity)] (by simpa using complete.entity)
  intro frame member binding bound
  rcases List.mem_cons.mp member with rfl | member
  · obtain ⟨p, _, rfl⟩ := List.mem_map.mp bound
    exact True.intro
  · exact outer frame member binding bound

end Kpl
