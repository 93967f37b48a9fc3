import Kpl.Analysis.Declaration
import Kpl.Proofs.Contents.Program
import Kpl.Proofs.Grammar.Environment
import Mathlib.Data.List.Forall2

namespace Kpl

namespace Table

def entity? (t : Table) (id : ObjectId) : Option Entity :=
  match t.meaning? id with
  | some (.const value) => some (.const value)
  | some (.type actual) => some (.type actual)
  | some (.var ty) => some (.var ty)
  | some (.param _ ty _) => some (.param ty)
  | some (.function _ returns _) => some (.function (t.signature id) returns)
  | some (.procedure ..) => some (.procedure (t.signature id))
  | _ => none

def Binds (t : Table) (id : ObjectId) (binding : String × Entity) : Prop :=
  t.name? id = some binding.1 ∧ t.entity? id = some binding.2

/-- A scope belongs to a program, or to a routine that the scope around it lists. -/
def OwnedBy (t : Table) (s : Scope) : Option String → Prop
  | none => ∃ owner scope, s.owner = some owner ∧ t.meaning? owner = some (.program scope)
  | some name => ∃ owner outer, s.owner = some owner ∧ s.outer = some outer ∧
      owner ∈ t.objectsIn outer ∧ owner ∉ s.objects ∧ t.name? owner = some name

inductive Shows (t : Table) : Option ScopeId → Env → Prop where
  | nil : Shows t none []
  | cons {id : ScopeId} {s : Scope} {frame : Frame} {env : Env} :
    t.scope? id = some s → List.Forall₂ t.Binds s.objects frame.names →
      (frame.names.map (·.1)).Nodup → t.OwnedBy s frame.routine → Shows t s.outer env →
      Shows t (some id) (frame :: env)

/-- The table stands inside a scope from which it shows the environment. -/
structure Inside (t : Table) (scope : ScopeId) (env : Env) : Prop where
  valid : t.Valid
  current : t.current = some scope
  shows : t.Shows (some scope) env
  builtins : List.Forall₂ t.Binds t.builtins Env.builtins

variable {t : Table} {scope : ScopeId} {env : Env}

theorem Shows.known (h : t.Shows (some scope) env) : scope.index < t.scopes.size := by
  cases h with
  | cons found => exact scope?_lt found

theorem Inside.known (h : t.Inside scope env) : scope.index < t.scopes.size := h.shows.known

theorem find_binds {ids : List ObjectId} {bindings : List (String × Entity)} (name : String)
    (h : List.Forall₂ t.Binds ids bindings) :
    Option.Rel (fun id entity => t.Binds id (name, entity))
      (ids.find? fun id => t.name? id = some name) (bindings.lookup name) := by
  induction h with
  | nil => exact .none
  | @cons id binding ids bindings first _ ih =>
    obtain ⟨bound, entity⟩ := binding
    by_cases same : bound = name
    · subst same
      simpa [List.find?_cons, List.lookup_cons, first.1] using Option.Rel.some first
    · have other : (name == bound) = false := by simpa using Ne.symm same
      simpa [List.find?_cons, List.lookup_cons, first.1, same, other] using ih

theorem findFrom_shows (valid : t.Valid) (builtins : List.Forall₂ t.Binds t.builtins Env.builtins)
    (name : String) {scope : Option ScopeId} (h : t.Shows scope env) :
    Option.Rel (fun id entity => t.Binds id (name, entity))
      (match scope >>= (t.findFrom · name) with
        | some id => some id
        | none => t.findBuiltin name) (env.resolve name) := by
  induction h with
  | nil => exact find_binds name builtins
  | @cons id s frame env found binds distinct owned outer ih =>
    have here := find_binds name binds
    rw [Option.bind_eq_bind, Option.bind_some, findFrom, findIn, objectsIn_of_scope found]
    rw [Env.resolve]
    cases first : s.objects.find? (fun id => t.name? id = some name) with
    | some o =>
      rw [first] at here
      cases entity : frame.names.lookup name with
      | none => rw [entity] at here; cases here
      | some e => rw [entity] at here; exact here
    | none =>
      rw [first] at here
      cases entity : frame.names.lookup name with
      | some e => rw [entity] at here; cases here
      | none =>
        simp only [found, Option.bind_eq_bind, Option.bind_some]
        cases around : s.outer with
        | none =>
          rw [around] at ih
          exact ih
        | some parent =>
          have younger := valid.outer (outer?_eq_some.mpr ⟨s, found, around⟩)
          rw [around, Option.bind_eq_bind, Option.bind_some] at ih
          simpa only [if_pos younger] using ih

theorem Inside.lookup (h : t.Inside scope env) (name : String) :
    Option.Rel (fun id entity => t.Binds id (name, entity)) (t.lookup name) (env.resolve name) := by
  rw [Table.lookup, h.current]
  exact findFrom_shows h.valid h.builtins name h.shows

theorem Inside.lookup_some (h : t.Inside scope env) {name : String} {id : ObjectId}
    (found : t.lookup name = some id) :
    ∃ entity, env.resolve name = some entity ∧ t.Binds id (name, entity) := by
  have agree := h.lookup name
  rw [found] at agree
  generalize env.resolve name = meant at agree
  cases agree with
  | some binds => exact ⟨_, rfl, binds⟩

theorem Inside.resolve_some (h : t.Inside scope env) {name : String} {entity : Entity}
    (found : env.resolve name = some entity) :
    ∃ id, t.lookup name = some id ∧ t.Binds id (name, entity) := by
  have agree := h.lookup name
  rw [found] at agree
  generalize t.lookup name = meant at agree
  cases agree with
  | some binds => exact ⟨_, rfl, binds⟩

theorem names_binds {ids : List ObjectId} {bindings : List (String × Entity)}
    (h : List.Forall₂ t.Binds ids bindings) : ids.filterMap t.name? = bindings.map (·.1) := by
  induction h with
  | nil => rfl
  | cons first _ ih => rw [List.filterMap_cons, first.1, List.map_cons, ih]

theorem Inside.names (h : t.Inside scope env) : t.namesIn scope = env.names := by
  cases h.shows with
  | cons found binds => rw [namesIn, objectsIn_of_scope found, names_binds binds, Env.names]

theorem Inside.requireFresh (h : t.Inside scope env) {name : String} {loc : Loc} {u : Unit} :
    t.requireFresh name loc = .ok u ↔ name ∉ env.names := by
  have find : t.lookupInCurrent name = t.findIn scope name := by
    rw [lookupInCurrent, h.current]
    rfl
  rw [← h.names, Table.requireFresh, find, findIn, namesIn]
  cases first : (t.objectsIn scope).find? (fun id => t.name? id = some name) with
  | none =>
    simp only [List.find?_eq_none, decide_eq_true_eq] at first
    simp only [List.mem_filterMap, not_exists, not_and, true_iff]
    exact first
  | some id =>
    have named := List.find?_some first
    have listed := List.mem_of_find?_eq_some first
    simp only [reduceCtorEq, false_iff, not_not, List.mem_filterMap]
    exact ⟨id, listed, by simpa using named⟩

theorem Inside.resolve_iff (h : t.Inside scope env) {name : String} {entity : Entity} {l : Loc} :
    env.resolve name = some entity ↔
      ∃ id, t.resolve name l = .ok id ∧ t.entity? id = some entity := by
  rw [Table.resolve]
  constructor
  · intro resolved
    obtain ⟨id, found, _, meant⟩ := h.resolve_some resolved
    exact ⟨id, by rw [found], meant⟩
  · rintro ⟨id, found, meant⟩
    cases looked : t.lookup name with
    | none =>
      rw [looked] at found
      cases found
    | some id' =>
      rw [looked] at found
      obtain rfl := Except.ok.inj found
      obtain ⟨entity', resolved, _, same⟩ := h.lookup_some looked
      rw [resolved, ← same, meant]

theorem entity?_storage {id : ObjectId} :
    t.meaning? id >>= (·.storage?) = t.entity? id >>= (·.storage?) := by
  cases h : t.meaning? id with
  | none => simp [entity?, h]
  | some meaning => cases meaning <;> simp [entity?, h, Meaning.storage?, Entity.storage?]

theorem entity?_var {id : ObjectId} {ty : Ty} :
    t.entity? id = some (.var ty) ↔ t.meaning? id = some (.var ty) := by
  cases h : t.meaning? id with
  | none => simp [entity?, h]
  | some meaning => cases meaning <;> simp [entity?, h]

theorem entity?_type {id : ObjectId} {actual : Ty} :
    t.entity? id = some (.type actual) ↔ t.meaning? id = some (.type actual) := by
  cases h : t.meaning? id with
  | none => simp [entity?, h]
  | some meaning => cases meaning <;> simp [entity?, h]

theorem entity?_const {id : ObjectId} {value : Constant} :
    t.entity? id = some (.const value) ↔ t.meaning? id = some (.const value) := by
  cases h : t.meaning? id with
  | none => simp [entity?, h]
  | some meaning => cases meaning <;> simp [entity?, h]

theorem entity?_function {id : ObjectId} {signature : List (PassMode × Ty)} {returns : Option Ty} :
    t.entity? id = some (.function signature returns) ↔
      ∃ params inside, t.meaning? id = some (.function params returns inside) ∧
        t.signature id = signature := by
  cases h : t.meaning? id with
  | none => simp [entity?, h]
  | some meaning => cases meaning <;> simp [entity?, h, and_comm]

theorem entity?_procedure {id : ObjectId} {signature : List (PassMode × Ty)} :
    t.entity? id = some (.procedure signature) ↔
      ∃ params inside, t.meaning? id = some (.procedure params inside) ∧
        t.signature id = signature := by
  cases h : t.meaning? id with
  | none => simp [entity?, h]
  | some meaning => cases meaning <;> simp [entity?, h]

theorem resolve_ok {name : String} {l : Loc} {id : ObjectId} :
    t.resolve name l = .ok id ↔ t.lookup name = some id := by
  rw [Table.resolve]
  cases t.lookup name <;> simp

theorem resolveAs_ok {undeclared wrongClass : SemanticError.Cause} {accepts : Meaning → Bool}
    {name : String} {loc : Loc} {id : ObjectId} :
    t.resolveAs undeclared wrongClass accepts name loc = .ok id ↔
      t.lookup name = some id ∧ ∃ meaning, t.meaning? id = some meaning ∧ accepts meaning := by
  rw [resolveAs]
  cases looked : t.lookup name with
  | none => simp
  | some found =>
    simp only [Option.some.injEq]
    constructor
    · intro h
      split at h
      · rename_i right
        obtain rfl := Except.ok.inj h
        cases known : t.meaning? found with
        | none => simp [known] at right
        | some meaning => exact ⟨rfl, meaning, rfl, by simpa [known] using right⟩
      · cases h
    · rintro ⟨rfl, meaning, known, right⟩
      simp [known, right]

theorem resolveTarget_ok {name : String} {loc : Loc} {id : ObjectId} :
    t.resolveTarget name loc = .ok id ↔ t.lookup name = some id ∧
      ((∃ stored, t.meaning? id >>= (·.storage?) = some stored) ∨
        (∃ params returns inside, t.meaning? id = some (.function params returns inside)) ∧
          t.currentOwner? = some id) := by
  rw [resolveTarget, ← resolve_ok (l := loc)]
  cases looked : t.resolve name loc with
  | error e => simp [Bind.bind, Except.bind]
  | ok found =>
    simp only [Bind.bind, Except.bind, Except.ok.injEq]
    constructor
    · intro h
      split at h
      · rename_i ty known
        obtain rfl := Except.ok.inj h
        exact ⟨rfl, .inl ⟨ty, by rw [known]; rfl⟩⟩
      · rename_i mode ty routine known
        obtain rfl := Except.ok.inj h
        exact ⟨rfl, .inl ⟨ty, by rw [known]; rfl⟩⟩
      · rename_i params returns inside known
        split at h
        · rename_i own
          obtain rfl := Except.ok.inj h
          exact ⟨rfl, .inr ⟨⟨params, returns, inside, known⟩, own⟩⟩
        · cases h
      · cases h
    · rintro ⟨rfl, ⟨stored, stores⟩ | ⟨⟨params, returns, inside, known⟩, own⟩⟩
      · cases known : t.meaning? found with
        | none => simp [known] at stores
        | some meaning => cases meaning <;> simp_all [Meaning.storage?]
      · simp [known, own]

theorem find_owner {ids : List ObjectId} {bindings : List (String × Entity)}
    (h : List.Forall₂ t.Binds ids bindings) (distinct : (bindings.map (·.1)).Nodup)
    {owner : ObjectId} {name : String} (listed : owner ∈ ids) (named : t.name? owner = some name) :
    ids.find? (fun id => t.name? id = some name) = some owner := by
  induction h with
  | nil => cases listed
  | @cons id binding ids bindings first rest ih =>
    rw [List.map_cons, List.nodup_cons] at distinct
    rcases List.mem_cons.mp listed with rfl | listed
    · simp [named]
    · have other : ¬ t.name? id = some name := by
        intro same
        apply distinct.1
        rw [← names_binds rest, List.mem_filterMap]
        exact ⟨owner, listed, by rw [named, ← same, first.1]⟩
      rw [List.find?_cons, decide_eq_false other]
      exact ih distinct.2 listed

/-- A function may be assigned to where its own scope is the innermost one and its name means the
    function itself. -/
theorem Inside.currentOwner (h : t.Inside scope env) {name : String} {id : ObjectId}
    {signature : List (PassMode × Ty)} {returns : Option Ty} (found : t.lookup name = some id)
    (entity : t.entity? id = some (.function signature returns)) :
    (t.currentOwner? = some id → env.result? name = returns) ∧
      (env.result? name ≠ none → t.currentOwner? = some id) := by
  obtain ⟨meant, resolved, called, same⟩ := h.lookup_some found
  rw [entity] at same
  cases same
  have lookup := found
  rw [Table.lookup, h.current, Option.bind_eq_bind, Option.bind_some, findFrom, findIn] at lookup
  have valid := h.valid
  have current := h.current
  cases h.shows with
  | @cons _ s frame env located binds distinct owned outer =>
    have owner : t.currentOwner? = s.owner := by
      rw [currentOwner?, current, Option.bind_eq_bind, Option.bind_some, owner?, located]
      rfl
    have here := find_binds name binds
    rw [objectsIn_of_scope located] at lookup
    rw [owner, Env.result?]
    rw [Env.resolve] at resolved
    constructor
    · intro own
      cases routine : frame.routine with
      | none =>
        rw [routine] at owned
        obtain ⟨o, inside, own', meaning⟩ := owned
        obtain rfl : o = id := Option.some.inj (own'.symm.trans own)
        rw [entity?, meaning] at entity
        cases entity
      | some around =>
        rw [routine] at owned
        obtain ⟨o, parent, own', _, _, unlisted, named⟩ := owned
        obtain rfl : o = id := Option.some.inj (own'.symm.trans own)
        obtain rfl : around = name := Option.some.inj (named.symm.trans called)
        cases first : s.objects.find? (fun id => t.name? id = some around) with
        | some o' =>
          rw [first] at lookup
          obtain rfl : o' = o := Option.some.inj lookup
          exact absurd (List.mem_of_find?_eq_some first) unlisted
        | none =>
          rw [first] at here
          cases hidden : frame.names.lookup around with
          | some e => rw [hidden] at here; cases here
          | none =>
            rw [hidden] at resolved
            have outside : env.resolve around = some (.function signature returns) := resolved
            rw [if_pos ⟨rfl, rfl⟩, outside]
    · intro result
      split at result
      · rename_i condition
        obtain ⟨routine, hidden⟩ := condition
        rw [routine] at owned
        obtain ⟨o, parent, own, around, listed, _, named⟩ := owned
        cases first : s.objects.find? (fun id => t.name? id = some name) with
        | some o' => rw [first, hidden] at here; cases here
        | none =>
          have younger := valid.outer (outer?_eq_some.mpr ⟨s, located, around⟩)
          rw [around] at outer
          cases outer with
          | cons located' binds' distinct' =>
            rw [objectsIn_of_scope located'] at listed
            have found' := find_owner binds' distinct' listed named
            rw [first, located, Option.bind_eq_bind, Option.bind_some, around] at lookup
            simp only [if_pos younger] at lookup
            rw [findFrom, findIn, objectsIn_of_scope located', found'] at lookup
            obtain rfl : o = id := Option.some.inj lookup
            exact own
      · exact absurd rfl result

def Keeps (t u : Table) : Prop :=
  ∀ id : ObjectId, id.index < t.objects.size → u.object? id = t.object? id

theorem keeps_extend (contents : Contents) : t.Keeps (t.extend scope contents) :=
  fun _ => object?_extend_of_lt contents

theorem Keeps.name? {u : Table} (keeps : t.Keeps u) {id : ObjectId} (old : id.index < t.objects.size) :
    u.name? id = t.name? id := by
  rw [Table.name?, keeps id old, Table.name?]

theorem Keeps.meaning? {u : Table} (keeps : t.Keeps u) {id : ObjectId}
    (old : id.index < t.objects.size) : u.meaning? id = t.meaning? id := by
  rw [Table.meaning?, keeps id old, Table.meaning?]

theorem meaning?_lt {id : ObjectId} {meaning : Meaning} (h : t.meaning? id = some meaning) :
    id.index < t.objects.size := by
  obtain ⟨o, found, _⟩ := Option.map_eq_some_iff.mp h
  exact object?_lt found

theorem Keeps.signature {u : Table} (valid : t.Valid) (keeps : t.Keeps u) {id : ObjectId}
    (old : id.index < t.objects.size) : u.signature id = t.signature id := by
  have same : u.params id = t.params id := by rw [params, keeps.meaning? old, params]
  rw [Table.signature, Table.signature, same]
  apply List.filterMap_congr
  intro p member
  rw [keeps.meaning? (valid.params member)]

theorem Keeps.entity? {u : Table} (valid : t.Valid) (keeps : t.Keeps u) {id : ObjectId}
    (old : id.index < t.objects.size) : u.entity? id = t.entity? id := by
  rw [Table.entity?, keeps.meaning? old, keeps.signature valid old, Table.entity?]

theorem Keeps.binds {u : Table} (valid : t.Valid) (keeps : t.Keeps u) {id : ObjectId}
    {binding : String × Entity} (h : t.Binds id binding) : u.Binds id binding := by
  have old := name?_lt h.1
  exact ⟨(keeps.name? old).trans h.1, (keeps.entity? valid old).trans h.2⟩

theorem OwnedBy.extend (valid : t.Valid) (contents : Contents) {s s' : Scope}
    {routine : Option String} (h : t.OwnedBy s routine) (owner : s'.owner = s.owner)
    (outer : s'.outer = s.outer)
    (older : ∀ parent, s.outer = some parent → parent.index < t.scopes.size ∧ parent ≠ scope)
    (listed : ∀ id : ObjectId, id.index < t.objects.size → id ∈ s'.objects → id ∈ s.objects) :
    (t.extend scope contents).OwnedBy s' routine := by
  cases routine with
  | none =>
    obtain ⟨o, inside, own, meaning⟩ := h
    refine ⟨o, inside, owner.trans own, ?_⟩
    rw [(keeps_extend contents).meaning? (meaning?_lt meaning)]
    exact meaning
  | some name =>
    obtain ⟨o, parent, own, around, member, unlisted, named⟩ := h
    obtain ⟨known, other⟩ := older parent around
    refine ⟨o, parent, owner.trans own, outer.trans around, ?_, ?_, ?_⟩
    · rw [objectsIn_extend_of_ne contents known other]
      exact member
    · exact fun inside => unlisted (listed o (valid.listed member) inside)
    · rw [(keeps_extend contents).name? (valid.listed member)]
      exact named

theorem Shows.extend (valid : t.Valid) (contents : Contents) {from? : Option ScopeId}
    (h : t.Shows from? env) (older : ∀ id, from? = some id → id.index < scope.index) :
    (t.extend scope contents).Shows from? env := by
  induction h with
  | nil => exact .nil
  | @cons id s frame env found binds distinct owned outer ih =>
    have ne : id ≠ scope := by
      rintro rfl
      exact Nat.lt_irrefl _ (older id rfl)
    have around {parent : ScopeId} (h : s.outer = some parent) : parent.index < id.index :=
      valid.outer (outer?_eq_some.mpr ⟨s, found, h⟩)
    have outside : ∀ parent, s.outer = some parent → parent.index < scope.index :=
      fun parent h => Nat.lt_trans (around h) (older id rfl)
    refine .cons ((scope?_extend_of_ne contents (scope?_lt found) ne).trans found)
      (binds.imp fun _ _ => (keeps_extend contents).binds valid) distinct ?_ (ih outside)
    refine owned.extend valid contents rfl rfl ?_ fun _ _ member => member
    intro parent h
    refine ⟨Nat.lt_trans (around h) (scope?_lt found), ?_⟩
    rintro rfl
    exact Nat.lt_irrefl _ (outside parent h)

theorem Shows.moved (current : Option ScopeId) {from? : Option ScopeId} (h : t.Shows from? env) :
    (t.moved current).Shows from? env := by
  induction h with
  | nil => exact .nil
  | @cons id s frame env found binds distinct owned _ ih =>
    refine .cons found binds distinct ?_ ih
    cases h : frame.routine <;> rw [h] at owned <;> exact owned

theorem entity?_plain (name : String) (loc : Loc) (what : Plain) :
    (t.extend scope (.plain name loc what .nil)).entity? t.nextObject = some what.entity := by
  rw [entity?, Table.meaning?, object?_plain]
  cases what <;> rfl

theorem signature_routine (name : String) (loc : Loc) (header : Header) :
    (t.extend scope (.routine name loc header .nil .nil)).signature t.nextObject =
      header.signature := by
  have ids : (t.extend scope (.routine name loc header .nil .nil)).params t.nextObject =
      header.ids (t.objects.size + 1) := by
    rw [params, Table.meaning?, object?_routine]
    simp
  rw [Table.signature, ids, Header.ids, List.filterMap_map]
  apply filterMap_range'
  intro i p found
  rw [Function.comp_apply, Table.meaning?, object?_routine_param name loc header found]
  rfl

theorem entity?_routine (name : String) (loc : Loc) (header : Header) :
    (t.extend scope (.routine name loc header .nil .nil)).entity? t.nextObject =
      some header.entity := by
  rw [entity?, signature_routine, Table.meaning?, object?_routine]
  cases header <;> rfl

theorem binds_param (name : String) (loc : Loc) (header : Header) {i : Nat} {p : Param}
    (found : header.params[i]? = some p) :
    (t.extend scope (.routine name loc header .nil .nil)).Binds ⟨t.objects.size + 1 + i⟩
      (p.name, .param p.ty) := by
  rw [Binds, name?, entity?, Table.meaning?, object?_routine_param name loc header found]
  exact ⟨rfl, rfl⟩

namespace Inside

variable (h : t.Inside scope env) (name : String) (loc : Loc)

include h

theorem grow {contents : Contents} {binding : String × Entity}
    (valid : (t.extend scope contents).Valid) (fresh : binding.1 ∉ env.names)
    (one : contents.ids t.objects.size = [t.nextObject])
    (binds : (t.extend scope contents).Binds t.nextObject binding) :
    (t.extend scope contents).Inside scope (env.declare [binding]) where
  valid := valid
  current := h.current
  builtins := h.builtins.imp fun _ _ => (keeps_extend contents).binds h.valid
  shows := by
    have builtins := h.builtins
    cases h.shows with
    | @cons _ s frame env found shown distinct owned outer =>
      have around {parent : ScopeId} (hp : s.outer = some parent) : parent.index < scope.index :=
        h.valid.outer (outer?_eq_some.mpr ⟨s, found, hp⟩)
      refine .cons (scope?_extend_same contents found) ?_ ?_ ?_
        (outer.extend h.valid contents fun _ => around)
      · rw [one]
        exact List.rel_append (shown.imp fun _ _ => (keeps_extend contents).binds h.valid)
          (.cons binds .nil)
      · rw [List.map_append, List.map_singleton, ← List.concat_eq_append]
        exact List.Nodup.concat fresh distinct
      · refine owned.extend h.valid contents rfl rfl ?_ ?_
        · intro parent hp
          refine ⟨Nat.lt_trans (around hp) h.known, ?_⟩
          rintro rfl
          exact Nat.lt_irrefl _ (around hp)
        · intro id old member
          rw [one] at member
          rcases List.mem_append.mp member with member | member
          · exact member
          · rw [List.mem_singleton.mp member] at old
            exact absurd old (Nat.lt_irrefl _)

theorem plain (what : Plain) (fresh : name ∉ env.names) :
    (t.extend scope (.plain name loc what .nil)).Inside scope
      (env.declare [(name, what.entity)]) := by
  refine h.grow (h.valid.plain name loc what h.known) fresh rfl ⟨?_, entity?_plain name loc what⟩
  rw [name?, object?_plain]
  rfl

theorem routine (header : Header) (fresh : name ∉ env.names) :
    (t.extend scope (.routine name loc header .nil .nil)).Inside scope
      (env.declare [(name, header.entity)]) := by
  refine h.grow (h.valid.routine name loc header h.known) fresh rfl
    ⟨?_, entity?_routine name loc header⟩
  rw [name?, object?_routine]
  rfl

theorem elsewhere {other : ScopeId} (contents : Contents) (valid : (t.extend other contents).Valid)
    (younger : scope.index < other.index) : (t.extend other contents).Inside scope env where
  valid := valid
  current := h.current
  builtins := h.builtins.imp fun _ _ => (keeps_extend contents).binds h.valid
  shows := h.shows.extend h.valid contents (by rintro _ ⟨⟩; exact younger)

theorem enter (header : Header) (fresh : name ∉ env.names) (distinct : header.names.Nodup) :
    ((t.extend scope (.routine name loc header .nil .nil)).enter t.nextScope).Inside t.nextScope
      (env.enter name header) := by
  have around := h.routine name loc header fresh
  have listed : t.nextObject ∈
      (t.extend scope (.routine name loc header .nil .nil)).objectsIn scope := by
    rw [objectsIn_extend_same _ h.known]
    exact List.mem_append_right _ List.mem_cons_self
  have params : List.Forall₂ (t.extend scope (.routine name loc header .nil .nil)).Binds
      (header.ids (t.objects.size + 1)) (header.params.map fun p => (p.name, .param p.ty)) := by
    rw [List.forall₂_iff_get]
    refine ⟨by simp, fun i inside _ => ?_⟩
    rw [Header.length_ids] at inside
    simpa [Header.ids] using @binds_param t scope name loc header i _
      (List.getElem?_eq_getElem inside)
  have named : (t.extend scope (.routine name loc header .nil .nil)).name? t.nextObject =
      some name := by
    rw [name?, object?_routine]
    rfl
  constructor
  · exact around.valid.moved _
  · rfl
  · refine .cons (s := ⟨some t.nextObject, some scope, header.ids (t.objects.size + 1)⟩)
      (scope?_routine name loc header) params ?_ ?_ (around.shows.moved _)
    · simpa [Header.names, Function.comp_def] using distinct
    · refine ⟨t.nextObject, scope, rfl, rfl, listed, ?_, ?_⟩
      · intro member
        have bounds := (Header.mem_ids.mp member).1
        simp only [nextObject] at bounds
        omega
      · exact named
  · exact around.builtins

theorem ne_nil : env ≠ [] := by
  cases h.shows
  nofun

theorem names_declare (bindings : List (String × Entity)) :
    (env.declare bindings).names = env.names ++ bindings.map (·.1) :=
  Env.names_declare h.ne_nil bindings

end Inside

theorem Inside.extend (contents : Contents) (h : t.Inside scope env)
    (fresh : contents.Fresh env.names) :
    (t.extend scope contents).Inside scope (env.declare contents.bindings) := by
  induction contents generalizing t env with
  | nil =>
    rw [extend_nil]
    simpa [Contents.bindings] using h
  | plain name loc what rest ih =>
    have one := h.plain name loc what fresh.1
    have split := extend_append t (.plain name loc what .nil) rest h.known
    have rest := ih one (by rw [h.names_declare]; exact fresh.2)
    rw [split, Env.declare_append] at rest
    exact rest
  | routine name loc header inside rest _ ih =>
    obtain ⟨new, distinct, insideFresh, restFresh⟩ := fresh
    have one := h.routine name loc header new
    have split := extend_append t (.routine name loc header inside .nil) rest h.known
    have valid := @Valid.extend _ t.nextScope one.valid inside
      (by simp [nextScope, Contents.scopeCount]) (by rw [namesIn_routine_inside]; exact insideFresh)
    have both := one.elsewhere inside valid h.known
    rw [extend_inside] at both
    have rest := ih both (by rw [h.names_declare]; exact restFresh)
    rw [split, Env.declare_append] at rest
    exact rest

theorem Inside.names_extend (h : t.Inside scope env) (contents : Contents) :
    (env.declare contents.bindings).names = env.names ++ contents.names := by
  rw [h.names_declare, contents.names_eq]

end Table

end Kpl
