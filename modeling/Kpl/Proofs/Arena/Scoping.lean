import Kpl.Proofs.Frame.Closed
import Kpl.Table.Resolve
import Mathlib

namespace Kpl

namespace Table

variable {t u v : Table} {x : ScopeId} {xs : List ScopeId} {o : Object} {limit : Nat}

structure Admits (t : Table) (o : Object) : Prop where
  routine : ∀ r ∈ o.meaning.routine?, r.index < t.objects.size
  scope : ∀ x ∈ o.meaning.ownedScope?, x.index < t.scopes.size

/-- The calls that leave the current scope current. Any object may be declared, whoever made it and
    however often. -/
inductive Edit : Table → Table → Prop where
  | program (t : Table) (name : String) (loc : Loc) : Edit t (t.createProgram name loc).2
  | scope (t : Table) (owner : Option ObjectId) (outer : Option ScopeId) :
    (∀ id ∈ owner, id.index < t.objects.size) → (∀ x ∈ outer, x.index < t.scopes.size) →
      Edit t (t.createScope owner outer).2
  | function (t : Table) (name : String) (loc : Loc) : Edit t (t.createFunction name loc).2
  | procedure (t : Table) (name : String) (loc : Loc) : Edit t (t.createProcedure name loc).2
  | declare {t u : Table} {o : Object} {id : ObjectId} :
    t.Admits o → t.declare o = .ok (id, u) → Edit t u
  | setReturns (t : Table) (id : ObjectId) (ty : Ty) : Edit t (t.setReturns id ty)

inductive Call : Table → Table → Prop where
  | edit {t u : Table} : Edit t u → Call t u
  | enter {t : Table} (x : ScopeId) : x.index < t.scopes.size → Call t (t.enter x)
  | exit {t u : Table} : t.exit = .ok u → Call t u

def Used (t : Table) : Prop := Relation.ReflTransGen Call .initial t

/-- What a client does in the current scope: edits, and visits to scopes that the current one
    surrounds, each of which it leaves again. -/
inductive Works : Table → Table → Prop where
  | done (t : Table) : Works t t
  | edit {t u v : Table} : Edit t u → Works u v → Works t v
  | visit {t u v w : Table} {x : ScopeId} : x.index < t.scopes.size → t.outer? x = t.current →
    Works (t.enter x) u → u.exit = .ok v → Works v w → Works t w

/-- The scopes from one outward, the nearest first, up to one that nothing surrounds. -/
inductive Outward (t : Table) : Option ScopeId → List ScopeId → Prop where
  | nil : Outward t none []
  | cons {x : ScopeId} {xs : List ScopeId} :
    Outward t (t.outer? x) xs → Outward t (some x) (x :: xs)

theorem Closed.outward (closed : t.Closed) (start : Option ScopeId) :
    ∃ xs, t.Outward start xs := by
  cases start with
  | none => exact ⟨[], .nil⟩
  | some x =>
    induction n : x.index using Nat.strongRecOn generalizing x with
    | ind n ih =>
      subst n
      cases around : t.outer? x with
      | none => exact ⟨[x], .cons (around ▸ .nil)⟩
      | some outer =>
        obtain ⟨xs, rest⟩ := ih _ (closed.outer around) outer rfl
        exact ⟨x :: xs, .cons (around ▸ rest)⟩

theorem Outward.congr {start : Option ScopeId} (way : t.Outward start xs)
    (same : ∀ x ∈ xs, u.outer? x = t.outer? x) : u.Outward start xs := by
  induction way with
  | nil => exact .nil
  | cons _ ih =>
    obtain ⟨here, others⟩ := List.forall_mem_cons.mp same
    exact .cons (here ▸ ih others)

theorem Closed.outward_lt (closed : t.Closed) {start : Option ScopeId} (way : t.Outward start xs)
    (bound : ∀ x, start = some x → x.index < limit) : ∀ x ∈ xs, x.index < limit := by
  induction way with
  | nil => nofun
  | @cons x xs _ ih =>
    have here := bound x rfl
    refine List.forall_mem_cons.mpr ⟨here, ih fun outer around => ?_⟩
    exact Nat.lt_trans (closed.outer around) here

theorem Closed.candidates_lt (closed : t.Closed) (xs : List ScopeId) :
    ∀ id ∈ xs.flatMap t.objectsIn ++ t.builtins, id.index < t.objects.size := by
  intro id member
  rcases List.mem_append.mp member with inScope | builtin
  · obtain ⟨x, _, member⟩ := List.mem_flatMap.mp inScope
    exact closed.listed member
  · exact closed.builtins builtin

theorem Closed.findFrom_eq (closed : t.Closed) {start : Option ScopeId} (name : String)
    (way : t.Outward start xs) : start >>= (t.findFrom · name) =
      (xs.flatMap t.objectsIn).find? fun id => t.name? id = some name := by
  induction way with
  | nil => rfl
  | @cons x xs _ ih =>
    rw [Option.bind_eq_bind, Option.bind_some, findFrom, findIn, List.flatMap_cons,
      List.find?_append, ← ih]
    cases (t.objectsIn x).find? fun id => t.name? id = some name with
    | some id => rfl
    | none =>
      rw [Option.none_or, outer?]
      cases around : t.scope? x >>= (·.outer) with
      | none => rfl
      | some outer => exact if_pos (closed.outer around)

/-- A name means its first declaration from the current scope outward, or else the builtin. -/
theorem Closed.lookup_eq (closed : t.Closed) (way : t.Outward t.current xs) (name : String) :
    t.lookup name =
      (xs.flatMap t.objectsIn ++ t.builtins).find? fun id => t.name? id = some name := by
  rw [lookup, closed.findFrom_eq name way, List.find?_append, findBuiltin]
  cases (xs.flatMap t.objectsIn).find? fun id => t.name? id = some name with
  | some id => rfl
  | none => rfl

theorem Closed.lookup_or (closed : t.Closed) (here : t.current = some x) (name : String) :
    t.lookup name = (t.findIn x name).or ((t.moved (t.outer? x)).lookup name) := by
  have around : (t.moved (t.outer? x)).Closed := closed.moved fun _ => closed.outer_lt
  obtain ⟨xs, way⟩ := around.outward (t.outer? x)
  have whole : t.Outward t.current (x :: xs) := here ▸ .cons (way.congr fun _ _ => rfl)
  rw [closed.lookup_eq whole, around.lookup_eq way, List.flatMap_cons, List.append_assoc,
    List.find?_append]
  rfl

/-- What is in a table is still there, under the same names, and the scopes below a number have
    nothing more in them. -/
structure Leaves (limit : Nat) (t u : Table) : Prop where
  objects : t.objects.size ≤ u.objects.size
  scopes : t.scopes.size ≤ u.scopes.size
  name : ∀ {id}, id.index < t.objects.size → u.name? id = t.name? id
  outer : ∀ {x}, x.index < t.scopes.size → u.outer? x = t.outer? x
  listed : ∀ {x}, x.index < limit → u.objectsIn x = t.objectsIn x
  builtins : u.builtins = t.builtins

theorem Leaves.refl (limit : Nat) (t : Table) : Leaves limit t t :=
  ⟨Nat.le_refl _, Nat.le_refl _, fun _ => rfl, fun _ => rfl, fun _ => rfl, rfl⟩

theorem Leaves.trans (first : Leaves limit t u) (second : Leaves limit u v) : Leaves limit t v where
  objects := Nat.le_trans first.objects second.objects
  scopes := Nat.le_trans first.scopes second.scopes
  name old := (second.name (Nat.lt_of_lt_of_le old first.objects)).trans (first.name old)
  outer old := (second.outer (Nat.lt_of_lt_of_le old first.scopes)).trans (first.outer old)
  listed below := (second.listed below).trans (first.listed below)
  builtins := second.builtins.trans first.builtins

theorem Leaves.mono {less : Nat} (leaves : Leaves limit t u) (le : less ≤ limit) :
    Leaves less t u :=
  { leaves with listed := fun below => leaves.listed (Nat.lt_of_lt_of_le below le) }

theorem Leaves.moved (leaves : Leaves limit t u) (a b : Option ScopeId) :
    Leaves limit (t.moved a) (u.moved b) :=
  ⟨leaves.objects, leaves.scopes, leaves.name, leaves.outer, leaves.listed, leaves.builtins⟩

theorem Leaves.lookup (leaves : Leaves limit t u) (before : t.Closed) (after : u.Closed)
    (current : u.current = t.current) (bound : ∀ x, t.current = some x → x.index < limit)
    (name : String) : u.lookup name = t.lookup name := by
  obtain ⟨xs, way⟩ := before.outward t.current
  have old := before.outward_lt way fun _ => before.current
  have below := before.outward_lt way bound
  have same : u.Outward u.current xs :=
    current ▸ way.congr fun x member => leaves.outer (old x member)
  have listed : xs.flatMap u.objectsIn = xs.flatMap t.objectsIn :=
    List.flatMap_congr fun x member => leaves.listed (below x member)
  rw [before.lookup_eq way, after.lookup_eq same, listed, leaves.builtins]
  exact List.find?_congr fun id member => by rw [leaves.name (before.candidates_lt xs id member)]

theorem name?_declareIn (scope : ScopeId) (id : ObjectId) : (t.declareIn scope o).2.name? id =
    if id.index = t.objects.size then some o.name else t.name? id := by
  rw [name?, object?_declareIn, object?_addObject]
  split <;> split <;> simp [name?, Option.map_map, Function.comp_def]

theorem outer?_declareIn (scope x : ScopeId) :
    (t.declareIn scope o).2.outer? x = t.outer? x := by
  rw [outer?, outer?, scope?_declareIn]
  cases t.scope? x with
  | none => rfl
  | some s =>
    simp only [Option.map_some, Option.bind_eq_bind, Option.bind_some]
    split <;> split <;> rfl

theorem objectsIn_declareIn {scope : ScopeId} (known : scope.index < t.scopes.size)
    (x : ScopeId) : (t.declareIn scope o).2.objectsIn x =
      if scope = x then t.objectsIn x ++ [t.nextObject] else t.objectsIn x := by
  rw [objectsIn, objectsIn, scope?_declareIn]
  cases found : t.scope? x with
  | none =>
    have other : scope ≠ x := by
      rintro rfl
      rw [scope?, Array.getElem?_eq_getElem known] at found
      cases found
    rw [if_neg other]
    rfl
  | some s =>
    simp only [Option.map_some, Option.getD_some]
    split <;> split <;> rfl

theorem leaves_declareIn {scope : ScopeId} (known : scope.index < t.scopes.size) (o : Object) :
    Leaves scope.index t (t.declareIn scope o).2 where
  objects := by
    rw [declareIn_objects_size]
    exact Nat.le_succ _
  scopes := Nat.le_of_eq (declareIn_scopes_size scope).symm
  name old := by rw [name?_declareIn, if_neg (Nat.ne_of_lt old)]
  outer _ := outer?_declareIn ..
  listed below := by
    rw [objectsIn_declareIn known, if_neg]
    rintro rfl
    exact Nat.lt_irrefl _ below
  builtins := declareIn_builtins scope

theorem findIn_isSome {name : String} : (t.findIn x name).isSome ↔ name ∈ t.namesIn x := by
  simp [findIn, namesIn]

theorem Closed.findIn_declareIn (closed : t.Closed) (known : x.index < t.scopes.size)
    (name : String) : (t.declareIn x o).2.findIn x name =
      (t.findIn x name).or (if o.name = name then some t.nextObject else none) := by
  have old : (t.objectsIn x).find? (fun id => (t.declareIn x o).2.name? id = some name) =
      t.findIn x name := by
    refine List.find?_congr fun id member => ?_
    rw [name?_declareIn, if_neg (Nat.ne_of_lt (closed.listed member))]
  have new : (t.declareIn x o).2.name? t.nextObject = some o.name := by
    rw [name?_declareIn]
    exact if_pos rfl
  rw [findIn, objectsIn_declareIn known, if_pos rfl, List.find?_append, old,
    List.find?_singleton, new]
  simp only [Option.some.injEq, decide_eq_true_eq]

theorem Closed.lookup_declareIn (closed : t.Closed) (admits : t.Admits o)
    (here : t.current = some x) (name : String) : (t.declareIn x o).2.lookup name =
      if o.name = name ∧ name ∉ t.namesIn x then some t.nextObject else t.lookup name := by
  have known : x.index < t.scopes.size := closed.current here
  have after : (t.declareIn x o).2.Closed := closed.declareIn x fun y owns => admits.scope y owns
  have still : (t.declareIn x o).2.current = some x := (declareIn_current x o).trans here
  have around : ((t.declareIn x o).2.moved ((t.declareIn x o).2.outer? x)).lookup name =
      (t.moved (t.outer? x)).lookup name :=
    ((leaves_declareIn known o).moved _ _).lookup (closed.moved fun _ => closed.outer_lt)
      (after.moved fun _ => after.outer_lt) (outer?_declareIn x x) (fun _ => closed.outer) name
  rw [after.lookup_or still, closed.lookup_or here, closed.findIn_declareIn known, around]
  have declared : (t.findIn x name).isSome ↔ name ∈ t.namesIn x := findIn_isSome
  cases found : t.findIn x name with
  | some id =>
    have old : ¬(o.name = name ∧ name ∉ t.namesIn x) :=
      fun new => new.2 (declared.mp (found ▸ rfl))
    rw [if_neg old]
    rfl
  | none =>
    have fresh : name ∉ t.namesIn x := by simpa [found] using declared
    by_cases own : o.name = name
    · rw [if_pos own, if_pos ⟨own, fresh⟩]
      rfl
    · rw [if_neg own, if_neg fun new => own new.1]
      rfl

theorem Edit.closed (closed : t.Closed) (edit : Edit t u) : u.Closed := by
  cases edit with
  | program name loc =>
    rw [createProgram_eq]
    exact closed.withProgram name loc
  | scope owner outer _ around => exact closed.addScope around
  | function | procedure => exact closed.addScope fun _ here => closed.current here
  | declare admits declared =>
    obtain ⟨x, _, rfl⟩ := declare_eq_ok declared
    exact closed.declareIn x fun y owns => admits.scope y owns
  | setReturns id ty => exact closed.setReturns id ty

theorem Call.closed (closed : t.Closed) (call : Call t u) : u.Closed := by
  cases call with
  | edit edit => exact edit.closed closed
  | enter x known =>
    refine closed.moved ?_
    rintro y ⟨⟩
    exact known
  | exit left =>
    obtain ⟨x, _, rfl⟩ := exit_eq_ok left
    exact closed.moved fun _ => closed.outer_lt

theorem Used.closed (used : t.Used) : t.Closed := by
  induction used with
  | refl => exact initial_sound.closed
  | tail _ call ih => exact call.closed ih

theorem Edit.current (edit : Edit t u) : u.current = t.current := by
  cases edit with
  | declare _ declared =>
    obtain ⟨x, _, rfl⟩ := declare_eq_ok declared
    exact declareIn_current ..
  | _ => rfl

theorem leaves_addScope (limit : Nat) (owner : Option ObjectId) (outer : Option ScopeId) :
    Leaves limit t (t.addScope ⟨owner, outer, []⟩) where
  objects := Nat.le_refl _
  scopes := by
    rw [addScope_scopes_size]
    exact Nat.le_succ _
  name _ := rfl
  outer old := by rw [outer?, scope?_addScope, if_neg (Nat.ne_of_lt old), outer?]
  listed _ := objectsIn_addScope ..
  builtins := rfl

theorem leaves_withProgram (limit : Nat) (name : String) (loc : Loc) :
    Leaves limit t (t.withProgram name loc) where
  objects := by
    rw [withProgram_objects_size]
    exact Nat.le_succ _
  scopes := by
    rw [withProgram_scopes_size]
    exact Nat.le_succ _
  name old := by rw [name?, object?_withProgram_of_lt name loc old, name?]
  outer old := by rw [outer?, scope?_withProgram_of_lt name loc old, outer?]
  listed _ := objectsIn_withProgram ..
  builtins := withProgram_builtins ..

theorem leaves_setReturns (limit : Nat) (id : ObjectId) (ty : Ty) :
    Leaves limit t (t.setReturns id ty) where
  objects := Nat.le_of_eq (setReturns_objects_size id ty).symm
  scopes := Nat.le_refl _
  name {i} _ := by
    rw [name?, name?, setReturns, object?_modifyMeaning]
    split
    · rw [Option.map_map]
      rfl
    · rfl
  outer _ := rfl
  listed _ := rfl
  builtins := rfl

theorem Edit.leaves (closed : t.Closed) (edit : Edit t u) (here : t.current = some x) :
    Leaves x.index t u := by
  cases edit with
  | program name loc =>
    rw [createProgram_eq]
    exact leaves_withProgram x.index name loc
  | scope | function | procedure => exact leaves_addScope ..
  | declare _ declared =>
    obtain ⟨y, current, rfl⟩ := declare_eq_ok declared
    obtain rfl := Option.some.inj (here.symm.trans current)
    exact leaves_declareIn (closed.current here) _
  | setReturns id ty => exact leaves_setReturns x.index id ty

theorem Works.leaves (works : Works t u) (closed : t.Closed) (here : t.current = some x) :
    u.Closed ∧ u.current = some x ∧ Leaves x.index t u := by
  induction works generalizing x with
  | done => exact ⟨closed, here, .refl ..⟩
  | edit edit _ ih =>
    obtain ⟨after, still, rest⟩ := ih (edit.closed closed) (edit.current.trans here)
    exact ⟨after, still, (edit.leaves closed here).trans rest⟩
  | @visit t u v w y known inside _ left _ first second =>
    obtain ⟨after, still, leaves⟩ := first (closed.moved (by rintro z ⟨⟩; exact known)) rfl
    obtain ⟨z, current, rfl⟩ := exit_eq_ok left
    obtain rfl := Option.some.inj (still.symm.trans current)
    have back : u.outer? y = some x := (leaves.outer known).trans (inside.trans here)
    have younger : x.index < y.index := closed.outer (inside.trans here)
    obtain ⟨last, ends, rest⟩ := second (after.moved fun _ => after.outer_lt) back
    have visit : Leaves x.index t (u.moved (u.outer? y)) :=
      (leaves.mono (Nat.le_of_lt younger)).moved t.current _
    exact ⟨last, ends, visit.trans rest⟩

/-- What a name means, in every table that a client makes. It is the first object of that name
    from the current scope outward, or else the builtin; a declaration changes the meaning of its
    own name alone, and of that one unless the scope declares it already; and a visit to a scope
    that the current one surrounds changes the meaning of no name. -/
theorem Used.lexical (used : t.Used) :
    (∃ scopes, t.Outward t.current scopes ∧ (∀ x ∈ scopes, x.index < t.scopes.size) ∧
      (∀ id ∈ scopes.flatMap t.objectsIn ++ t.builtins, id.index < t.objects.size) ∧
      ∀ name, t.lookup name = (scopes.flatMap t.objectsIn ++ t.builtins).find? fun id =>
        t.name? id = some name) ∧
    (∀ o id u, t.Admits o → t.declare o = .ok (id, u) → ∃ scope, t.current = some scope ∧
      u.lookup o.name = (if o.name ∈ t.namesIn scope then t.lookup o.name else some id) ∧
      ∀ name, name ≠ o.name → u.lookup name = t.lookup name) ∧
    ∀ x u v, x.index < t.scopes.size → t.outer? x = t.current → Works (t.enter x) u →
      u.exit = .ok v → v.current = t.current ∧ ∀ name, v.lookup name = t.lookup name := by
  have closed := used.closed
  refine ⟨?_, ?_, ?_⟩
  · obtain ⟨scopes, way⟩ := closed.outward t.current
    exact ⟨scopes, way, closed.outward_lt way fun _ => closed.current,
      closed.candidates_lt scopes, closed.lookup_eq way⟩
  · intro o id u admits declared
    obtain ⟨x, here, rfl⟩ := declare_eq_ok declared
    have new : id = t.nextObject := by
      rw [declare, here] at declared
      exact (congrArg Prod.fst (Except.ok.inj declared)).symm
    refine ⟨x, here, ?_, fun name other => ?_⟩
    · rw [closed.lookup_declareIn admits here, new]
      split <;> split <;> simp_all
    · rw [closed.lookup_declareIn admits here, if_neg fun own => other own.1.symm]
  · intro x u v known inside works left
    have entered : (t.enter x).Closed := closed.moved (by rintro y ⟨⟩; exact known)
    obtain ⟨after, still, leaves⟩ := works.leaves entered rfl
    obtain ⟨y, current, rfl⟩ := exit_eq_ok left
    obtain rfl := Option.some.inj (still.symm.trans current)
    have back : u.outer? x = t.current := (leaves.outer known).trans inside
    have younger : ∀ y, t.current = some y → y.index < x.index :=
      fun y here => closed.outer (inside.trans here)
    refine ⟨back, (leaves.moved t.current _).lookup closed ?_ back younger⟩
    exact after.moved fun _ => after.outer_lt

/-- A variable of a program, hidden by one of its procedure until the procedure's scope is left. -/
theorem Used.lexical_of_hidden :
    let x : Object := ⟨"x", some .start, .var .int⟩
    let program := (((initial.createProgram "P" .start).2.enter ⟨5⟩).declareIn ⟨5⟩ x).2
    let draft := program.createProcedure "Q" .start
    let t := (draft.2.declareIn ⟨5⟩ draft.1).2
    let inside := ((t.enter ⟨6⟩).declareIn ⟨6⟩ x).2
    t.Used ∧ (t.enter ⟨6⟩).Used ∧ (∃ scopes, t.Outward t.current scopes ∧
      t.lookup "x" = (scopes.flatMap t.objectsIn ++ t.builtins).find? fun id =>
        t.name? id = some "x") ∧ t.lookup "x" = some ⟨8⟩ ∧ inside.lookup "x" = some ⟨10⟩ ∧
      ∀ v, inside.exit = .ok v → ∀ name, v.lookup name = t.lookup name := by
  intro x program draft t inside
  have plain : Admits ((initial.createProgram "P" .start).2.enter ⟨5⟩) x := ⟨nofun, nofun⟩
  have routine : draft.2.Admits draft.1 := ⟨nofun, by rintro y ⟨⟩; decide⟩
  have hidden : (t.enter ⟨6⟩).Admits x := ⟨nofun, nofun⟩
  have made : Used program :=
    (((Relation.ReflTransGen.refl.tail (.edit (.program _ "P" .start))).tail
      (.enter ⟨5⟩ (by decide))).tail (.edit (.declare plain rfl)))
  have used : t.Used :=
    (made.tail (.edit (.procedure _ "Q" .start))).tail (.edit (.declare routine rfl))
  have entered : (t.enter ⟨6⟩).Used := used.tail (.enter ⟨6⟩ (by decide))
  obtain ⟨⟨scopes, way, _, _, first⟩, _, visits⟩ := used.lexical
  obtain ⟨scope, here, own, _⟩ := entered.lexical.2.1 x ⟨10⟩ inside hidden rfl
  obtain rfl : scope = ⟨6⟩ := (Option.some.inj here).symm
  have new : x.name ∉ (t.enter ⟨6⟩).namesIn ⟨6⟩ := by decide
  refine ⟨used, entered, ⟨scopes, way, first "x"⟩, by cbv, own.trans (if_neg new), ?_⟩
  intro v left
  exact (visits ⟨6⟩ inside v (by decide) rfl (.edit (.declare hidden rfl) (.done _)) left).2

end Table

end Kpl
