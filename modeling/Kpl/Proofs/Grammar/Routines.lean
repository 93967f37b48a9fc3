import Kpl.Proofs.Grammar.Headers

namespace Kpl

namespace Grammar

variable {env : Env} {keyword : Keyword} {header : Header} {ts : List Token}

inductive Routine (maxDepth : Nat) (env : Env) (keyword : Keyword) : List Token → Contents → Prop where
  | mk {t name semicolon : Token} {header : Header} {ts us : List Token} {inside : Contents} :
    t.kind = .keyword keyword → name.kind = .ident → name.lexeme ∉ env.names →
      Heading keyword header ts → Block maxDepth (env.enter name.lexeme header) us inside →
      semicolon.kind = .symbol .semicolon →
      Routine maxDepth env keyword (t :: name :: (ts ++ (us ++ [semicolon])))
        (.routine name.lexeme name.loc header inside .nil)

theorem Entries.fresh {ds : Contents} (h : Entries keyword env ts ds) (inside : env ≠ []) :
    ds.Fresh env.names := by
  induction h with
  | one entry =>
    cases entry with
    | mk _ new => exact ⟨new, trivial⟩
  | @more env name loc ts rest what ds entry _ ih =>
    cases entry with
    | mk _ new =>
      refine ⟨new, ?_⟩
      have others := ih (Env.declare_ne_nil inside _)
      rwa [Env.names_declare inside] at others

theorem Entries.complete {ds : Contents} (h : Entries keyword env ts ds) : ds.Complete := by
  induction h with
  | one => trivial
  | more _ _ ih => exact ih

theorem Parameters.nodup {params : List Param} (h : Parameters params ts) :
    (params.map (·.name)).Nodup := by
  cases h with
  | none => exact List.nodup_nil
  | empty => exact List.nodup_nil
  | list _ _ distinct => exact distinct

theorem Heading.nodup (h : Heading keyword header ts) : header.names.Nodup := by
  cases h with
  | function derived => exact derived.nodup
  | procedure derived => exact derived.nodup

theorem Heading.complete (h : Heading keyword header ts) : header.Complete := by
  cases h with
  | function => rfl
  | procedure => trivial

theorem Block.fresh {maxDepth : Nat} {ds : Contents} (h : Block maxDepth env ts ds)
    (inside : env ≠ []) : ds.Fresh env.names := by
  induction h with
  | body => trivial
  | @«section» env keyword t ts rest ds ds' _ entries _ ih =>
    have others := ih (Env.declare_ne_nil inside _)
    rw [Env.names_declare inside, ← Contents.names_eq] at others
    exact (Contents.fresh_append _ _ _).mpr ⟨entries.fresh inside, others⟩
  | @routine env keyword t name semicolon header ts us rest insides ds _ _ new heading _ _ _ ih ih' =>
    have block := ih nofun
    have others := ih' (Env.declare_ne_nil inside _)
    rw [Env.names_enter] at block
    rw [Env.names_declare inside] at others
    exact ⟨new, heading.nodup, block, others⟩

end Grammar

namespace Analysis

open Grammar

variable {n : Nat} {c : Setting} {scope : ScopeId} {env : Env} {name : String} {loc : Loc}
  {header : Header}

theorem declareRoutine_move (here : c.table.current = some scope)
    (known : scope.index < c.table.scopes.size) {create : Table → Object × Table}
    (empty : header.params = [])
    (creates : ∀ t : Table, create t = (⟨name, some loc, header.meaning [] t.nextScope⟩,
      t.addScope ⟨none, t.current, []⟩)) {s : State} (setting : s.setting = c) :
    ∃ t, declareRoutine create s = (.ok c.table.nextObject, t) ∧ t.cursor = s.cursor ∧
      t.setting = c.over (c.table.extend scope (.routine name loc header .nil .nil)) := by
  subst setting
  have current : s.table.current = some scope := here
  have declared := @Table.declareIn_routine s.table scope name loc header empty known
  rw [declareRoutine, bind_of_ok (table_apply s), creates, current]
  dsimp only
  rw [bind_of_ok (modify_apply _ _)]
  have run := declare_apply (s := { s with table := s.table.addScope ⟨none, some scope, []⟩ })
    ⟨name, some loc, header.meaning [] s.table.nextScope⟩ current
  dsimp only at run
  rw [declared] at run
  exact ⟨_, run, rfl, rfl⟩

theorem enter_move {T : Table} {id : ObjectId} {inside : ScopeId}
    (owned : T.meaning? id >>= (·.ownedScope?) = some inside) {s : State}
    (setting : s.setting = c.over T) :
    ∃ t, enterOwned id s = (.ok (), t) ∧ t.cursor = s.cursor ∧ t.setting = c.over (T.enter inside) := by
  obtain rfl : s.table = T := congrArg Setting.table setting
  rw [enterOwned_apply owned, enterScope_apply]
  exact ⟨_, rfl, rfl, congrArg (fun d : Setting => d.over (d.table.enter inside)) setting⟩

theorem leave_move {T : Table} {inside : ScopeId} (here : T.current = some inside) {s : State}
    (setting : s.setting = c.over T) :
    ∃ t, exitScope s = (.ok (), t) ∧ t.cursor = s.cursor ∧
      t.setting = c.over { T with current := T.outer? inside } := by
  obtain rfl : s.table = T := congrArg Setting.table setting
  rw [exitScope_apply here]
  exact ⟨_, rfl, rfl, congrArg (fun d : Setting =>
    d.over { d.table with current := d.table.outer? inside }) setting⟩

theorem enterOwned_move {s : State}
    (setting : s.setting = c.over (c.table.extend scope (.routine name loc header .nil .nil))) :
    ∃ t, enterOwned c.table.nextObject s = (.ok (), t) ∧ t.cursor = s.cursor ∧
      t.setting = c.inside scope name loc header := by
  refine enter_move ?_ setting
  rw [Table.meaning?, Table.object?_routine]
  exact Header.meaning_ownedScope _ _ _

theorem setReturns_move (ty : Ty) {s : State}
    (setting : s.setting = c.inside scope name loc header) :
    ∃ t, (modify fun s => { s with table := s.table.setReturns c.table.nextObject ty } :
        Analysis Unit) s = (.ok (), t) ∧ t.cursor = s.cursor ∧
      t.setting = c.inside scope name loc (header.setReturns ty) := by
  refine ⟨_, modify_apply _ _, rfl, ?_⟩
  rw [Setting.inside, ← Table.setReturns_routine]
  exact congrArg (fun d : Setting => d.over (d.table.setReturns c.table.nextObject ty)) setting

theorem exitScope_move (here : c.table.current = some scope) (inside : Contents) {s : State}
    (setting : s.setting = (c.inside scope name loc header).over
      ((c.inside scope name loc header).table.extend c.table.nextScope inside)) :
    ∃ t, exitScope s = (.ok (), t) ∧ t.cursor = s.cursor ∧
      t.setting = c.over (c.table.extend scope (.routine name loc header inside .nil)) := by
  have within : ((c.inside scope name loc header).table.extend c.table.nextScope inside).current =
      some c.table.nextScope := rfl
  obtain ⟨t, run, cursor, left⟩ := leave_move (c := c) within setting
  have around : ((c.inside scope name loc header).table.extend c.table.nextScope inside).outer?
      c.table.nextScope = some scope :=
    Table.outer?_eq_some.mpr ⟨_, Table.scope?_extend_same inside
      (Table.scope?_routine (t := c.table) name loc header), rfl⟩
  rw [around, ← here] at left
  rw [← Table.extend_inside]
  exact ⟨t, run, cursor, left⟩

def BlockDeclares (n : Nat) (block : Analysis Unit) : Prop :=
  ∀ {c : Setting} {scope : ScopeId} {env : Env}, c.table.Inside scope env → env.Complete →
    Declares n c scope env.names block (fun ts ds _ => Block (c.maxDepth - c.depth) env ts ds)
      (fun ts ds _ => Block (c.maxDepth - c.depth) env ts ds)

section Routines

variable {block : Analysis Unit} (blocks : BlockDeclares n block)
  (visible : c.table.Inside scope env) (complete : env.Complete)

include blocks visible complete

theorem routineTail_declares (fresh : name ∉ env.names) (distinct : header.names.Nodup)
    (known : header.Complete) :
    Spec n (c.inside scope name loc header)
      (do
        block
        let _ ← eat (.symbol .semicolon)
        exitScope)
      (fun ts _ _ d => ∃ us semicolon inside, ts = us ++ [semicolon] ∧
        Block (c.maxDepth - c.depth) (env.enter name header) us inside ∧
        semicolon.kind = .symbol .semicolon ∧
        d = c.over (c.table.extend scope (.routine name loc header inside .nil)))
      (fun ts _ _ d => ∃ us semicolon inside, ts = us ++ [semicolon] ∧
        Block (c.maxDepth - c.depth) (env.enter name header) us inside ∧
        semicolon.kind = .symbol .semicolon ∧
        d = c.over (c.table.extend scope (.routine name loc header inside .nil)))
      (Abandoned c scope env.names) := by
  have within := visible.enter name loc header fresh distinct
  have body := blocks (c := c.inside scope name loc header) within (complete.enter name known)
  rw [Env.names_enter] at body
  refine Spec.narrow (Spec.bind_indexed (b := fun _ => ())
    (C := fun inside => (c.inside scope name loc header).over
      ((c.inside scope name loc header).table.extend c.table.nextScope inside))
    (L := fun us inside _ => Block (c.maxDepth - c.depth) (env.enter name header) us inside)
    (U := fun us inside _ => Block (c.maxDepth - c.depth) (env.enter name header) us inside)
    (Spec.mono body ?_ ?_ (Abandoned.inside fresh distinct)) id fun {us inside _} derived =>
      Spec.bind_eat ?_ fun _ _ => Spec.move (exitScope_move visible.current inside)) ?_ ?_
  · rintro us ⟨⟩ k _ ⟨inside, _, rfl, derived⟩
    exact ⟨inside, derived, rfl⟩
  · rintro us ⟨⟩ k _ ⟨inside, derived, rfl⟩
    exact ⟨inside, rfl, rfl, derived⟩
  · intro e sort
    have new := derived.fresh nofun
    rw [Env.names_enter] at new
    exact Abandoned.inside fresh distinct (Abandoned.extended within.known new sort)
  · rintro _ ⟨⟩ k _ ⟨us, semicolon, inside, rfl, derived, closes, rfl⟩
    exact ⟨us, [semicolon], inside, rfl, derived, semicolon, [], rfl, closes, rfl, rfl, rfl⟩
  · rintro _ ⟨⟩ k _ ⟨us, _, inside, rfl, derived, semicolon, _, rfl, closes, rfl, _, rfl⟩
    exact ⟨us, semicolon, inside, rfl, derived, closes, rfl⟩

def RoutineBody (c : Setting) (scope : ScopeId) (env : Env) (name : String) (loc : Loc)
    (header : Header) : Language Unit := fun ts _ _ d =>
  ∃ middle us semicolon inside, ts = middle :: (us ++ [semicolon]) ∧
    middle.kind = .symbol .semicolon ∧
    Block (c.maxDepth - c.depth) (env.enter name header) us inside ∧
    semicolon.kind = .symbol .semicolon ∧
    d = c.over (c.table.extend scope (.routine name loc header inside .nil))

theorem routineBody_declares (fresh : name ∉ env.names) (distinct : header.names.Nodup)
    (known : header.Complete) :
    Spec n (c.inside scope name loc header)
      (do
        let _ ← eat (.symbol .semicolon)
        block
        let _ ← eat (.symbol .semicolon)
        exitScope)
      (RoutineBody c scope env name loc header) (RoutineBody c scope env name loc header)
      (Abandoned c scope env.names) := by
  refine Spec.narrow (Spec.bind_eat (Abandoned.here fresh distinct) fun _ _ =>
    routineTail_declares blocks visible complete fresh distinct known) ?_ ?_
  · rintro _ ⟨⟩ k _ ⟨middle, us, semicolon, inside, rfl, divides, body, closes, rfl⟩
    exact ⟨middle, _, rfl, divides, us, semicolon, inside, rfl, body, closes, rfl⟩
  · rintro _ ⟨⟩ k _ ⟨middle, _, rfl, divides, us, semicolon, inside, rfl, body, closes, rfl⟩
    exact ⟨middle, us, semicolon, inside, rfl, divides, body, closes, rfl⟩

def RoutineRest (c : Setting) (scope : ScopeId) (env : Env) (keyword : Keyword) (name : String)
    (loc : Loc) : Language Unit := fun ts _ _ d =>
  ∃ header us vs semicolon inside, ts = us ++ (vs ++ [semicolon]) ∧ Heading keyword header us ∧
    Block (c.maxDepth - c.depth) (env.enter name header) vs inside ∧
    semicolon.kind = .symbol .semicolon ∧
    d = c.over (c.table.extend scope (.routine name loc header inside .nil))

theorem functionRest_declares (fresh : name ∉ env.names) :
    Spec n (c.inside scope name loc (.function [] none))
      (do
        params
        let _ ← eat (.symbol .colon)
        let returns ← basicType
        modify fun s => { s with table := s.table.setReturns c.table.nextObject returns }
        let _ ← eat (.symbol .semicolon)
        block
        let _ ← eat (.symbol .semicolon)
        exitScope)
      (RoutineRest c scope env .function name loc) (RoutineRest c scope env .function name loc)
      (Abandoned c scope env.names) := by
  let Body (params : List Param) (ty : Ty) : Language Unit :=
    RoutineBody c scope env name loc (.function params (some ty))
  let Typed (params : List Param) : Language Unit := fun ts _ k d =>
    ∃ colon us vs ty, ts = colon :: (us ++ vs) ∧ colon.kind = .symbol .colon ∧ BasicType us ty ∧
      Body params ty vs () k d
  have read : Spec n (c.inside scope name loc (.function [] none)) params _ _ _ :=
    params_declares visible fresh rfl
  refine Spec.narrow (Spec.bind_indexed read And.left (M := Typed) (V := Typed)
    fun {_ params _} derived => ?_) ?_ ?_
  · have distinct : (Header.function params none).names.Nodup := derived.nodup
    refine Spec.narrow (Spec.bind_eat (Abandoned.here fresh distinct) fun _ _ => Spec.bind_reads
      basicType_reads (Abandoned.here fresh distinct) (M := Body params) (V := Body params)
        fun {_ ty _} _ => ?_) ?_ ?_
    · have distinct : (Header.function params (some ty)).names.Nodup := derived.nodup
      refine Spec.bind_move (setReturns_move ty) ?_
      exact routineBody_declares blocks visible complete fresh distinct rfl
    · rintro _ ⟨⟩ k _ ⟨colon, us, vs, ty, rfl, colonKind, typed, rest⟩
      exact ⟨colon, _, rfl, colonKind, us, vs, ty, rfl, typed, rest⟩
    · rintro _ ⟨⟩ k _ ⟨colon, _, rfl, colonKind, us, vs, ty, rfl, typed, rest⟩
      exact ⟨colon, us, vs, ty, rfl, colonKind, typed, rest⟩
  · rintro _ ⟨⟩ k _ ⟨_, _, vs, semicolon, inside, rfl, heading, body, closes, rfl⟩
    cases heading with
    | @function params ty colon middle ts us derived colonKind typed divides =>
      refine ⟨ts, colon :: (us ++ middle :: (vs ++ [semicolon])), params, by simp, ⟨derived, ?_⟩,
        colon, us, _, ty, rfl, colonKind, typed, middle, vs, semicolon, inside, rfl, divides, body,
        closes, rfl⟩
      rw [leading_cons, colonKind]
      nofun
  · rintro _ ⟨⟩ k _ ⟨ts, _, params, rfl, derived, colon, us, _, ty, rfl, colonKind, typed, middle,
      vs, semicolon, inside, rfl, divides, body, closes, rfl⟩
    exact ⟨.function params (some ty), ts ++ colon :: (us ++ [middle]), vs, semicolon, inside,
      by simp, .function derived colonKind typed divides, body, closes, rfl⟩

theorem procedureRest_declares (fresh : name ∉ env.names) :
    Spec n (c.inside scope name loc (.procedure []))
      (do
        params
        let _ ← eat (.symbol .semicolon)
        block
        let _ ← eat (.symbol .semicolon)
        exitScope)
      (RoutineRest c scope env .procedure name loc) (RoutineRest c scope env .procedure name loc)
      (Abandoned c scope env.names) := by
  let Body (params : List Param) : Language Unit :=
    RoutineBody c scope env name loc (.procedure params)
  have read : Spec n (c.inside scope name loc (.procedure [])) params _ _ _ :=
    params_declares visible fresh rfl
  refine Spec.narrow (Spec.bind_indexed read And.left (M := Body) (V := Body)
    fun {_ params _} derived => ?_) ?_ ?_
  · have distinct : (Header.procedure params).names.Nodup := derived.nodup
    exact routineBody_declares blocks visible complete fresh distinct trivial
  · rintro _ ⟨⟩ k _ ⟨_, _, vs, semicolon, inside, rfl, heading, body, closes, rfl⟩
    cases heading with
    | @procedure params middle ts derived divides =>
      refine ⟨ts, middle :: (vs ++ [semicolon]), params, by simp, ⟨derived, ?_⟩, middle, vs,
        semicolon, inside, rfl, divides, body, closes, rfl⟩
      rw [leading_cons, divides]
      nofun
  · rintro _ ⟨⟩ k _ ⟨ts, _, params, rfl, derived, middle, vs, semicolon, inside, rfl, divides, body,
      closes, rfl⟩
    exact ⟨.procedure params, ts ++ [middle], vs, semicolon, inside, by simp,
      .procedure derived divides, body, closes, rfl⟩

omit blocks complete in
theorem routine_declares {keyword : Keyword} (create : String → Loc → Table → Object × Table)
    (rest : ObjectId → Analysis Unit) (empty : header.params = [])
    (creates : ∀ name loc t, create name loc t = (⟨name, some loc, header.meaning [] t.nextScope⟩,
      t.addScope ⟨none, t.current, []⟩))
    (behind : ∀ {name loc}, name ∉ env.names → Spec n (c.inside scope name loc header)
      (rest c.table.nextObject) (RoutineRest c scope env keyword name loc)
      (RoutineRest c scope env keyword name loc) (Abandoned c scope env.names)) :
    Declares (n + 1) c scope env.names
      (do
        let _ ← eat (.keyword keyword)
        let name ← freshName
        let id ← declareRoutine (create name.lexeme name.loc)
        enterOwned id
        rest id)
      (fun ts ds _ => Routine (c.maxDepth - c.depth) env keyword ts ds)
      (fun ts ds _ => Routine (c.maxDepth - c.depth) env keyword ts ds) := by
  let Named : Language Unit := fun ts _ k d => ∃ name us, ts = name :: us ∧ name.kind = .ident ∧
    name.lexeme ∉ env.names ∧ RoutineRest c scope env keyword name.lexeme name.loc us () k d
  refine Spec.narrow (Spec.bind_eat_shorter (x := .keyword keyword) nofun Abandoned.quiet
    (L := fun _ => Named)
    (U := fun _ => Named)
    fun _ _ => Spec.narrow (Spec.bind_reads (freshName_reads visible)
      Abandoned.quiet (M := fun name => RoutineRest c scope env keyword name.lexeme name.loc)
      (V := fun name => RoutineRest c scope env keyword name.lexeme name.loc)
      fun {_ name _} named => ?_) ?_ ?_) ?_ ?_
  · refine Spec.bind_move (declareRoutine_move visible.current visible.known empty (creates _ _)) ?_
    refine Spec.bind_move enterOwned_move ?_
    exact behind named.2.2
  · rintro _ ⟨⟩ k _ ⟨name, us, rfl, known, new, rest⟩
    exact ⟨[name], us, name, rfl, ⟨rfl, known, new⟩, rest⟩
  · rintro _ ⟨⟩ k _ ⟨_, us, name, rfl, ⟨rfl, known, new⟩, rest⟩
    exact ⟨name, us, rfl, known, new, rest⟩
  · rintro _ ⟨⟩ k _ ⟨_, derived, rfl⟩
    cases derived with
    | @mk t name semicolon header ts us inside opens known new heading body closes =>
      exact ⟨t, _, rfl, opens, name, _, rfl, known, new, header, ts, us, semicolon, inside, rfl,
        heading, body, closes, rfl⟩
  · rintro _ ⟨⟩ k _ ⟨t, _, rfl, opens, name, _, rfl, known, new, header, ts, us, semicolon, inside,
      rfl, heading, body, closes, rfl⟩
    exact ⟨_, .mk opens known new heading body closes, rfl⟩

theorem functionOver_declares :
    Declares (n + 1) c scope env.names (functionOver block)
      (fun ts ds _ => Routine (c.maxDepth - c.depth) env .function ts ds)
      (fun ts ds _ => Routine (c.maxDepth - c.depth) env .function ts ds) := by
  let rest (id : ObjectId) : Analysis Unit := do
    params
    let _ ← eat (.symbol .colon)
    let returns ← basicType
    modify fun s => { s with table := s.table.setReturns id returns }
    let _ ← eat (.symbol .semicolon)
    block
    let _ ← eat (.symbol .semicolon)
    exitScope
  have behind {name : String} {loc : Loc} (fresh : name ∉ env.names) :
      Spec n (c.inside scope name loc (.function [] none)) (rest c.table.nextObject) _ _ _ :=
    functionRest_declares blocks visible complete fresh
  exact routine_declares visible (fun name loc t => t.createFunction name loc) rest rfl
    (fun _ _ _ => rfl) behind

theorem procedureOver_declares :
    Declares (n + 1) c scope env.names (procedureOver block)
      (fun ts ds _ => Routine (c.maxDepth - c.depth) env .procedure ts ds)
      (fun ts ds _ => Routine (c.maxDepth - c.depth) env .procedure ts ds) := by
  let rest (_ : ObjectId) : Analysis Unit := do
    params
    let _ ← eat (.symbol .semicolon)
    block
    let _ ← eat (.symbol .semicolon)
    exitScope
  have behind {name : String} {loc : Loc} (fresh : name ∉ env.names) :
      Spec n (c.inside scope name loc (.procedure [])) (rest c.table.nextObject) _ _ _ :=
    procedureRest_declares blocks visible complete fresh
  exact routine_declares visible (fun name loc t => t.createProcedure name loc) rest rfl
    (fun _ _ _ => rfl) behind

end Routines

end Analysis

end Kpl
