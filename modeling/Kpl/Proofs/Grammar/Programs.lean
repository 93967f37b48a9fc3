import Kpl.Proofs.Contents.Program
import Kpl.Proofs.Grammar.Blocks

namespace Kpl

namespace Table

variable {t : Table}

structure Ready (t : Table) : Prop where
  valid : t.Valid
  builtins : List.Forall₂ t.Binds t.builtins Env.builtins

theorem keeps_withProgram (name : String) (loc : Loc) : t.Keeps (t.withProgram name loc) :=
  fun _ => object?_withProgram_of_lt name loc

theorem Ready.withProgram (ready : t.Ready) (name : String) (loc : Loc) :
    (t.withProgram name loc).Ready :=
  ⟨ready.valid.withProgram name loc,
    ready.builtins.imp fun _ _ => (keeps_withProgram name loc).binds ready.valid⟩

theorem Ready.moved (ready : t.Ready) (current : Option ScopeId) : (t.moved current).Ready :=
  ⟨ready.valid.moved current, ready.builtins⟩

theorem Ready.inside (ready : t.Ready) (name : String) (loc : Loc) :
    ((t.withProgram name loc).enter t.nextScope).Inside t.nextScope [⟨none, []⟩] where
  valid := (ready.withProgram name loc).valid.moved _
  current := rfl
  shows := by
    refine .cons (scope?_withProgram name loc) .nil List.nodup_nil
      ⟨t.nextObject, t.nextScope, rfl, ?_⟩ .nil
    rw [Table.meaning?]
    exact congrArg (Option.map Object.meaning) (object?_withProgram name loc)
  builtins := (ready.withProgram name loc).builtins

end Table

namespace Analysis

open Grammar

variable {n : Nat} {c : Setting} {name : String} {loc : Loc}

def Setting.root (c : Setting) (name : String) (loc : Loc) : Setting :=
  c.over ((c.table.withProgram name loc).enter c.table.nextScope)

/-- What a failed program leaves behind: nothing, or part of its tree, and any current scope. -/
def Unfinished (c : Setting) (e : CompileError) (d : Setting) : Prop :=
  (∀ m, e ≠ .internal m) ∧ (d = c ∨ ∃ (root : Root) (current : Option ScopeId),
    root.contents.Fresh [] ∧ d = c.over ((c.table.plant root).moved current))

theorem Unfinished.quiet {e : CompileError} (sort : ∀ m, e ≠ .internal m) : Unfinished c e c :=
  ⟨sort, .inl rfl⟩

theorem Unfinished.inside {e : CompileError} {d : Setting}
    (h : Abandoned (c.root name loc) c.table.nextScope [] e d) : Unfinished c e d := by
  obtain ⟨sort, contents, current, fresh, rfl⟩ := h
  exact ⟨sort, .inr ⟨⟨name, loc, contents⟩, current, fresh, rfl⟩⟩

theorem Unfinished.left {e : CompileError} {contents : Contents} (fresh : contents.Fresh [])
    (sort : ∀ m, e ≠ .internal m) :
    Unfinished c e (c.over ((c.table.plant ⟨name, loc, contents⟩).moved none)) :=
  ⟨sort, .inr ⟨⟨name, loc, contents⟩, none, fresh, rfl⟩⟩

theorem enterProgram_move {s : State}
    (setting : s.setting = c.over (c.table.withProgram name loc)) :
    ∃ t, enterOwned c.table.nextObject s = (.ok (), t) ∧ t.cursor = s.cursor ∧
      t.setting = c.root name loc := by
  refine enter_move ?_ setting
  rw [Table.meaning?, Table.object?_withProgram]
  rfl

theorem exitProgram_move (contents : Contents) {s : State}
    (setting : s.setting =
      (c.root name loc).over ((c.root name loc).table.extend c.table.nextScope contents)) :
    ∃ t, exitScope s = (.ok (), t) ∧ t.cursor = s.cursor ∧
      t.setting = c.over ((c.table.plant ⟨name, loc, contents⟩).moved none) := by
  have here : ((c.root name loc).table.extend c.table.nextScope contents).current =
      some c.table.nextScope := rfl
  have alone : ((c.root name loc).table.extend c.table.nextScope contents).outer?
      c.table.nextScope = none :=
    congrArg (fun x : Option Scope => x >>= (·.outer))
      (Table.scope?_extend_same contents (Table.scope?_withProgram (t := c.table) name loc))
  obtain ⟨t, run, cursor, left⟩ := leave_move (c := c) here setting
  rw [alone] at left
  exact ⟨t, run, cursor, left⟩

def Compiles (c : Setting) : Language ObjectId := fun ts id _ d =>
  ∃ us eof root, ts = us ++ [eof] ∧ eof.kind = .eof ∧ Program (c.maxDepth - c.depth) us root ∧
    id = c.table.nextObject ∧ d = c.over ((c.table.plant root).moved none)

theorem programEnd_compiles (ready : c.table.Ready) {contents : Contents}
    (fresh : contents.Fresh []) :
    Spec n ((c.root name loc).over ((c.root name loc).table.extend c.table.nextScope contents))
      (do
        let _ ← eat (.symbol .period)
        exitScope
        let _ ← eat .eof
        return c.table.nextObject)
      (fun ts id _ d => ∃ period eof, ts = [period, eof] ∧ period.kind = .symbol .period ∧
        eof.kind = .eof ∧ id = c.table.nextObject ∧
        d = c.over ((c.table.plant ⟨name, loc, contents⟩).moved none))
      (fun ts id _ d => ∃ period eof, ts = [period, eof] ∧ period.kind = .symbol .period ∧
        eof.kind = .eof ∧ id = c.table.nextObject ∧
        d = c.over ((c.table.plant ⟨name, loc, contents⟩).moved none))
      (Unfinished c) := by
  have inside := ready.inside name loc
  let End : Language ObjectId := fun ts id _ d => ∃ eof, ts = [eof] ∧ eof.kind = .eof ∧
    id = c.table.nextObject ∧ d = c.over ((c.table.plant ⟨name, loc, contents⟩).moved none)
  refine Spec.narrow (Spec.bind_eat (fun sort => Unfinished.inside
    (Abandoned.extended inside.known fresh sort)) (L := fun _ => End) (U := fun _ => End)
    fun _ _ => ?_) ?_ ?_
  · refine Spec.bind_move (exitProgram_move contents) ?_
    refine Spec.narrow (Spec.bind_eat (Unfinished.left fresh) fun _ _ =>
      Spec.pure c.table.nextObject) ?_ ?_
    · rintro _ id k _ ⟨eof, rfl, known, rfl, rfl⟩
      exact ⟨eof, [], rfl, known, rfl, rfl, rfl⟩
    · rintro _ id k _ ⟨eof, _, rfl, known, rfl, rfl, rfl⟩
      exact ⟨eof, rfl, known, rfl, rfl⟩
  · rintro _ id k _ ⟨period, eof, rfl, periodKind, known, rfl, rfl⟩
    exact ⟨period, [eof], rfl, periodKind, eof, rfl, known, rfl, rfl⟩
  · rintro _ id k _ ⟨period, _, rfl, periodKind, eof, rfl, known, rfl, rfl⟩
    exact ⟨period, eof, rfl, periodKind, known, rfl, rfl⟩

theorem programOver_compiles {block : Analysis Unit} (blocks : BlockDeclares n block)
    (ready : c.table.Ready) :
    Spec n c (programOver block) (Compiles c) (Compiles c) (Unfinished c) := by
  let Rest (name : Token) : Language ObjectId := fun ts id _ d =>
    ∃ semicolon us period eof contents, ts = semicolon :: (us ++ [period, eof]) ∧
      semicolon.kind = .symbol .semicolon ∧
      Block (c.maxDepth - c.depth) [⟨none, []⟩] us contents ∧ period.kind = .symbol .period ∧
      eof.kind = .eof ∧ id = c.table.nextObject ∧
      d = c.over ((c.table.plant ⟨name.lexeme, name.loc, contents⟩).moved none)
  refine Spec.narrow (Spec.bind_eat Unfinished.quiet fun _ _ => Spec.bind_eat Unfinished.quiet
    (L := Rest) (U := Rest) fun name _ => ?_) ?_ ?_
  · refine Spec.bind_table ?_
    rw [Table.createProgram_eq]
    refine Spec.bind_move (e := c.over (c.table.withProgram name.lexeme name.loc)) (fun setting =>
      ⟨_, modify_apply _ _, rfl, congrArg (fun d : Setting =>
        d.over (c.table.withProgram name.lexeme name.loc)) setting⟩) ?_
    refine Spec.bind_move enterProgram_move ?_
    have read : Spec n (c.root name.lexeme name.loc) block _ _ (Unfinished c) :=
      Spec.mono (blocks (ready.inside name.lexeme name.loc) (by simp [Env.Complete])) id id
        Unfinished.inside
    refine Spec.narrow (Spec.bind_eat (fun sort => Unfinished.inside (Abandoned.quiet sort))
      fun _ _ => Spec.bind_indexed (b := fun _ => ())
        (C := fun contents => (c.root name.lexeme name.loc).over
          ((c.root name.lexeme name.loc).table.extend c.table.nextScope contents))
        (L := fun us contents _ => Block (c.maxDepth - c.depth) [⟨none, []⟩] us contents)
        (U := fun us contents _ => Block (c.maxDepth - c.depth) [⟨none, []⟩] us contents)
        (Spec.narrow read ?_ ?_) id
        fun derived => programEnd_compiles ready (derived.fresh nofun)) ?_ ?_
    · rintro us ⟨⟩ k _ ⟨contents, _, rfl, derived⟩
      exact ⟨contents, derived, rfl⟩
    · rintro us ⟨⟩ k _ ⟨contents, derived, rfl⟩
      exact ⟨contents, rfl, rfl, derived⟩
    · rintro _ id k _ ⟨semicolon, us, period, eof, contents, rfl, divides, derived, rest⟩
      exact ⟨semicolon, _, rfl, divides, us, _, contents, rfl, derived, period, eof, rfl, rest⟩
    · rintro _ id k _ ⟨semicolon, _, rfl, divides, us, _, contents, rfl, derived, period, eof, rfl,
        rest⟩
      exact ⟨semicolon, us, period, eof, contents, rfl, divides, derived, rest⟩
  · rintro _ id k _ ⟨_, eof, _, rfl, known, derived, rfl, rfl⟩
    cases derived with
    | @mk program name semicolon period us contents opens named divides body closes =>
      exact ⟨program, _, rfl, opens, name, _, rfl, named, semicolon, us, period, eof, contents,
        by simp, divides, body, closes, known, rfl, rfl⟩
  · rintro _ id k _ ⟨program, _, rfl, opens, name, _, rfl, named, semicolon, us, period, eof,
      contents, rfl, divides, body, closes, known, rfl, rfl⟩
    exact ⟨_, eof, _, by simp, known, .mk opens named divides body closes, rfl, rfl⟩

end Analysis

end Kpl
