import Kpl.Compile
import Kpl.Proofs.Contents.Initial
import Kpl.Proofs.Grammar.Programs

namespace Kpl

namespace Table

theorem initial_ready : Table.initial.Ready where
  valid := initial_valid
  builtins := .cons ⟨rfl, rfl⟩ (.cons ⟨rfl, rfl⟩ (.cons ⟨rfl, rfl⟩ (.cons ⟨rfl, rfl⟩
    (.cons ⟨rfl, rfl⟩ .nil))))

end Table

namespace Analysis

open Grammar

def Cursor.ofTokens (stop : Loc) : List Token → Cursor
  | [] => ⟨.eof stop, ⟨[], stop⟩⟩
  | t :: ts => ⟨t, ⟨ts.map .ok, stop⟩⟩

namespace Cursor

variable {stop : Loc} {ts : List Token}

theorem ofTokens_next (t : Token) (ts : List Token) :
    (ofTokens stop (t :: ts)).input.next =
      (.ok (ofTokens stop ts).lookahead, (ofTokens stop ts).input) := by
  cases ts <;> rfl

theorem reads_ofTokens (ts : List Token) :
    (ofTokens stop ts).Reads (ts ++ [.eof stop]) (ofTokens stop []) := by
  induction ts with
  | nil => exact .token rfl (.done _)
  | cons t ts ih => exact .token (ofTokens_next t ts) ih

/-- An analysis that reads the end of the input right behind another token has read all. -/
theorem eq_of_reads {us : List Token} {last eof : Token} {d : Cursor}
    (real : ∀ t ∈ ts, t.kind ≠ .eof) (before : last.kind ≠ .eof) (done : eof.kind = .eof)
    (h : (ofTokens stop ts).Reads (us ++ [last, eof]) d) : ts = us ++ [last] := by
  induction us generalizing ts with
  | nil =>
    cases h with
    | @token _ _ v rest _ pulled behind =>
      cases ts with
      | nil => exact absurd rfl before
      | cons t ts =>
        rw [ofTokens_next] at pulled
        cases pulled
        cases behind
        cases ts with
        | nil => rfl
        | cons u ts => exact absurd done (real u (by simp))
  | cons u us ih =>
    cases h with
    | @token _ _ v rest _ pulled behind =>
      cases ts with
      | nil =>
        cases pulled
        have none := @ih [] nofun behind
        simp at none
      | cons t ts =>
        rw [ofTokens_next] at pulled
        cases pulled
        rw [ih (fun t member => real t (List.mem_cons_of_mem _ member)) behind]
        rfl

end Cursor

theorem start_tokens (ts : List Token) (stop : Loc) (table : Table) (maxDepth : Nat) :
    ∃ s, start ⟨ts.map .ok, stop⟩ table maxDepth = .ok s ∧ s.cursor = .ofTokens stop ts ∧
      s.setting = ⟨table, maxDepth, 0⟩ := by
  cases ts <;> exact ⟨_, rfl, rfl, rfl⟩

theorem program_compiles {n : Nat} {c : Setting} (ready : c.table.Ready) :
    Spec n c program (Compiles c) (Compiles c) (Unfinished c) :=
  programOver_compiles (blockOf_declares fun visible _ => statement_reads visible) ready

end Analysis

open Grammar

theorem Grammar.Program.ends {maxDepth : Nat} {ts : List Token} {root : Root}
    (h : Program maxDepth ts root) :
    ∃ us last, ts = us ++ [last] ∧ last.kind ≠ .eof := by
  cases h with
  | @mk program name semicolon period us ds _ _ _ _ closes =>
    exact ⟨program :: name :: semicolon :: us, period, rfl, by rw [closes]; nofun⟩

theorem Grammar.Program.fresh {maxDepth : Nat} {ts : List Token} {root : Root}
    (h : Program maxDepth ts root) : root.contents.Fresh [] := by
  cases h with
  | mk _ _ _ body => exact body.fresh nofun

namespace Grammar

def mark (kind : Kind) : Token := ⟨kind, kind.text, none, .start⟩

def ident (name : String) : Token := ⟨.ident, name, none, .start⟩

def programText (block : List Token) : List Token :=
  mark (.keyword .program) :: ident "P" :: mark (.symbol .semicolon) ::
    (block ++ [mark (.symbol .period)])

theorem programText_program {levels : Nat} {block : List Token} {contents : Contents}
    (derived : Block levels [⟨none, []⟩] block contents) :
    Program levels (programText block) ⟨"P", .start, contents⟩ :=
  .mk rfl rfl rfl derived rfl

end Grammar

open Analysis in
theorem program_of_compileTokens {ts : List Token} (real : ∀ t ∈ ts, t.kind ≠ .eof) {stop : Loc}
    {maxDepth : Nat} {compiled : Compiled}
    (accepted : compileTokens ⟨ts.map .ok, stop⟩ maxDepth = .ok compiled) :
    ∃ root, Program maxDepth ts root ∧
      compiled = ⟨(Table.initial.plant root).moved none, Table.initial.nextObject⟩ := by
  obtain ⟨s, started, cursor, setting⟩ := start_tokens ts stop .initial maxDepth
  have spec := program_compiles (n := s.remaining + 1) (c := ⟨.initial, maxDepth, 0⟩)
    Table.initial_ready
  rw [compileTokens, compileJournal, started] at accepted
  rcases run : program s with ⟨e | id, t⟩
  · simp only [run] at accepted
    cases accepted
  · simp only [run] at accepted
    cases accepted
    obtain ⟨_, reads, us, eof, root, rfl, done, derived, rfl, planted⟩ :=
      spec.sound (Nat.lt_succ_self _) setting run
    obtain ⟨vs, last, rfl, before⟩ := derived.ends
    rw [cursor, List.append_assoc] at reads
    obtain rfl := Cursor.eq_of_reads real before done reads
    exact ⟨root, derived,
      congrArg (fun table => Compiled.mk table _) (congrArg Setting.table planted)⟩

open Analysis in
theorem compileTokens_of_program {maxDepth : Nat} {ts : List Token} {root : Root}
    (derived : Program maxDepth ts root) (stop : Loc) :
    compileTokens ⟨ts.map .ok, stop⟩ maxDepth =
      .ok ⟨(Table.initial.plant root).moved none, Table.initial.nextObject⟩ := by
  obtain ⟨s, started, cursor, setting⟩ := start_tokens ts stop .initial maxDepth
  have spec := program_compiles (n := s.remaining + 1) (c := ⟨.initial, maxDepth, 0⟩)
    Table.initial_ready
  have reads : s.cursor.Reads (ts ++ [.eof stop]) (.ofTokens stop []) :=
    cursor ▸ Cursor.reads_ofTokens ts
  obtain ⟨t, run, _, planted⟩ := spec.complete (Nat.lt_succ_self _) setting reads
    ⟨ts, .eof stop, root, rfl, rfl, derived, rfl, rfl⟩
  have table : t.table = (Table.initial.plant root).moved none := congrArg Setting.table planted
  rw [compileTokens, compileJournal, started]
  simp only [run, Except.map, table]

/-- Compilation accepts the well-formed programs, and its table holds what they declare. -/
theorem compileTokens_eq_ok_iff {ts : List Token} (real : ∀ t ∈ ts, t.kind ≠ .eof) (stop : Loc)
    (maxDepth : Nat) (compiled : Compiled) :
    compileTokens ⟨ts.map .ok, stop⟩ maxDepth = .ok compiled ↔
      ∃ root, Program maxDepth ts root ∧
        compiled = ⟨(Table.initial.plant root).moved none, Table.initial.nextObject⟩ := by
  constructor
  · exact program_of_compileTokens real
  · rintro ⟨root, derived, rfl⟩
    exact compileTokens_of_program derived stop

/-- `program P; const n = 3; var x: integer; function f(var a: integer; c: char): integer; begin
    f := a + n end; begin x := f(x, 'k') end.` -/
theorem compileTokens_function_with_parameters :
    let constant : List Token :=
      [ident "n", mark (.symbol .eq), ⟨.number, "3", some 3, .start⟩, mark (.symbol .semicolon)]
    let var : List Token :=
      [ident "x", mark (.symbol .colon), mark (.keyword .integer), mark (.symbol .semicolon)]
    let params : List Token := [mark (.symbol .lParen), mark (.keyword .var), ident "a",
      mark (.symbol .colon), mark (.keyword .integer), mark (.symbol .semicolon), ident "c",
      mark (.symbol .colon), mark (.keyword .char), mark (.symbol .rParen)]
    let returns : List Token :=
      [mark (.symbol .colon), mark (.keyword .integer), mark (.symbol .semicolon)]
    let sum : List Token := [ident "a", mark (.symbol .plus), ident "n"]
    let call : List Token := [ident "f", mark (.symbol .lParen), ident "x", mark (.symbol .comma),
      ⟨.char, "k", none, .start⟩, mark (.symbol .rParen)]
    let body (target : String) (source : List Token) : List Token :=
      mark (.keyword .begin_) :: ident target :: mark (.symbol .assign) ::
        (source ++ [mark (.keyword .end_)])
    let function : List Token := mark (.keyword .function) :: ident "f" :: (params ++ returns ++
      (body "f" sum ++ mark (.symbol .semicolon) :: body "x" call))
    let ts := programText
      (mark (.keyword .const) :: (constant ++ mark (.keyword .var) :: (var ++ function)))
    let header : Header := .function
      [⟨"a", .start, .reference, .int⟩, ⟨"c", .start, .value, .char⟩] (some .int)
    let root : Root := ⟨"P", .start, .plain "n" .start (.const (.int 3))
      (.plain "x" .start (.var .int) (.routine "f" .start header .nil .nil))⟩
    (∀ t ∈ ts, t.kind ≠ .eof) ∧ compileTokens ⟨ts.map .ok, .start⟩ 3 =
      .ok ⟨(Table.initial.plant root).moved none, Table.initial.nextObject⟩ := by
  intro constant var params returns sum call body function ts header root
  let env : Env := [⟨none, [("n", .const (.int 3)), ("x", .var .int)]⟩]
  let inside : Env := env.enter "f" header
  let known : Env := env.declare [("f", header.entity)]
  have adds : Expression inside 2 sum .int := by
    have a : Factor inside (Expression inside 1) [ident "a"] .int :=
      .named rfl rfl (.storage rfl (.nil .int))
    have n : Factor inside (Expression inside 1) [ident "n"] .int := .named rfl rfl .const
    have first : Term inside (Expression inside 1) [ident "a"] .int := .mk a (.nil .int)
    have second : Term inside (Expression inside 1) [ident "n"] .int := .mk n (.nil .int)
    exact .plain first (.cons rfl second (.nil .int))
  have calls : Expression known 2 call .int := by
    have x : Argument known (Expression known 1) (.reference, .int) [ident "x"] :=
      .reference (.mk rfl rfl rfl (.nil .int))
    have k : Factor known (Expression known 0) [⟨.char, "k", none, .start⟩] .char := .char rfl
    have value : Argument known (Expression known 1) (.value, .char)
        [⟨.char, "k", none, .start⟩] := .value (.plain (.mk k (.nil .char)) (.nil .char))
    have arguments : Arguments known (Expression known 1) header.signature call.tail :=
      .list rfl (.mk x (.cons rfl value .nil)) rfl
    have f : Factor known (Expression known 1) call .int := .named rfl rfl (.call arguments)
    exact .plain (.mk f (.nil .int)) (.nil .int)
  have assigns {env : Env} {name : String} {source : List Token}
      (target : Target env (Expression env 2) .int [ident name])
      (value : Expression env 2 source .int) : Block 3 env (body name (source ++ [])) .nil := by
    have source : Source (Expression env 2) (.symbol .assign) .int source := .mk value (.inl rfl)
    have statement : StatementAt env 3 false (ident name :: mark (.symbol .assign) :: (_ ++ [])) :=
      .assignment (.mk (.mk target .nil) rfl (.mk source .nil))
    have block : Block 3 env (mark (.keyword .begin_) :: (_ ++ [mark (.keyword .end_)])) .nil :=
      .body rfl (.mk statement .nil) rfl
    simpa [body] using block
  have parameters : Parameters header.params params := by
    have a : Parameter ⟨(ident "a").lexeme, (ident "a").loc, .reference, .int⟩
        [mark (.keyword .var), ident "a", mark (.symbol .colon), mark (.keyword .integer)] :=
      .reference rfl rfl rfl (.integer rfl)
    have c : Parameter ⟨(ident "c").lexeme, (ident "c").loc, .value, .char⟩
        [ident "c", mark (.symbol .colon), mark (.keyword .char)] := .value rfl rfl (.char rfl)
    exact .list rfl (.mk a (.cons rfl c .nil)) (by decide) rfl
  have heading : Heading .function header (params ++ returns) :=
    .function parameters rfl (.integer rfl) rfl
  have main : Block 3 known (body "x" call) .nil :=
    assigns (.storage (.mk rfl rfl rfl (.nil .int))) calls
  have routine : Block 3 env function (.routine (ident "f").lexeme .start header .nil .nil) :=
    .routine rfl rfl (by decide) heading (assigns (.result rfl rfl) adds) rfl main
  have constants : Entries .const [⟨none, []⟩] constant
      (.plain "n" .start (.const (.int 3)) .nil) := by
    have entry : Entry [⟨none, []⟩] .const constant (ident "n").lexeme .start (.const (.int 3)) :=
      .mk rfl (by decide) rfl (.const (.plain (.number rfl rfl))) rfl
    exact .one entry
  have vars : Entries .var [⟨none, [("n", .const (.int 3))]⟩] var
      (.plain "x" .start (.var .int) .nil) := by
    have entry : Entry [⟨none, [("n", .const (.int 3))]⟩] .var var (ident "x").lexeme .start
        (.var .int) := .mk rfl (by decide) rfl (.var (.basic (.integer rfl))) rfl
    exact .one entry
  have rest : Block 3 [⟨none, [("n", .const (.int 3))]⟩] (mark (.keyword .var) :: (var ++ function))
      (.plain "x" .start (.var .int) .nil ++ _) := .section rfl vars routine
  have block : Block 3 [⟨none, []⟩] (mark (.keyword .const) :: (constant ++ _)) root.contents :=
    .section rfl constants rest
  have real : ∀ t ∈ ts, t.kind ≠ .eof := by decide
  exact ⟨real, (compileTokens_eq_ok_iff real _ _ _).mpr ⟨root, programText_program block, rfl⟩⟩

end Kpl
