import Kpl.Compile
import Kpl.Proofs.Arena.Scoping
import Kpl.Proofs.Checks.Clean
import Kpl.Proofs.Checks.Parts
import Kpl.Proofs.Frame.Additions
import Mathlib

namespace Kpl

def Table.Declares (t : Table) (name : String) : Prop :=
  ∃ scope, t.current = some scope ∧ name ∈ t.namesIn scope

theorem Table.requireFresh_eq_ok {t : Table} {name : String} {loc : Loc}
    (fresh : ¬ t.Declares name) : t.requireFresh name loc = .ok () := by
  have none : t.lookupInCurrent name = none := by
    cases here : t.current with
    | none => rw [Table.lookupInCurrent, here]; rfl
    | some scope =>
      have missing : ¬ (t.findIn scope name).isSome :=
        fun found => fresh ⟨scope, here, findIn_isSome.mp found⟩
      rw [Table.lookupInCurrent, here]
      exact Option.not_isSome_iff_eq_none.mp missing
  rw [Table.requireFresh, none]

theorem Table.requireFresh_eq_error {t : Table} {name : String} {loc : Loc}
    (declares : t.Declares name) :
    t.requireFresh name loc = .error ⟨.duplicateIdent, some name, loc⟩ := by
  obtain ⟨scope, here, listed⟩ := declares
  obtain ⟨id, found⟩ := Option.isSome_iff_exists.mp (findIn_isSome.mpr listed)
  have found' : t.lookupInCurrent name = some id := by
    rw [Table.lookupInCurrent, here]
    exact found
  rw [Table.requireFresh, found']

namespace Analysis

variable {α β : Type}

inductive DeclarationForm where
  | const
  | type
  | var
  | param
  | function (block : Analysis Unit)
  | procedure (block : Analysis Unit)

namespace DeclarationForm

def reader : DeclarationForm → Analysis Unit
  | const => sectionEntry .eq (.const <$> constant)
  | type => sectionEntry .eq (.type <$> Analysis.type)
  | var => sectionEntry .colon (.var <$> Analysis.type)
  | param => Analysis.param
  | function block => functionOver block
  | procedure block => procedureOver block

/-- What a declaration that starts at `t` has in front of its name, which is expected at `u`. -/
def Opens : DeclarationForm → State → State → Prop
  | const, t, u | type, t, u | var, t, u => u = t
  | param, t, u => ∃ mode, paramMode t = (.ok mode, u)
  | function _, t, u => ∃ token, eat (.keyword .function) t = (.ok token, u)
  | procedure _, t, u => ∃ token, eat (.keyword .procedure) t = (.ok token, u)

/-- A declaration starts at `t`, and its name stands at `u`, in front of the token `next`. -/
structure Names (form : DeclarationForm) (t u : State) (next : Token) : Prop where
  opens : form.Opens t u
  ident : u.lookahead.kind = .ident
  behind : u.input.next.1 = .ok next

variable {form : DeclarationForm} {t u : State}

theorem Opens.table_eq (opens : form.Opens t u) : u.table = t.table := by
  cases form with
  | const | type | var => rw [opens]
  | param =>
    obtain ⟨mode, run⟩ := opens
    exact Leads.paramMode rfl run
  | function block | procedure block =>
    obtain ⟨token, run⟩ := opens
    exact Leads.of_still (eat_still _) rfl run

theorem Opens.part (opens : form.Opens t u) : Part freshName u form.reader t := by
  cases form with
  | const | type | var =>
    obtain rfl := opens
    exact .first _ .here
  | param =>
    obtain ⟨mode, run⟩ := opens
    exact .later run (.first _ .here)
  | function block | procedure block =>
    obtain ⟨token, run⟩ := opens
    exact .later run (.first _ .here)

end DeclarationForm

section Names

variable {s : State} {next : Token}

def State.behind (s : State) (next : Token) : State := { s.pulled with lookahead := next }

theorem freshName_apply (ident : s.lookahead.kind = .ident) (behind : s.input.next.1 = .ok next) :
    freshName s =
      (check (s.table.requireFresh s.lookahead.lexeme s.lookahead.loc) >>= fun _ =>
        pure s.lookahead) (s.behind next) := by
  have eaten : eat .ident s = (.ok s.lookahead, s.behind next) := by
    rw [eat_of_kind ident, scan_of_token behind, State.behind]
  rw [freshName, bind_of_ok eaten, bind_of_ok (table_apply _)]
  rfl

theorem freshName_of_declares (ident : s.lookahead.kind = .ident)
    (behind : s.input.next.1 = .ok next) (declares : s.table.Declares s.lookahead.lexeme) :
    freshName s = (.error (namedError .duplicateIdent s.lookahead), s.behind next) := by
  rw [freshName_apply ident behind, Table.requireFresh_eq_error declares]
  rfl

theorem freshName_of_fresh (ident : s.lookahead.kind = .ident)
    (behind : s.input.next.1 = .ok next) (fresh : ¬ s.table.Declares s.lookahead.lexeme) :
    freshName s = (.ok s.lookahead, s.behind next) := by
  rw [freshName_apply ident behind, Table.requireFresh_eq_ok fresh]
  rfl

theorem freshName_duplicate {e : CompileError} {v : State} (run : freshName s = (.error e, v))
    (duplicate : e.IsSuspect) :
    s.lookahead.kind = .ident ∧ (∃ next, s.input.next.1 = .ok next) ∧
      s.table.Declares s.lookahead.lexeme ∧ e = namedError .duplicateIdent s.lookahead := by
  have eaten : ∃ name u, eat .ident s = (.ok name, u) := by
    rw [freshName, bind_apply] at run
    cases first : eat .ident s with | mk r u =>
    cases r with
    | ok name => exact ⟨name, u, rfl⟩
    | error e' =>
      rw [first] at run
      cases run
      exact absurd duplicate (Clean.eat .ident first)
  obtain ⟨name, u, eaten⟩ := eaten
  obtain ⟨rfl, ident, behind⟩ := eat_ok eaten
  refine ⟨ident, ⟨_, behind⟩, ?_⟩
  by_cases declares : s.table.Declares s.lookahead.lexeme
  · rw [freshName_of_declares ident behind declares] at run
    cases run
    exact ⟨declares, rfl⟩
  · rw [freshName_of_fresh ident behind declares] at run
    cases run

end Names

/-- In the run of `p` from `s` a declaration is refused, because the current scope has its name. -/
def Refused (p : Analysis α) (s : State) (e : CompileError) : Prop :=
  ∃ form t u next, Part (DeclarationForm.reader form) t p s ∧ form.Names t u next ∧
    t.table.Declares u.lookahead.lexeme ∧ e = namedError .duplicateIdent u.lookahead

/-- Every suspect error is the refusal of a declaration. -/
def Traced (p : Analysis α) : Prop := Fails (fun p s e => e.IsSuspect → Refused p s e) p

theorem traced_inherited : Inherited fun p s e => e.IsSuspect → Refused p s e := by
  intro α β q p s t e part refused duplicate
  obtain ⟨form, a, b, next, inside, rest⟩ := refused duplicate
  exact ⟨form, a, b, next, inside.trans part, rest⟩

theorem Clean.traced {p : Analysis α} (clean : Clean p) : Traced p :=
  fun _ _ _ run duplicate => absurd duplicate (clean run)

namespace Traced

variable {p : Analysis α} {f : α → Analysis β}

theorem bind (first : Traced p) (rest : ∀ a, Traced (f a)) : Traced (p >>= f) :=
  Fails.bind traced_inherited first rest

theorem ite {c : Prop} [Decidable c] {q : Analysis α} (yes : Traced p) (no : Traced q) :
    Traced (if c then p else q) := by
  split
  · exact yes
  · exact no

theorem repeatWhile {more : Kind → Bool} {step : α → Analysis α} (steps : ∀ a, Traced (step a))
    (a : α) : Traced (repeatWhile more a step) :=
  Fails.repeatWhile traced_inherited steps a

theorem named {form : DeclarationForm} {rest : Token → Analysis Unit} {t u v : State}
    {e : CompileError} (opens : form.Opens t u) (part : Part (freshName >>= rest) u form.reader t)
    (rests : ∀ name, Traced (rest name)) (run : (freshName >>= rest) u = (.error e, v))
    (duplicate : e.IsSuspect) : Refused form.reader t e := by
  rw [bind_apply] at run
  cases first : freshName u with | mk r w =>
  rw [first] at run
  cases r with
  | ok name => exact traced_inherited (.trans (.later first .here) part) (rests name run) duplicate
  | error e' =>
    cases run
    obtain ⟨ident, ⟨next, behind⟩, declares, rfl⟩ := freshName_duplicate first duplicate
    exact ⟨form, t, u, next, .here, ⟨opens, ident, behind⟩, opens.table_eq ▸ declares, rfl⟩

theorem entry (form : DeclarationForm) {rest : Token → Analysis Unit}
    (shape : form.reader = freshName >>= rest) (opens : ∀ t, form.Opens t t)
    (rests : ∀ name, Traced (rest name)) : Traced form.reader := by
  intro t e v run duplicate
  have part : Part (freshName >>= rest) t form.reader t := shape ▸ .here
  rw [shape] at run
  exact named (opens t) part rests run duplicate

theorem opened (form : DeclarationForm) {opening : Analysis α}
    {rest : α → Token → Analysis Unit}
    (shape : form.reader = opening >>= fun a => freshName >>= rest a) (clean : Clean opening)
    (opens : ∀ t a u, opening t = (.ok a, u) → form.Opens t u)
    (rests : ∀ a name, Traced (rest a name)) : Traced form.reader := by
  intro t e v run duplicate
  rw [shape, bind_apply] at run
  cases first : opening t with | mk r u =>
  rw [first] at run
  cases r with
  | error e' =>
    cases run
    exact absurd duplicate (clean first)
  | ok a =>
    have part : Part (freshName >>= rest a) u form.reader t := shape ▸ .later first .here
    exact named (opens t a u first) part (rests a) run duplicate

theorem sectionEntry (form : DeclarationForm) {separator : Symbol} {meaning : Analysis Meaning}
    (shape : form.reader = Analysis.sectionEntry separator meaning)
    (opens : ∀ t, form.Opens t t) (meanings : Clean meaning) :
    Traced (Analysis.sectionEntry separator meaning) := by
  refine shape ▸ entry form shape opens fun name => Clean.traced ?_
  refine (Clean.eat _).bind fun _ => meanings.bind fun meaning => ?_
  exact (Clean.declare _).bind fun _ => (Clean.eat _).bind fun _ => .pure ()

theorem declarationSection {separator : Symbol} {meaning : Analysis Meaning}
    (entries : Traced (Analysis.sectionEntry separator meaning)) (keyword : Keyword) :
    Traced (declarationSection keyword separator meaning) :=
  (Clean.eat _).traced.bind fun _ => entries.bind fun _ => repeatWhile (fun _ => entries) ()

theorem param : Traced param := by
  have modes : Clean paramMode := by
    refine Clean.peek.bind fun kind => ?_
    split
    · exact .pure _
    · exact Clean.scan.bind fun _ => .pure _
    · exact .failGrammar _
  refine opened .param rfl modes (fun _ mode _ run => ⟨mode, run⟩) fun mode name => ?_
  refine Clean.traced ((Clean.eat _).bind fun _ => Clean.basicType.bind fun ty => ?_)
  refine Clean.table.bind fun t => (Clean.onTable _).bind fun object => ?_
  exact (Clean.declare object).bind fun _ => .pure ()

theorem params : Traced params := by
  have scans : Traced scan := Clean.scan.traced
  refine Clean.peek.traced.bind fun _ => ite ?_ (Clean.pure ()).traced
  refine scans.bind fun _ => Clean.peek.traced.bind fun _ => ite ?_ ?_
  · exact scans.bind fun _ => (Clean.pure ()).traced
  · refine param.bind fun _ => (repeatWhile (fun _ => ?_) ()).bind fun _ => ?_
    · exact scans.bind fun _ => param
    · exact ((Clean.eat _).bind fun _ => .pure ()).traced

section Blocks

variable {block : Analysis Unit} (blocks : Traced block)

include blocks

theorem routineTail : Traced (do
    block
    let _ ← eat (.symbol .semicolon)
    exitScope) :=
  blocks.bind fun _ => ((Clean.eat _).bind fun _ => Clean.exitScope).traced

theorem functionOver : Traced (functionOver block) := by
  refine opened (.function block) rfl (Clean.eat _) (fun _ token _ run => ⟨token, run⟩) ?_
  intro _ name
  refine (Clean.declareRoutine _).traced.bind fun id => ?_
  refine (Clean.enterOwned id).traced.bind fun _ => ?_
  refine params.bind fun _ => (Clean.eat _).traced.bind fun _ => ?_
  refine Clean.basicType.traced.bind fun returns => (Clean.modify _).traced.bind fun _ => ?_
  exact (Clean.eat _).traced.bind fun _ => routineTail blocks

theorem procedureOver : Traced (procedureOver block) := by
  refine opened (.procedure block) rfl (Clean.eat _) (fun _ token _ run => ⟨token, run⟩) ?_
  intro _ name
  refine (Clean.declareRoutine _).traced.bind fun id => ?_
  refine (Clean.enterOwned id).traced.bind fun _ => ?_
  exact params.bind fun _ => (Clean.eat _).traced.bind fun _ => routineTail blocks

theorem declarationOver : Traced (declarationOver block) := by
  refine Clean.peek.traced.bind fun kind => ?_
  split
  · exact declarationSection (sectionEntry .const rfl (fun _ => rfl) Clean.constant.map) _
  · exact declarationSection (sectionEntry .type rfl (fun _ => rfl) Clean.type.map) _
  · exact declarationSection (sectionEntry .var rfl (fun _ => rfl) Clean.type.map) _
  · exact functionOver blocks
  · exact procedureOver blocks
  · exact (Clean.pure ()).traced

theorem blockOver : Traced (blockOver statement block) :=
  (repeatWhile (fun _ => declarationOver blocks) ()).bind fun _ =>
    (Clean.groupOver Clean.statement).traced

end Blocks

theorem block : Traced block :=
  Fails.recursively traced_inherited (Clean.failMissing _).traced fun _ => blockOver

theorem program : Traced program := by
  refine (Clean.eat _).traced.bind fun _ => (Clean.eat _).traced.bind fun name => ?_
  refine Clean.table.traced.bind fun t => (Clean.modify _).traced.bind fun _ => ?_
  refine (Clean.enterOwned _).traced.bind fun _ => (Clean.eat _).traced.bind fun _ => ?_
  refine block.bind fun _ => Clean.traced ?_
  refine (Clean.eat _).bind fun _ => Clean.exitScope.bind fun _ => ?_
  exact (Clean.eat _).bind fun _ => .pure _

end Traced

/-- A declaration whose name the current scope has fails as a duplicate, with the table as it was,
    and with it fails the whole run. A name that the scope has not is accepted, whatever it means
    further out, and no other error is about a duplicate. -/
theorem program_duplicates (s : State) :
    (∀ form t u next, Part (DeclarationForm.reader form) t program s → form.Names t u next →
      (t.table.Declares u.lookahead.lexeme →
        let e := .semantic ⟨.duplicateIdent, some u.lookahead.lexeme, u.lookahead.loc⟩
        form.reader t = (.error e, u.behind next) ∧ (u.behind next).table = t.table ∧
          program s = (.error e, u.behind next) ∧
          ∀ input maxDepth, start input .initial maxDepth = .ok s →
            compileTokens input maxDepth = .error e) ∧
      (¬ t.table.Declares u.lookahead.lexeme →
        Part freshName u program s ∧ freshName u = (.ok u.lookahead, u.behind next))) ∧
    ∀ name loc v, program s = (.error (.semantic ⟨.duplicateIdent, name, loc⟩), v) →
      ∃ form t u next, Part (DeclarationForm.reader form) t program s ∧ form.Names t u next ∧
        t.table.Declares u.lookahead.lexeme ∧ name = some u.lookahead.lexeme ∧
        loc = u.lookahead.loc := by
  constructor
  · intro form t u next part names
    have same : u.table = t.table := names.opens.table_eq
    have checked : Part freshName u form.reader t := names.opens.part
    rw [← same]
    constructor
    · intro declares e
      have failed : freshName u = (.error e, u.behind next) :=
        freshName_of_declares names.ident names.behind declares
      have stopped : program s = (.error e, u.behind next) := (checked.trans part).fails failed
      refine ⟨checked.fails failed, rfl, stopped, ?_⟩
      intro input maxDepth started
      rw [compileTokens, compileJournal, started]
      dsimp only
      rw [stopped]
      rfl
    · intro fresh
      exact ⟨checked.trans part, freshName_of_fresh names.ident names.behind fresh⟩
  · intro name loc v failed
    obtain ⟨form, t, u, next, part, names, declares, same⟩ := Traced.program failed rfl
    cases same
    exact ⟨form, t, u, next, part, names, declares, rfl, rfl⟩

/-- `program P; const WRITELN = 'a'; WRITELN =`: a builtin may be hidden, but only once. -/
theorem program_duplicates_of_builtin :
    let place (column : Nat) : Loc := ⟨⟨column, 1⟩, 1, column⟩
    let tokens : List Token := [⟨.keyword .program, "program", none, place 0⟩,
      ⟨.ident, "P", none, place 8⟩, ⟨.symbol .semicolon, ";", none, place 9⟩,
      ⟨.keyword .const, "const", none, place 11⟩, ⟨.ident, "WRITELN", none, place 17⟩,
      ⟨.symbol .eq, "=", none, place 25⟩, ⟨.char, "a", none, place 27⟩,
      ⟨.symbol .semicolon, ";", none, place 30⟩, ⟨.ident, "WRITELN", none, place 32⟩,
      ⟨.symbol .eq, "=", none, place 40⟩]
    let input : TokenStream := .ofItems (tokens.map .ok)
    let stage (n : Nat) (table : Table) (journal : List Event) : State :=
      ⟨(tokens.drop n).headD (.eof .start), .ofItems ((tokens.drop (n + 1)).map .ok), table, 1, 0,
        journal⟩
    let outside := (Table.initial.withProgram "P" (place 8)).enter ⟨5⟩
    let inside := (outside.declareIn ⟨5⟩ ⟨"WRITELN", some (place 17), .const (.char 'a')⟩).2
    let e := .semantic ⟨.duplicateIdent, some "WRITELN", place 32⟩
    ∃ s before after, start input .initial 1 = .ok s ∧
      Part (DeclarationForm.reader .const) (stage 4 outside before) program s ∧
      ¬ outside.Declares "WRITELN" ∧
      (freshName (stage 4 outside before)).1 = .ok ⟨.ident, "WRITELN", none, place 17⟩ ∧
      Part (DeclarationForm.reader .const) (stage 8 inside after) program s ∧
      inside.Declares "WRITELN" ∧
      (program s).1 = .error e ∧ (program s).2.table = inside ∧
      compileTokens input 1 = .error e := by
  intro place tokens input stage outside inside e
  let pulled (n : Nat) : Event := .pulled (.ok ((tokens.drop n).headD (.eof .start)))
  let s := stage 0 .initial [pulled 0]
  let body := stage 3 outside [pulled 3, .entered ⟨5⟩ (some "P"), pulled 2, pulled 1, pulled 0]
  let first := stage 4 outside (pulled 4 :: body.journal)
  let second := stage 8 inside (pulled 8 :: .declared "WRITELN" "Const" ⟨5⟩ :: pulled 7 ::
    pulled 6 :: pulled 5 :: first.journal)
  have opened {γ : Type} {q : Analysis γ} {t : State} (part : Part q t constSection body) :
      Part q t program s := by
    refine .later rfl (.later rfl (.later rfl (.later rfl (.later rfl ?_))))
    refine .later (a := ⟨.symbol .semicolon, ";", none, place 9⟩) (u := body) (by cbv) ?_
    exact .first _ (.knot (.first _ (.turn rfl (.later (peek_apply body) part))))
  have eaten : eat (.keyword .const) body =
      (.ok ⟨.keyword .const, "const", none, place 11⟩, first) := by cbv
  have entered : sectionEntry .eq (.const <$> constant) first = (.ok (), second) := by cbv
  have inFirst : Part (DeclarationForm.reader .const) first program s := by
    refine opened (.later eaten ?_)
    exact .first _ .here
  have inSecond : Part (DeclarationForm.reader .const) second program s := by
    refine opened (.later eaten (.later entered ?_))
    exact .turn rfl .here
  have fresh : ¬ outside.Declares "WRITELN" := by
    rintro ⟨scope, here, listed⟩
    have none : outside.namesIn ⟨5⟩ = [] := by cbv
    obtain rfl : ⟨5⟩ = scope := Option.some.inj here
    rw [none] at listed
    cases listed
  have known : inside.Declares "WRITELN" := by
    have listed : inside.namesIn ⟨5⟩ = ["WRITELN"] := by cbv
    exact ⟨⟨5⟩, by cbv, listed ▸ List.mem_singleton.mpr rfl⟩
  have accepts := (program_duplicates s).1 .const first first
    ⟨.symbol .eq, "=", none, place 25⟩ inFirst ⟨rfl, rfl, rfl⟩
  have refuses := (program_duplicates s).1 .const second second
    ⟨.symbol .eq, "=", none, place 40⟩ inSecond ⟨rfl, rfl, rfl⟩
  obtain ⟨-, accepted⟩ := accepts.2 fresh
  obtain ⟨-, same, refused, compiled⟩ := refuses.1 known
  exact ⟨s, _, _, rfl, inFirst, fresh, congrArg Prod.fst accepted, inSecond, known,
    congrArg Prod.fst refused, (congrArg (·.2.table) refused).trans same, compiled input 1 rfl⟩

end Analysis

end Kpl
