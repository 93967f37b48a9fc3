import Kpl.Proofs.Mirror.Same
import Kpl.Proofs.Session.Tables

/-!
Branches that no run of a session takes. A strict analysis raises an alarm of its own in their
place, and also wherever a statement or an expression begins while some name means what no statement
can use. No run of a session misuses the table, and none tells the strict analysis from the plain
one, whatever the alarm is.
-/

namespace Kpl

/-- Statements can use what a function with a return type stands for, but no program. -/
def Meaning.Settled : Meaning → Prop
  | .program _ => False
  | .function _ returns _ => returns.isSome
  | _ => True

def Meaning.Assignable : Meaning → Prop
  | .var _ | .param .. | .function _ (some _) _ => True
  | _ => False

namespace Table

variable {t : Table} {name : String} {loc : Loc} {id : ObjectId}

def Settled (t : Table) : Prop :=
  ∀ name id, t.lookup name = some id → ∃ meaning, t.meaning? id = some meaning ∧ meaning.Settled

theorem Settled.resolve (settled : t.Settled) (found : t.resolve name loc = .ok id) :
    ∃ meaning, t.meaning? id = some meaning ∧ meaning.Settled :=
  settled name id (resolve_ok.mp found)

theorem Settled.resolveTarget (settled : t.Settled) (found : t.resolveTarget name loc = .ok id) :
    ∃ meaning, t.meaning? id = some meaning ∧ meaning.Assignable := by
  obtain ⟨looked, sort⟩ := resolveTarget_ok.mp found
  obtain ⟨meaning, meant, usable⟩ := settled name id looked
  refine ⟨meaning, meant, ?_⟩
  rw [meant] at sort
  cases meaning
  case var => exact True.intro
  case param => exact True.intro
  case function params returns scope =>
    cases returns with
    | none => cases usable
    | some ty => exact True.intro
  all_goals
    obtain ⟨ty, stores⟩ | ⟨⟨_, _, _, function⟩, _⟩ := sort
    · cases stores
    · cases function

theorem Inside.settled {scope : ScopeId} {env : Env} (inside : t.Inside scope env)
    (complete : env.Complete) : t.Settled := by
  intro name id found
  obtain ⟨entity, resolved, _, same⟩ := inside.lookup_some found
  have usable := complete.resolve resolved
  unfold entity? at same
  cases meant : t.meaning? id with
  | none =>
    rw [meant] at same
    cases same
  | some meaning =>
    refine ⟨meaning, rfl, ?_⟩
    rw [meant] at same
    cases meaning
    case program => cases same
    case function =>
      cases same
      exact usable
    all_goals exact True.intro

end Table

namespace Analysis

section Strict

variable {α : Type} (alarm : CompileError)

open Classical in
/-- Raises the alarm in front of an analysis on a table that is not settled. -/
noncomputable def guarded (p : Analysis α) : Analysis α := fun s =>
  if s.table.Settled then p s else (.error alarm, s)

/-- As `namedValueOver`; the alarm stands for a function without a return type, a program, and an
    object that the table does not have. -/
def strictNamedValueOver (inner : Analysis Ty) : Analysis Ty := do
  let name ← eat .ident
  let id ← check ((← table).resolve name.lexeme name.loc)
  match (← table).meaning? id with
  | some (.const value) => return value.ty
  | some (.var ty) | some (.param _ ty _) => selectorsOver inner ty
  | some (.function _ returns _) =>
    argumentsOver inner id name.loc
    match returns with
    | some ty => return ty
    | none => throw alarm
  | some (.type _) | some (.procedure ..) => throw (namedError .invalidFactor name)
  | some (.program _) | none => throw alarm

/-- As `targetOver`; the alarm stands for whatever is no storage and no function result. -/
def strictTargetOver (value : Analysis Ty) : Analysis Ty := do
  let name ← eat .ident
  let id ← check ((← table).resolveTarget name.lexeme name.loc)
  match (← table).meaning? id with
  | some (.var ty) | some (.param _ ty _) => selectorsOver value ty
  | some (.function _ (some ty) _) => return ty
  | _ => throw alarm

/-- As `forOver`; the alarm stands for a loop variable that is none. -/
def strictForOver (value : Analysis Ty) (inner : Analysis Unit) : Analysis Unit := do
  let _ ← eat (.keyword .for_)
  let name ← eat .ident
  let id ← check ((← table).resolveVariable name.lexeme name.loc)
  match (← table).meaning? id with
  | some (.var ty) =>
    check (ty.requireInt name.loc)
    let _ ← eat (.symbol .assign)
    expecting ty value
    let _ ← eat (.keyword .to_)
    expecting ty value
    let _ ← eat (.keyword .do_)
    inner
  | _ => throw alarm

/-- As `typeOver`; the alarm stands for the name of something else than a type. -/
def strictTypeOver (inner : Analysis Ty) : Analysis Ty := do
  match ← peek with
  | .keyword .integer =>
    let _ ← scan
    return .int
  | .keyword .char =>
    let _ ← scan
    return .char
  | .keyword .array =>
    let _ ← scan
    let _ ← eat (.symbol .lSelector)
    let number ← eat .number
    let _ ← eat (.symbol .rSelector)
    let _ ← eat (.keyword .of)
    let element ← inner
    match arraySize? number with
    | some size => return .array size element
    | none => throw (namedError .invalidArraySize number)
  | .ident =>
    let name ← scan
    let id ← check ((← table).resolveType name.lexeme name.loc)
    match (← table).meaning? id with
    | some (.type actual) => return actual
    | _ => throw alarm
  | _ => failGrammar .invalidType

noncomputable def strictExpression : Analysis Ty := nesting fun inner =>
  guarded alarm (sumOver (termOver (factorOver (strictNamedValueOver alarm inner) inner)))

noncomputable def strictStatement : Analysis Unit := nesting fun inner =>
  guarded alarm (statementOver
    (assignmentOver (strictTargetOver alarm (strictExpression alarm)) (strictExpression alarm))
    (strictExpression alarm) inner)

def strictType : Analysis Ty := recursively (failGrammar .invalidType) (strictTypeOver alarm)

noncomputable def strictProgram : Analysis ObjectId := programOver (blockOf (strictStatement alarm))

end Strict

open Mirror

section Settled

variable {α : Type} (alarm : CompileError)

abbrev settled : Mirror := same Table.Settled fun _ => False

theorem bind_settled {resolve : Table → Except SemanticError ObjectId} {P : Meaning → Prop}
    {f g : ObjectId → Table → Analysis α}
    (known : ∀ t id, t.Settled → resolve t = .ok id → ∃ meaning, t.meaning? id = some meaning ∧
      P meaning)
    (rest : ∀ id t meaning, t.meaning? id = some meaning → P meaning →
      settled.Mirrors Eq (f id t) (g id t)) :
    settled.Mirrors Eq (table >>= fun t => check (resolve t) >>= fun id => table >>= f id)
      (table >>= fun t => check (resolve t) >>= fun id => table >>= g id) := by
  intro s t state
  obtain ⟨rfl, holds⟩ := state
  simp only [bind_of_ok (table_apply s)]
  cases found : resolve s.table with
  | error e => exact .error rfl rfl
  | ok id =>
    obtain ⟨meaning, meant, usable⟩ := known s.table id holds found
    simp only [bind_of_ok (check_ok s id), bind_of_ok (table_apply s)]
    exact rest id s.table meaning meant usable ⟨rfl, holds⟩

theorem guarded_mirrors {A : α → α → Prop} {p q : Analysis α} (both : settled.Mirrors A p q) :
    settled.Mirrors A p (guarded alarm q) := by
  intro s t state
  have holds : t.table.Settled := state.1 ▸ state.2
  rw [guarded, if_pos holds]
  exact both state

variable {inner inner' : Analysis Ty} (below : settled.Mirrors Eq inner inner')

include below

theorem strictNamedValueOver_mirrors :
    settled.Mirrors Eq (namedValueOver inner) (strictNamedValueOver alarm inner') := by
  refine same_reading.bind_eat (by nofun) ?_
  intro name _ both _
  cases both
  apply bind_settled fun t id holds => holds.resolve
  intro id t meaning meant usable
  rw [meant]
  cases meaning
  case const => exact Mirrors.pure rfl
  case var => exact same_reading.selectorsOver below _
  case param => exact same_reading.selectorsOver below _
  case function params returns scope =>
    apply (same_reading.argumentsOver below rfl rfl).bind
    intro _ _ _
    cases returns with
    | none => cases usable
    | some ty => exact Mirrors.pure rfl
  case program => exact usable.elim
  all_goals exact Mirrors.throw rfl

theorem strictTargetOver_mirrors :
    settled.Mirrors Eq (targetOver inner) (strictTargetOver alarm inner') := by
  refine same_reading.bind_eat (by nofun) ?_
  intro name _ both _
  cases both
  apply bind_settled fun t id holds => holds.resolveTarget
  intro id t meaning meant usable
  rw [meant]
  cases meaning
  case var => exact same_reading.selectorsOver below _
  case param => exact same_reading.selectorsOver below _
  case function params returns scope =>
    cases returns with
    | none => exact usable.elim
    | some ty => exact Mirrors.pure rfl
  all_goals exact usable.elim

omit below

theorem strictExpression_mirrors : settled.Mirrors Eq expression (strictExpression alarm) := by
  apply same_reading.nesting
  intro p q below
  apply guarded_mirrors
  exact same_reading.sumOver (same_reading.termOver (same_reading.factorOver below
    (strictNamedValueOver_mirrors alarm below)))

theorem strictStatement_mirrors :
    settled.Mirrors (fun _ _ => True) statement (strictStatement alarm) := by
  have values := strictExpression_mirrors alarm
  apply same_reading.nesting
  intro p q below
  apply guarded_mirrors
  exact same_reading.statementOver values below
    (same_reading.assignmentOver values (strictTargetOver_mirrors alarm values))

theorem strictStatement_eq {s : State} (holds : s.table.Settled) :
    strictStatement alarm s = statement s :=
  (Agree.eq (fun _ _ _ => rfl) (strictStatement_mirrors alarm ⟨rfl, holds⟩) fun _ _ => id).symm

end Settled

/-- A statement on a settled table, and a misuse of the table on any other. -/
noncomputable def settledStatement : Analysis Unit := guarded (.internal .noCurrentScope) statement

theorem settledStatement_eq {s : State} (holds : s.table.Settled) :
    settledStatement s = statement s := by
  rw [settledStatement, guarded, if_pos holds]

theorem settledStatement_reads : StatementReads settledStatement := by
  intro n c scope env inside complete
  apply Spec.congr _ (statement_reads inside)
  intro s _ setting
  apply settledStatement_eq
  have table : s.table = c.table := congrArg Setting.table setting
  rw [table]
  exact inside.settled complete

/-- A program begins its statements on settled tables only, so that it matters nowhere else what
    they do. -/
theorem programOver_congr {p : Analysis Unit}
    (same : ∀ s : State, s.table.Settled → p s = statement s) {s : State} (ready : s.table.Ready) :
    programOver (blockOf p) s = programOver (blockOf settledStatement) s := by
  have agree : (Mirror.same (fun _ => True) (· = .internal .noCurrentScope)).Mirrors
      (fun _ _ => True) p settledStatement := by
    intro s t state
    obtain ⟨rfl, _⟩ := state
    by_cases holds : s.table.Settled
    · rw [same s holds, settledStatement_eq holds]
      exact same_refl (fun _ => trivial) (fun _ _ => trivial) ⟨rfl, trivial⟩
    · rw [settledStatement, guarded, if_neg holds]
      exact .excused rfl
  have spec := programOver_compiles (n := s.remaining + 1) (c := s.setting)
    (blockOf_declares settledStatement_reads) ready
  apply Agree.eq (fun _ _ => id) (same_program (same_declaring.blockOf agree) s)
  rintro e failed rfl
  obtain ⟨sort, _⟩ := spec.fails (Nat.lt_succ_self _) rfl (Prod.ext failed rfl)
  exact sort _ rfl

theorem strictProgram_eq (alarm : CompileError) {s : State} (ready : s.table.Ready) :
    strictProgram alarm s = program s := by
  have strict := programOver_congr (fun _ => strictStatement_eq alarm) ready
  have plain := programOver_congr (fun _ _ => rfl) ready
  exact strict.trans plain.symm

theorem bind_resolvedAs {undeclared wrongClass : SemanticError.Cause} {accepts : Meaning → Bool}
    {name : Token} {α : Type} {f g : ObjectId → Table → Analysis α}
    (same : ∀ id t meaning, t.meaning? id = some meaning → accepts meaning = true →
      f id t = g id t) :
    (table >>= fun t => check (t.resolveAs undeclared wrongClass accepts name.lexeme name.loc) >>=
        fun id => table >>= f id) =
      (table >>= fun t => check (t.resolveAs undeclared wrongClass accepts name.lexeme name.loc) >>=
        fun id => table >>= g id) := by
  funext s
  simp only [bind_of_ok (table_apply s)]
  cases found : s.table.resolveAs undeclared wrongClass accepts name.lexeme name.loc with
  | error e => rfl
  | ok id =>
    obtain ⟨_, meaning, meant, accepted⟩ := Table.resolveAs_ok.mp found
    simp only [bind_of_ok (check_ok s id), bind_of_ok (table_apply s), same id _ meaning meant accepted]

theorem strictTypeOver_eq (alarm : CompileError) : strictTypeOver alarm = typeOver := by
  funext inner
  unfold strictTypeOver typeOver
  congr 1
  funext kind
  cases kind with
  | ident =>
    refine congrArg (scan >>= ·) ?_
    funext name
    apply bind_resolvedAs
    intro id t meaning meant accepted
    rw [meant]
    cases meaning <;> first | rfl | cases accepted
  | keyword word => cases word <;> rfl
  | _ => rfl

theorem strictType_eq (alarm : CompileError) : strictType alarm = type := by
  rw [strictType, type, strictTypeOver_eq]

theorem strictForOver_eq (alarm : CompileError) : strictForOver alarm = forOver := by
  funext value inner
  unfold strictForOver forOver
  congr 1
  funext _
  congr 1
  funext name
  apply bind_resolvedAs
  intro id t meaning meant accepted
  rw [meant]
  cases meaning <;> first | rfl | cases accepted

theorem program_never_misuses {s : State} (ready : s.table.Ready) (misuse : ScopeMisuse) :
    (program s).1 ≠ .error (.internal misuse) := by
  intro failed
  have spec := program_compiles (n := s.remaining + 1) (c := s.setting) ready
  exact (spec.fails (Nat.lt_succ_self _) rfl (Prod.ext failed rfl)).1 misuse rfl

theorem runPrograms_never_misuse (runs : Nat) {s : State} (grown : s.table.Grown)
    {outcome : Except CompileError ObjectId} (member : outcome ∈ (runPrograms runs s).1)
    (misuse : ScopeMisuse) : outcome ≠ .error (.internal misuse) := by
  induction runs generalizing s with
  | zero => cases member
  | succ runs ih =>
    rcases List.mem_cons.mp member with rfl | member
    · exact program_never_misuses grown.ready misuse
    · exact ih (program_grown grown).1 member

theorem session_never_misuses {t : Table} (reached : t.Reached) (input : TokenStream)
    (maxDepth runs : Nat) {outcome : Except CompileError ObjectId}
    (member : outcome ∈ (session input maxDepth runs t).1) (misuse : ScopeMisuse) :
    outcome ≠ .error (.internal misuse) := by
  unfold session at member
  split at member
  · rename_i e failed
    cases List.mem_singleton.mp member
    unfold start at failed
    split at failed
    · cases failed
    · cases failed
      nofun
  · rename_i s started
    have table : s.table = t := congrArg Setting.table (start_setting started)
    exact runPrograms_never_misuse runs (table ▸ reached.grown) member misuse

/-- No run of a session misuses the table or takes a branch where a strict analysis would raise
    its alarm. -/
theorem session_strict {t : Table} (reached : t.Reached) (input : TokenStream)
    (maxDepth runs : Nat) {s : State} (state : s.Reached) (alarm : CompileError) :
    (∀ outcome ∈ (session input maxDepth runs t).1, ∀ misuse,
      outcome ≠ .error (.internal misuse)) ∧
      strictProgram alarm s = program s ∧ strictType alarm = type ∧
      strictForOver alarm = forOver :=
  ⟨fun _ member misuse => session_never_misuses reached input maxDepth runs member misuse,
    strictProgram_eq alarm state.grown.1.ready, strictType_eq alarm, strictForOver_eq alarm⟩

/-- A second run behind one that was abandoned in the header of a function. -/
theorem session_strict_after_abandoned_header :
    let program_ : Token := ⟨.keyword .program, "program", none, .start⟩
    let rest : TokenStream := .ofItems <| [⟨.ident, "P", none, .start⟩,
      ⟨.symbol .semicolon, ";", none, .start⟩, ⟨.keyword .function, "function", none, .start⟩,
      ⟨.ident, "F", none, .start⟩, ⟨.symbol .lParen, "(", none, .start⟩].map .ok
    let first : State := ⟨program_, rest, .initial, 64, 0, [.pulled (.ok program_)]⟩
    let alarm : CompileError := .internal .noCurrentScope
    (∀ outcome ∈ (session rest 64 2 .initial).1, ∀ misuse, outcome ≠ .error (.internal misuse)) ∧
      strictProgram alarm (runPrograms 1 first).2 = program (runPrograms 1 first).2 ∧
      strictType alarm = type ∧ strictForOver alarm = forOver := by
  intro program_ rest first alarm
  have state : (runPrograms 1 first).2.Reached :=
    ⟨.initial, ⟨.ok program_ :: rest.items, rest.stop⟩, 64, 1, first, .initial, rfl, rfl⟩
  exact session_strict .initial rest 64 2 state alarm

end Analysis

end Kpl
