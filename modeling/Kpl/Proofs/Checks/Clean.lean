import Kpl.Proofs.Checks.Parts
import Kpl.Proofs.Types

namespace Kpl

/-- A name that is declared twice, or a type that is held against itself. -/
def SemanticError.Cause.suspect : SemanticError.Cause → Bool
  | duplicateIdent => true
  | typeInconsistency expected found => expected = found
  | _ => false

def CompileError.IsSuspect : CompileError → Prop
  | .semantic e => e.cause.suspect
  | _ => False

def Unrelated {α : Type} (x : Except SemanticError α) : Prop :=
  ∀ e, x = .error e → ¬ e.cause.suspect

namespace Unrelated

variable {t : Table} {name : String} {loc : Loc}

theorem ok {α : Type} (a : α) : Unrelated (.ok a) := nofun

theorem resolve : Unrelated (t.resolve name loc) := by
  unfold Table.resolve
  split
  · exact ok _
  · rintro _ ⟨⟩ ⟨⟩

theorem resolveAs {undeclared wrongClass : SemanticError.Cause} {accepts : Meaning → Bool}
    (other : ¬ undeclared.suspect) (other' : ¬ wrongClass.suspect) :
    Unrelated (t.resolveAs undeclared wrongClass accepts name loc) := by
  unfold Table.resolveAs
  split
  · split
    · exact ok _
    · rintro _ ⟨⟩
      exact other'
  · rintro _ ⟨⟩
    exact other

theorem resolveConstant : Unrelated (t.resolveConstant name loc) := resolveAs nofun nofun

theorem resolveType : Unrelated (t.resolveType name loc) := resolveAs nofun nofun

theorem resolveVariable : Unrelated (t.resolveVariable name loc) := resolveAs nofun nofun

theorem resolveProcedure : Unrelated (t.resolveProcedure name loc) := resolveAs nofun nofun

theorem resolveTarget : Unrelated (t.resolveTarget name loc) := by
  unfold Table.resolveTarget
  cases found : t.resolve name loc with
  | error e =>
    rintro _ ⟨⟩
    exact resolve e found
  | ok id =>
    dsimp only [bind, Except.bind]
    split
    · exact ok id
    · exact ok id
    · split
      · exact ok id
      · rintro _ ⟨⟩ ⟨⟩
    · rintro _ ⟨⟩ ⟨⟩

theorem requireSame {expected found : Ty} : Unrelated (expected.requireSame found loc) := by
  intro e failed suspect
  obtain ⟨differ, rfl⟩ := Ty.requireSame_error.mp failed
  exact differ (of_decide_eq_true suspect).symm

theorem requireInt {ty : Ty} : Unrelated (ty.requireInt loc) := requireSame

theorem requireBasic {ty : Ty} : Unrelated (ty.requireBasic loc) := by
  unfold Ty.requireBasic
  split
  · exact ok ()
  · rintro _ ⟨⟩ ⟨⟩

theorem requireArray {ty : Ty} : Unrelated (ty.requireArray loc) := by
  unfold Ty.requireArray
  split
  · exact ok _
  · rintro _ ⟨⟩ ⟨⟩

end Unrelated

namespace Analysis

variable {α β : Type}

def Clean (p : Analysis α) : Prop := Fails (fun _ _ e => ¬ e.IsSuspect) p

theorem clean_inherited : Inherited fun _ _ e => ¬ e.IsSuspect :=
  fun _ _ _ _ _ _ _ _ other => other

namespace Clean

variable {p : Analysis α} {f : α → Analysis β}

theorem total {a : State → α} {next : State → State} (run : ∀ s, p s = (.ok (a s), next s)) :
    Clean p := by
  intro s e t run'
  rw [run] at run'
  cases run'

theorem pure (a : α) : Clean (Pure.pure a) := total fun s => pure_apply s a

theorem throw {e : CompileError} (other : ¬ e.IsSuspect) : Clean (throw e : Analysis α) := by
  intro s e' t run
  cases run
  exact other

theorem failed {e : State → CompileError} (error : ∀ s, p s = (.error (e s), s))
    (other : ∀ s, ¬ (e s).IsSuspect) : Clean p := by
  intro s e' t run
  rw [error] at run
  cases run
  exact other s

theorem failGrammar (cause : GrammarError.Cause) : Clean (failGrammar cause : Analysis α) :=
  failed (fun s => failGrammar_apply s cause) fun _ => id

theorem failSemantic {cause : SemanticError.Cause} (other : ¬ cause.suspect) :
    Clean (failSemantic cause : Analysis α) :=
  failed (fun s => failSemantic_apply s cause) fun _ => other

theorem failMissing (kind : Kind) : Clean (failMissing kind : Analysis α) :=
  failed (fun s => failMissing_apply s kind) fun _ => id

theorem check {x : Except SemanticError α} (other : Unrelated x) : Clean (check x) := by
  cases x with
  | ok a => exact pure a
  | error e => exact throw (other e rfl)

theorem onTable (x : Except ScopeMisuse α) : Clean (onTable x) := by
  cases x with
  | ok a => exact pure a
  | error e => exact throw id

theorem ite {c : Prop} [Decidable c] {q : Analysis α} (yes : Clean p) (no : Clean q) :
    Clean (if c then p else q) := by
  split
  · exact yes
  · exact no

theorem bind (first : Clean p) (rest : ∀ a, Clean (f a)) : Clean (p >>= f) :=
  Fails.bind clean_inherited first rest

theorem map {g : α → β} (h : Clean p) : Clean (g <$> p) := by
  rw [map_eq_bind]
  exact h.bind fun a => pure (g a)

theorem peek : Clean peek := total peek_apply

theorem here : Clean here := total here_apply

theorem table : Clean table := total table_apply

theorem modify (g : State → State) : Clean (modify g : Analysis Unit) :=
  total fun s => modify_apply s g

theorem scan : Clean scan := by
  intro s e t run
  rw [scan_apply] at run
  split at run
  · cases run
  · cases run
    exact id

theorem eat (kind : Kind) : Clean (eat kind) :=
  peek.bind fun _ => ite scan (failMissing kind)

theorem expecting {q : Analysis Ty} (h : Clean q) (ty : Ty) : Clean (expecting ty q) :=
  here.bind fun _ => h.bind fun _ => check .requireSame

theorem repeatWhile {more : Kind → Bool} {step : α → Analysis α} (steps : ∀ a, Clean (step a))
    (a : α) : Clean (repeatWhile more a step) :=
  Fails.repeatWhile clean_inherited steps a

theorem recursively {stalled : Analysis α} {body : Analysis α → Analysis α}
    (stall : Clean stalled) (knot : ∀ p, Clean p → Clean (body p)) :
    Clean (recursively stalled body) :=
  Fails.recursively clean_inherited stall knot

theorem nested (h : Clean p) : Clean (nested p) := by
  intro s e t run
  unfold Analysis.nested at run
  split at run
  · cases inside : p { s with depth := s.depth + 1 } with | mk r u =>
    rw [inside] at run
    cases run
    exact h inside
  · cases run
    exact id

theorem nesting {body : Analysis α → Analysis α} (knot : ∀ p, Clean p → Clean (body p)) :
    Clean (nesting body) := by
  intro s
  generalize levels : s.maxDepth - s.depth = n
  have tied : Clean (nestedAt body n) := by
    clear levels
    induction n with
    | zero => exact failed (fun s => tooDeep_apply s) fun _ => id
    | succ n ih => exact (knot _ ih).nested
  rw [Analysis.nesting, levels]
  exact @tied s

section Expressions

variable {inner : Analysis Ty} (inners : Clean inner)

include inners

theorem selectorsOver (ty : Ty) : Clean (selectorsOver inner ty) := by
  refine repeatWhile (fun ty => ?_) ty
  refine scan.bind fun bracket => ?_
  refine (check .requireArray).bind fun element => ?_
  exact (inners.expecting .int).bind fun _ => (eat _).bind fun _ => pure element

theorem referenceOver : Clean (referenceOver inner) := by
  refine peek.bind fun kind => ite ?_ (failed (fun _ => rfl) fun _ => nofun)
  refine scan.bind fun name => table.bind fun t => ?_
  refine (check .resolve).bind fun id => table.bind fun t' => ?_
  split
  · exact throw nofun
  · refine (selectorsOver inners _).bind fun ty => peek.bind fun kind => ?_
    split
    · exact pure ty
    · exact pure ty
    · exact throw nofun

theorem argumentOver (mode : PassMode) (ty : Ty) : Clean (argumentOver inner mode ty) := by
  cases mode with
  | value => exact inners.expecting ty
  | reference => exact (referenceOver inners).expecting ty

theorem argumentAtOver (signature : List (PassMode × Ty)) (i : Nat) :
    Clean (argumentAtOver inner signature i) := by
  unfold Analysis.argumentAtOver
  split
  · exact argumentOver inners _ _
  · exact inners.bind fun _ => pure ()

theorem argumentListOver (signature : List (PassMode × Ty)) :
    Clean (argumentListOver inner signature) := by
  refine peek.bind fun kind => ite (pure 0) ?_
  refine (argumentAtOver inners signature 0).bind fun _ => repeatWhile (fun i => ?_) 1
  exact scan.bind fun _ => (argumentAtOver inners signature i).bind fun _ => pure (i + 1)

theorem argumentsOver (routine : ObjectId) (loc : Loc) :
    Clean (argumentsOver inner routine loc) := by
  refine table.bind fun t => peek.bind fun kind => ite ?_ (ite (ite (pure ()) ?_) ?_)
  · refine scan.bind fun _ => (argumentListOver inners _).bind fun count => ite ?_ ?_
    · exact (eat _).bind fun _ => pure ()
    · exact failSemantic nofun
  · exact throw nofun
  · exact failGrammar _

theorem namedValueOver : Clean (namedValueOver inner) := by
  refine (eat _).bind fun name => table.bind fun t => ?_
  refine (check .resolve).bind fun id => table.bind fun t' => ?_
  split
  · exact pure _
  · exact selectorsOver inners _
  · exact selectorsOver inners _
  · refine (argumentsOver inners id name.loc).bind fun _ => ?_
    split
    · exact pure _
    · exact throw nofun
  · exact throw nofun

theorem factorOver {named : Analysis Ty} (names : Clean named) :
    Clean (factorOver named inner) := by
  refine peek.bind fun kind => ?_
  split
  · exact scan.bind fun _ => pure _
  · exact scan.bind fun _ => pure _
  · exact scan.bind fun _ => inners.bind fun ty => (eat _).bind fun _ => pure ty
  · exact names
  · exact failGrammar _

omit inners in
theorem operatorsOver {operand : Analysis Ty} (operands : Clean operand) (operator : Kind → Bool)
    (loc : Loc) (ty : Ty) : Clean (operatorsOver operator operand loc ty) := by
  refine repeatWhile (fun ty => ?_) ty
  refine (check .requireInt).bind fun _ => scan.bind fun _ => ?_
  exact (operands.expecting .int).bind fun _ => pure _

omit inners in
theorem termOver {factor : Analysis Ty} (factors : Clean factor) : Clean (termOver factor) := by
  refine here.bind fun loc => factors.bind fun first => ?_
  refine (operatorsOver factors _ loc first).bind fun ty => peek.bind fun kind => ?_
  exact ite (pure ty) (failGrammar _)

omit inners in
theorem sumOver {term : Analysis Ty} (terms : Clean term) : Clean (sumOver term) := by
  have signs : Clean sign := peek.bind fun _ => ite (scan.bind fun _ => pure _) (pure _)
  refine signs.bind fun signed => here.bind fun loc => terms.bind fun first => ?_
  have checked : Unrelated (if signed then first.requireInt loc else .ok ()) := by
    split
    · exact .requireInt
    · exact .ok ()
  refine (check checked).bind fun _ => (operatorsOver terms _ loc first).bind fun ty => ?_
  exact peek.bind fun _ => ite (pure ty) (failGrammar _)

theorem expressionOver : Clean (expressionOver inner) :=
  sumOver (termOver (factorOver inners (namedValueOver inners)))

end Expressions

theorem expression : Clean expression := nesting fun _ => expressionOver

section Statements

variable {value : Analysis Ty} (values : Clean value) {inner : Analysis Unit} (inners : Clean inner)

include values

theorem conditionOver : Clean (conditionOver value) := by
  refine here.bind fun loc => values.bind fun left => (check .requireBasic).bind fun _ => ?_
  refine peek.bind fun kind => ite ?_ (failSemantic nofun)
  refine scan.bind fun _ => here.bind fun loc => values.bind fun right => ?_
  exact (check .requireBasic).bind fun _ => check .requireSame

theorem targetOver : Clean (targetOver value) := by
  refine (eat _).bind fun name => table.bind fun t => ?_
  refine (check .resolveTarget).bind fun id => table.bind fun t' => ?_
  split
  · exact selectorsOver values _
  · exact selectorsOver values _
  · exact pure _
  · exact throw nofun

theorem sourceOver (targets : List Ty) (operator : Kind) (i : Nat) :
    Clean (sourceOver value targets operator i) := by
  refine here.bind fun loc => values.bind fun ty => ?_
  split
  · refine (check .requireSame).bind fun _ => check ?_
    split
    · exact .ok ()
    · exact .requireInt
  · exact pure ()

theorem sourcesOver (targets : List Ty) (operator : Kind) :
    Clean (sourcesOver value targets operator) := by
  refine (sourceOver values targets operator 0).bind fun _ => repeatWhile (fun i => ?_) 1
  exact scan.bind fun _ => (sourceOver values targets operator i).bind fun _ => pure _

theorem assignmentOver {target : Analysis Ty} (target' : Clean target) :
    Clean (assignmentOver target value) := by
  have targets : Clean (targetsOver target) := target'.bind fun first =>
    repeatWhile (fun _ => scan.bind fun _ => target'.bind fun _ => pure _) [first]
  refine targets.bind fun tys => peek.bind fun kind => ite ?_ (failMissing _)
  refine scan.bind fun operator => (sourcesOver values tys operator.kind).bind fun count => ?_
  exact ite (pure ()) (throw nofun)

theorem callStatementOver : Clean (callStatementOver value) := by
  refine (eat _).bind fun _ => (eat _).bind fun name => table.bind fun t => ?_
  exact (check .resolveProcedure).bind fun id => argumentsOver values id name.loc

include inners

omit values in
theorem groupOver : Clean (groupOver inner) := by
  have statements : Clean (statementsOver inner) :=
    inners.bind fun _ => repeatWhile (fun _ => scan.bind fun _ => inners) ()
  exact (eat _).bind fun _ => statements.bind fun _ => (eat _).bind fun _ => pure ()

theorem ifOver : Clean (ifOver value inner) := by
  refine (eat _).bind fun _ => (conditionOver values).bind fun _ => (eat _).bind fun _ => ?_
  refine inners.bind fun _ => peek.bind fun kind => ?_
  exact ite (scan.bind fun _ => inners) (pure ())

theorem whileOver : Clean (whileOver value inner) :=
  (eat _).bind fun _ => (conditionOver values).bind fun _ => (eat _).bind fun _ => inners

theorem forOver : Clean (forOver value inner) := by
  refine (eat _).bind fun _ => (eat _).bind fun name => table.bind fun t => ?_
  refine (check .resolveVariable).bind fun id => table.bind fun t' => ?_
  split
  · exact throw nofun
  · refine (check .requireInt).bind fun _ => (eat _).bind fun _ => ?_
    refine (values.expecting _).bind fun _ => (eat _).bind fun _ => ?_
    exact (values.expecting _).bind fun _ => (eat _).bind fun _ => inners

theorem statementOver {assign : Analysis Unit} (assigns : Clean assign) :
    Clean (statementOver assign value inner) := by
  refine peek.bind fun kind => ?_
  split
  · exact assigns
  · exact callStatementOver values
  · exact groupOver inners
  · exact ifOver values inners
  · exact whileOver values inners
  · exact forOver values inners
  · exact pure ()
  · exact pure ()
  · exact pure ()
  · exact failGrammar _

end Statements

theorem statement : Clean statement :=
  nesting fun _ inners =>
    statementOver expression inners (assignmentOver expression (targetOver expression))

theorem unsignedConstant : Clean unsignedConstant := by
  refine peek.bind fun kind => ?_
  split
  · refine scan.bind fun number => ?_
    split
    · exact pure _
    · exact throw nofun
  · refine scan.bind fun name => table.bind fun t => ?_
    refine (check .resolveConstant).bind fun id => table.bind fun t' => ?_
    split
    · exact pure _
    · exact throw nofun
  · exact failSemantic nofun

theorem constant : Clean constant := by
  refine peek.bind fun kind => ?_
  split
  · exact scan.bind fun _ => unsignedConstant
  · refine scan.bind fun minus => unsignedConstant.bind fun value => ?_
    split
    · exact pure _
    · exact throw nofun
  · refine scan.bind fun char => ?_
    split
    · exact pure _
    · exact throw nofun
  · exact unsignedConstant

theorem typeOver {inner : Analysis Ty} (inners : Clean inner) : Clean (typeOver inner) := by
  refine peek.bind fun kind => ?_
  split
  · exact scan.bind fun _ => pure _
  · exact scan.bind fun _ => pure _
  · refine scan.bind fun _ => (eat _).bind fun _ => (eat _).bind fun number => ?_
    refine (eat _).bind fun _ => (eat _).bind fun _ => inners.bind fun element => ?_
    split
    · exact pure _
    · exact throw nofun
  · refine scan.bind fun name => table.bind fun t => ?_
    refine (check .resolveType).bind fun id => table.bind fun t' => ?_
    split
    · exact pure _
    · exact throw nofun
  · exact failGrammar _

theorem type : Clean type := recursively (failGrammar _) fun _ => typeOver

theorem basicType : Clean basicType := by
  refine peek.bind fun kind => ?_
  split
  · exact scan.bind fun _ => pure _
  · exact scan.bind fun _ => pure _
  · exact failSemantic nofun

theorem declare (object : Object) : Clean (declare object) := by
  intro s e t run
  cases here : s.table.current with
  | some scope =>
    rw [declare_apply object here] at run
    cases run
  | none =>
    rw [declare_nowhere object here] at run
    cases run
    exact id

theorem declareRoutine (create : Table → Object × Table) : Clean (declareRoutine create) :=
  table.bind fun _ => (modify _).bind fun _ => declare _

theorem enterOwned (id : ObjectId) : Clean (enterOwned id) := by
  refine table.bind fun t => ?_
  split
  · exact total fun s => enterScope_apply s _
  · exact throw fun same => same

theorem exitScope : Clean exitScope := by
  intro s e t run
  cases here : s.table.current with
  | some scope =>
    rw [exitScope_apply here] at run
    cases run
  | none =>
    rw [exitScope_nowhere here] at run
    cases run
    exact id

end Clean

end Analysis

end Kpl
