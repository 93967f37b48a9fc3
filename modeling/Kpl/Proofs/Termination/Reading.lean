import Kpl.Analysis.Statement
import Kpl.Proofs.Termination.Rules

namespace Kpl

namespace Analysis

def selectorOver (inner : Analysis Ty) (ty : Ty) : Analysis Ty := do
  let bracket ← scan
  let element ← check (ty.requireArray bracket.loc)
  expecting .int inner
  let _ ← eat (.symbol .rSelector)
  return element

def nextArgumentOver (inner : Analysis Ty) (signature : List (PassMode × Ty)) (i : Nat) :
    Analysis Nat := do
  let _ ← scan
  argumentAtOver inner signature i
  return i + 1

def operationOver (operand : Analysis Ty) (loc : Loc) (ty : Ty) : Analysis Ty := do
  check (ty.requireInt loc)
  let _ ← scan
  expecting .int operand
  return .int

def nextTargetOver (target : Analysis Ty) (tys : List Ty) : Analysis (List Ty) := do
  let _ ← scan
  return tys ++ [← target]

def nextSourceOver (value : Analysis Ty) (targets : List Ty) (operator : Kind) (i : Nat) :
    Analysis Nat := do
  let _ ← scan
  sourceOver value targets operator i
  return i + 1

def nextStatementOver (inner : Analysis Unit) : Analysis Unit := do
  let _ ← scan
  inner

namespace Coincide

variable {n l : Nat} {kinds : Kind → Prop}

section Expressions

variable {p q : Analysis Ty} (inners : Coincide n l anyKind 0 p q)

include inners

theorem selectorOver (real : ¬ kinds .eof) (ty : Ty) :
    Coincide n l kinds 1 (selectorOver p ty) (selectorOver q ty) := by
  apply bind_scan real
  intro bracket
  apply bind_check
  intro element
  apply (inners.expecting .int).bind
  intro _
  exact (bind_eat (by nofun) fun _ => pure element).lax

theorem selectorsOver (ty : Ty) :
    Coincide n l kinds 0 (selectorsOver p ty) (selectorsOver q ty) :=
  repeatWhile (fun ty => (selectorOver inners (by decide) ty).lax) ty

theorem referenceOver : Coincide n l anyKind 0 (referenceOver p) (referenceOver q) := by
  apply bind_peek
  intro kind _
  apply ite
  · rintro rfl
    refine (bind_scan nofun ?_).lax
    intro name
    apply bind_table
    intro t
    apply bind_check
    intro id
    apply bind_table
    intro t
    split
    · exact throw _
    · apply (selectorsOver inners _).bind
      intro ty
      apply bind_peek
      intro kind _
      split
      · exact pure ty
      · exact pure ty
      · exact throw _
  · intro _
    exact bind_get fun s => throw _

theorem argumentOver (mode : PassMode) (ty : Ty) :
    Coincide n l anyKind 0 (argumentOver p mode ty) (argumentOver q mode ty) := by
  cases mode with
  | value => exact inners.expecting ty
  | reference => exact (referenceOver inners).expecting ty

theorem argumentAtOver (signature : List (PassMode × Ty)) (i : Nat) :
    Coincide n l anyKind 0 (argumentAtOver p signature i) (argumentAtOver q signature i) := by
  unfold Analysis.argumentAtOver
  split
  · exact argumentOver inners _ _
  · exact inners.bind fun _ => pure ()

theorem nextArgumentOver (real : ¬ kinds .eof) (signature : List (PassMode × Ty)) (i : Nat) :
    Coincide n l kinds 1 (nextArgumentOver p signature i) (nextArgumentOver q signature i) := by
  apply bind_scan real
  intro _
  exact (argumentAtOver inners signature i).bind fun _ => pure (i + 1)

theorem argumentListOver (signature : List (PassMode × Ty)) :
    Coincide n l anyKind 0 (argumentListOver p signature) (argumentListOver q signature) := by
  apply bind_peek
  intro kind _
  apply ite
  · intro _
    exact pure 0
  · intro _
    apply (argumentAtOver inners signature 0).any.bind
    intro _
    exact repeatWhile (fun i => (nextArgumentOver inners (by decide) signature i).lax) 1

theorem argumentsOver (routine : ObjectId) (loc : Loc) :
    Coincide n l anyKind 0 (argumentsOver p routine loc) (argumentsOver q routine loc) := by
  apply bind_table
  intro t
  apply bind_peek
  intro kind _
  apply ite
  · rintro rfl
    refine (bind_scan nofun ?_).lax
    intro _
    apply (argumentListOver inners _).bind
    intro count
    apply ite
    · intro _
      exact (bind_eat (by nofun) fun _ => pure ()).lax
    · intro _
      exact failSemantic _
  · intro _
    apply ite
    · intro _
      exact ite (fun _ => pure ()) fun _ => throw _
    · intro _
      exact failGrammar _

theorem namedValueOver : Coincide n l kinds 1 (namedValueOver p) (namedValueOver q) := by
  apply bind_eat (by nofun)
  intro name
  apply bind_table
  intro t
  apply bind_check
  intro id
  apply bind_table
  intro t
  split
  · exact pure _
  · exact selectorsOver inners _
  · exact selectorsOver inners _
  · apply (argumentsOver inners id name.loc).bind
    intro _
    split
    · exact pure _
    · exact throw _
  · exact throw _

theorem factorOver {named named' : Analysis Ty} (names : Coincide n l anyKind 1 named named') :
    Coincide n l anyKind 1 (factorOver named p) (factorOver named' q) := by
  apply bind_peek
  intro kind _
  split
  · exact bind_scan nofun fun _ => pure _
  · exact bind_scan nofun fun _ => pure _
  · apply bind_scan nofun
    intro _
    apply inners.bind
    intro ty
    exact (bind_eat (by nofun) fun _ => pure ty).lax
  · exact names.any
  · exact failGrammar _

omit inners

theorem operationOver {operand operand' : Analysis Ty}
    (operands : Coincide n l anyKind 0 operand operand') (real : ¬ kinds .eof) (loc : Loc)
    (ty : Ty) :
    Coincide n l kinds 1 (operationOver operand loc ty) (operationOver operand' loc ty) := by
  apply bind_check
  intro _
  apply bind_scan real
  intro _
  exact (operands.expecting .int).bind fun _ => pure _

theorem operatorsOver {operand operand' : Analysis Ty}
    (operands : Coincide n l anyKind 0 operand operand') {operator : Kind → Bool}
    (real : operator .eof = false) (loc : Loc) (ty : Ty) :
    Coincide n l kinds 0 (operatorsOver operator operand loc ty)
      (operatorsOver operator operand' loc ty) :=
  repeatWhile (fun ty => (operationOver operands (ne_true_of_eq_false real) loc ty).lax) ty

theorem termOver {factor factor' : Analysis Ty}
    (factors : Coincide n l anyKind 1 factor factor') :
    Coincide n l anyKind 1 (termOver factor) (termOver factor') := by
  apply bind_here
  intro loc
  apply factors.bind
  intro first
  apply (operatorsOver factors.lax rfl loc first).bind
  intro ty
  apply bind_peek
  intro kind _
  exact ite (fun _ => pure ty) fun _ => failGrammar _

theorem sign : Coincide n l anyKind 0 sign sign := by
  apply bind_peek
  intro kind _
  apply ite
  · intro additive
    refine (bind_scan ?_ fun _ => pure true).lax
    rintro rfl
    cases additive
  · intro _
    exact pure false

theorem sumOver {term term' : Analysis Ty} (terms : Coincide n l anyKind 1 term term') :
    Coincide n l anyKind 0 (sumOver term) (sumOver term') := by
  apply sign.bind
  intro signed
  apply bind_here
  intro loc
  apply terms.lax.bind
  intro first
  apply bind_check
  intro _
  apply (operatorsOver terms.lax rfl loc first).bind
  intro ty
  apply bind_peek
  intro kind _
  exact ite (fun _ => pure ty) fun _ => failGrammar _

include inners

theorem expressionOver : Coincide n l anyKind 0 (expressionOver p) (expressionOver q) :=
  sumOver (termOver (factorOver inners (namedValueOver inners)))

end Expressions

/-- Expressions are tied once more than there are levels. -/
theorem expression_tied {m : Nat} (further : Analysis Ty) (enough : l < m) :
    Coincide n l anyKind 0 expression
      ((fun inner => Analysis.nested (Analysis.expressionOver inner))^[m] further) :=
  nesting (fun _ _ _ inners => expressionOver inners) further enough

theorem expression : Coincide n l anyKind 0 Analysis.expression Analysis.expression :=
  (expression_tied Analysis.expression (Nat.lt_succ_self l)).self

section Statements

variable {value value' : Analysis Ty} (values : Coincide n l anyKind 0 value value')

include values

theorem conditionOver :
    Coincide n l anyKind 0 (conditionOver value) (conditionOver value') := by
  apply bind_here
  intro loc
  apply values.bind
  intro left
  apply bind_check
  intro _
  apply bind_peek
  intro kind _
  apply ite
  · intro relational
    refine (bind_scan ?_ ?_).lax
    · rintro rfl
      cases relational
    · intro _
      apply bind_here
      intro loc
      apply values.bind
      intro right
      apply bind_check
      intro _
      exact check _
  · intro _
    exact failSemantic _

theorem targetOver : Coincide n l kinds 1 (targetOver value) (targetOver value') := by
  apply bind_eat (by nofun)
  intro name
  apply bind_table
  intro t
  apply bind_check
  intro id
  apply bind_table
  intro t
  split
  · exact selectorsOver values _
  · exact selectorsOver values _
  · exact pure _
  · exact throw _

omit values in
theorem nextTargetOver {target target' : Analysis Ty}
    (targets : Coincide n l anyKind 0 target target') (real : ¬ kinds .eof) (tys : List Ty) :
    Coincide n l kinds 1 (nextTargetOver target tys) (nextTargetOver target' tys) := by
  apply bind_scan real
  intro _
  exact targets.bind fun ty => pure (tys ++ [ty])

omit values in
theorem targetsOver {target target' : Analysis Ty}
    (targets : Coincide n l anyKind 1 target target') :
    Coincide n l anyKind 1 (targetsOver target) (targetsOver target') := by
  apply targets.bind
  intro first
  exact repeatWhile (fun tys => (nextTargetOver targets.lax (by decide) tys).lax) [first]

theorem sourceOver (targets : List Ty) (operator : Kind) (i : Nat) :
    Coincide n l anyKind 0 (sourceOver value targets operator i)
      (sourceOver value' targets operator i) := by
  apply bind_here
  intro loc
  apply values.bind
  intro ty
  split
  · apply bind_check
    intro _
    exact check _
  · exact pure ()

theorem nextSourceOver (real : ¬ kinds .eof) (targets : List Ty) (operator : Kind) (i : Nat) :
    Coincide n l kinds 1 (nextSourceOver value targets operator i)
      (nextSourceOver value' targets operator i) := by
  apply bind_scan real
  intro _
  exact (sourceOver values targets operator i).bind fun _ => pure (i + 1)

theorem sourcesOver (targets : List Ty) (operator : Kind) :
    Coincide n l anyKind 0 (sourcesOver value targets operator)
      (sourcesOver value' targets operator) := by
  apply (sourceOver values targets operator 0).bind
  intro _
  exact repeatWhile (fun i => (nextSourceOver values (by decide) targets operator i).lax) 1

theorem assignmentOver {target target' : Analysis Ty}
    (targets : Coincide n l anyKind 1 target target') :
    Coincide n l anyKind 1 (assignmentOver target value) (assignmentOver target' value') := by
  apply (targetsOver targets).bind
  intro tys
  apply bind_peek
  intro kind _
  apply ite
  · intro assigns
    refine (bind_scan ?_ ?_).lax
    · rintro rfl
      cases assigns
    · intro operator
      apply (sourcesOver values tys operator.kind).bind
      intro count
      exact ite (fun _ => pure ()) fun _ => throw _
  · intro _
    exact failMissing _

theorem callStatementOver :
    Coincide n l kinds 1 (callStatementOver value) (callStatementOver value') := by
  apply bind_eat (by nofun)
  intro _
  refine (bind_eat (by nofun) ?_).lax
  intro name
  apply bind_table
  intro t
  apply bind_check
  intro id
  exact argumentsOver values id name.loc

variable {p q : Analysis Unit} (inners : Coincide n l anyKind 0 p q)

include inners

omit values in
theorem nextStatementOver (real : ¬ kinds .eof) :
    Coincide n l kinds 1 (nextStatementOver p) (nextStatementOver q) :=
  bind_scan real fun _ => inners

omit values in
theorem statementsOver : Coincide n l anyKind 0 (statementsOver p) (statementsOver q) := by
  apply inners.bind
  intro _
  exact repeatWhile (fun _ => (nextStatementOver inners (by decide)).lax) ()

omit values in
theorem groupOver : Coincide n l kinds 1 (groupOver p) (groupOver q) := by
  apply bind_eat (by nofun)
  intro _
  apply (statementsOver inners).bind
  intro _
  exact (bind_eat (by nofun) fun _ => pure ()).lax

theorem ifOver : Coincide n l kinds 1 (ifOver value p) (ifOver value' q) := by
  apply bind_eat (by nofun)
  intro _
  apply (conditionOver values).bind
  intro _
  refine (bind_eat (by nofun) ?_).lax
  intro _
  apply inners.bind
  intro _
  apply bind_peek
  intro kind _
  apply ite
  · rintro rfl
    exact (bind_scan nofun fun _ => inners).lax
  · intro _
    exact pure ()

theorem whileOver : Coincide n l kinds 1 (whileOver value p) (whileOver value' q) := by
  apply bind_eat (by nofun)
  intro _
  apply (conditionOver values).bind
  intro _
  exact (bind_eat (by nofun) fun _ => inners).lax

theorem forOver : Coincide n l kinds 1 (forOver value p) (forOver value' q) := by
  apply bind_eat (by nofun)
  intro _
  refine (bind_eat (by nofun) ?_).lax
  intro name
  apply bind_table
  intro t
  apply bind_check
  intro id
  apply bind_table
  intro t
  split
  · exact throw _
  · apply bind_check
    intro _
    refine (bind_eat (by nofun) ?_).lax
    intro _
    apply (values.expecting _).bind
    intro _
    refine (bind_eat (by nofun) ?_).lax
    intro _
    apply (values.expecting _).bind
    intro _
    exact (bind_eat (by nofun) fun _ => inners).lax

theorem statementOver {assign assign' : Analysis Unit}
    (assigns : Coincide n l anyKind 1 assign assign') :
    Coincide n l anyKind 0 (statementOver assign value p) (statementOver assign' value' q) := by
  apply bind_peek
  intro kind _
  split
  · exact assigns.any.lax
  · exact (callStatementOver values).lax
  · exact (groupOver inners).lax
  · exact (ifOver values inners).lax
  · exact (whileOver values inners).lax
  · exact (forOver values inners).lax
  · exact pure ()
  · exact pure ()
  · exact pure ()
  · exact failGrammar _

end Statements

theorem assignment : Coincide n l anyKind 1 assignment assignment :=
  assignmentOver expression (targetOver expression)

theorem statement_tied {m : Nat} (further : Analysis Unit) (enough : l < m) :
    Coincide n l anyKind 0 statement
      ((fun inner => Analysis.nested (Analysis.statementOver Analysis.assignment
        Analysis.expression inner))^[m] further) :=
  nesting (fun _ _ _ inners => statementOver expression inners assignment) further enough

theorem statement : Coincide n l anyKind 0 Analysis.statement Analysis.statement :=
  (statement_tied Analysis.statement (Nat.lt_succ_self l)).self

end Coincide

/-- Inside an expression, and one level deeper, expressions are analysed as anywhere. -/
theorem expression_eq : expression = nested (expressionOver expression) :=
  Coincide.nesting_eq fun _ _ _ _ inners => Coincide.expressionOver inners

end Analysis

end Kpl
