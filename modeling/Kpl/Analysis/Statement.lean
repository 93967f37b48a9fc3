import Kpl.Analysis.Expression

namespace Kpl

namespace Analysis

def targetOver (value : Analysis Ty) : Analysis Ty := do
  let name ← eat .ident
  let id ← check ((← table).resolveTarget name.lexeme name.loc)
  match (← table).meaning? id with
  | some (.var ty) | some (.param _ ty _) => selectorsOver value ty
  | some (.function _ (some ty) _) => return ty
  | _ => throw (namedError .invalidLValue name)

/-- `target {, target}` -/
def targetsOver (target : Analysis Ty) : Analysis (List Ty) := do
  let first ← target
  repeatWhile (· = .symbol .comma) [first] fun tys => do
    let _ ← scan
    return tys ++ [← target]

/-- The source at position `i` of an assignment. It has the type of its target, and under a
    compound operator that type is integer; a source without a target is any expression. -/
def sourceOver (value : Analysis Ty) (targets : List Ty) (operator : Kind) (i : Nat) :
    Analysis Unit := do
  let loc ← here
  let ty ← value
  match targets[i]? with
  | some target =>
    check (target.requireSame ty loc)
    check (if operator = .symbol .assign then .ok () else target.requireInt loc)
  | none => return ()

def sourcesOver (value : Analysis Ty) (targets : List Ty) (operator : Kind) : Analysis Nat := do
  sourceOver value targets operator 0
  repeatWhile (· = .symbol .comma) 1 fun i => do
    let _ ← scan
    sourceOver value targets operator i
    return i + 1

/-- `target {, target} := source {, source}`, or with a compound operator. Targets and sources
    pair up in order. -/
def assignmentOver (target value : Analysis Ty) : Analysis Unit := do
  let targets ← targetsOver target
  if (← peek).isAssignment then
    let operator ← scan
    let count ← sourcesOver value targets operator.kind
    if count = targets.length then return ()
    else throw (semanticError (.arityMismatch targets.length count) operator.loc)
  else failMissing (.symbol .assign)

/-- `call procedure arguments` -/
def callStatementOver (value : Analysis Ty) : Analysis Unit := do
  let _ ← eat (.keyword .call)
  let name ← eat .ident
  let id ← check ((← table).resolveProcedure name.lexeme name.loc)
  argumentsOver value id name.loc

def statementsOver (inner : Analysis Unit) : Analysis Unit := do
  inner
  repeatWhile (· = .symbol .semicolon) () fun _ => do
    let _ ← scan
    inner

def groupOver (inner : Analysis Unit) : Analysis Unit := do
  let _ ← eat (.keyword .begin_)
  statementsOver inner
  let _ ← eat (.keyword .end_)

/-- `if condition then statement [else statement]` -/
def ifOver (value : Analysis Ty) (inner : Analysis Unit) : Analysis Unit := do
  let _ ← eat (.keyword .if_)
  conditionOver value
  let _ ← eat (.keyword .then_)
  inner
  if (← peek) = .keyword .else_ then
    let _ ← scan
    inner
  else return ()

/-- `while condition do statement` -/
def whileOver (value : Analysis Ty) (inner : Analysis Unit) : Analysis Unit := do
  let _ ← eat (.keyword .while_)
  conditionOver value
  let _ ← eat (.keyword .do_)
  inner

/-- `for variable := expression to expression do statement`, over an integer variable. -/
def forOver (value : Analysis Ty) (inner : Analysis Unit) : Analysis Unit := do
  let _ ← eat (.keyword .for_)
  let name ← eat .ident
  let id ← check ((← table).resolveVariable name.lexeme name.loc)
  match (← table).meaning? id >>= (·.storage?) with
  | none => throw (namedError .invalidVariable name)
  | some ty =>
    check (ty.requireInt name.loc)
    let _ ← eat (.symbol .assign)
    expecting ty value
    let _ ← eat (.keyword .to_)
    expecting ty value
    let _ ← eat (.keyword .do_)
    inner

/-- Any statement; where one may end there may also be none. A name starts what `assign`
    analyses. -/
def statementOver (assign : Analysis Unit) (value : Analysis Ty) (inner : Analysis Unit) :
    Analysis Unit := do
  match ← peek with
  | .ident => assign
  | .keyword .call => callStatementOver value
  | .keyword .begin_ => groupOver inner
  | .keyword .if_ => ifOver value inner
  | .keyword .while_ => whileOver value inner
  | .keyword .for_ => forOver value inner
  | .symbol .semicolon | .keyword .end_ | .keyword .else_ => return ()
  | _ => failGrammar .invalidStatement

def target : Analysis Ty := targetOver expression

def assignment : Analysis Unit := assignmentOver target expression

def callStatement : Analysis Unit := callStatementOver expression

def statement : Analysis Unit := nesting (statementOver assignment expression)

def statements : Analysis Unit := statementsOver statement

end Analysis

end Kpl
