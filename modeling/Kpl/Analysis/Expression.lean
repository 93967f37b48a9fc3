import Kpl.Analysis.Basic

/-!
Expressions, conditions, array selectors and the arguments of calls. An expression that is a
single unsigned term keeps the type of that term; a sign or an operator makes it integer
arithmetic. What may stand behind an expression is part of its grammar.

Expressions contain expressions: the parts are written over `inner`, the analysis of a contained
expression, and `expression` ties the knot.
-/

namespace Kpl

namespace Kind

def followsExpression : Kind → Bool
  | .keyword .to_ | .keyword .do_ | .keyword .end_ | .keyword .else_ | .keyword .then_ => true
  | .symbol .rParen | .symbol .comma | .symbol .rSelector | .symbol .semicolon => true
  | kind => kind.isRelational

def followsTerm (kind : Kind) : Bool := kind.isAdditive || kind.followsExpression

/-- The kinds behind which the bare name of a routine is a call without arguments. -/
def followsCall (kind : Kind) : Bool := kind.isMultiplicative || kind.followsTerm

end Kind

def Table.signature (t : Table) (routine : ObjectId) : List (PassMode × Ty) :=
  (t.params routine).filterMap fun id =>
    match t.meaning? id with
    | some (.param mode ty _) => some (mode, ty)
    | _ => none

namespace Analysis

/-- Zero or more `[expression]` selectors behind storage of type `ty`; each takes one array level
    off the type. -/
def selectorsOver (inner : Analysis Ty) (ty : Ty) : Analysis Ty :=
  repeatWhile (· = .symbol .lSelector) ty fun ty => do
    let bracket ← scan
    let element ← check (ty.requireArray bracket.loc)
    expecting .int inner
    let _ ← eat (.symbol .rSelector)
    return element

def referenceOver (inner : Analysis Ty) : Analysis Ty := do
  if (← peek) = .ident then
    let name ← scan
    let id ← check ((← table).resolve name.lexeme name.loc)
    match (← table).meaning? id >>= (·.storage?) with
    | none => throw (namedError .invalidLValue name)
    | some ty =>
      let ty ← selectorsOver inner ty
      match ← peek with
      | .symbol .comma | .symbol .rParen => return ty
      | _ => throw (namedError .invalidLValue name)
  else throw (namedError .invalidLValue (← get).lookahead)

def argumentOver (inner : Analysis Ty) (mode : PassMode) (ty : Ty) : Analysis Unit :=
  expecting ty <|
    match mode with
    | .value => inner
    | .reference => referenceOver inner

/-- The argument at position `i`; one that no parameter awaits is any expression. -/
def argumentAtOver (inner : Analysis Ty) (signature : List (PassMode × Ty)) (i : Nat) :
    Analysis Unit :=
  match signature[i]? with
  | some (mode, ty) => argumentOver inner mode ty
  | none => do let _ ← inner

def argumentListOver (inner : Analysis Ty) (signature : List (PassMode × Ty)) : Analysis Nat := do
  if (← peek) = .symbol .rParen then return 0
  else
    argumentAtOver inner signature 0
    repeatWhile (· = .symbol .comma) 1 fun i => do
      let _ ← scan
      argumentAtOver inner signature i
      return i + 1

/-- The arguments of a call to `routine`, whose name stands at `callLoc`. Without parentheses the
    call passes nothing, which is a call only where one may end. -/
def argumentsOver (inner : Analysis Ty) (routine : ObjectId) (callLoc : Loc) : Analysis Unit := do
  let signature := (← table).signature routine
  let next ← peek
  if next = .symbol .lParen then
    let _ ← scan
    let count ← argumentListOver inner signature
    if count = signature.length then
      let _ ← eat (.symbol .rParen)
    else failSemantic (.arityMismatch signature.length count)
  else if next.followsCall then
    if signature.length = 0 then return ()
    else throw (semanticError (.arityMismatch signature.length 0) callLoc)
  else failGrammar .invalidArguments

def namedValueOver (inner : Analysis Ty) : Analysis Ty := do
  let name ← eat .ident
  let id ← check ((← table).resolve name.lexeme name.loc)
  match (← table).meaning? id with
  | some (.const value) => return value.ty
  | some (.var ty) | some (.param _ ty _) => selectorsOver inner ty
  | some (.function _ returns _) =>
    argumentsOver inner id name.loc
    match returns with
    | some ty => return ty
    | none => throw (namedError .invalidFactor name)
  | _ => throw (namedError .invalidFactor name)

def factorOver (named inner : Analysis Ty) : Analysis Ty := do
  match ← peek with
  | .number =>
    let _ ← scan
    return .int
  | .char =>
    let _ ← scan
    return .char
  | .symbol .lParen =>
    let _ ← scan
    let ty ← inner
    let _ ← eat (.symbol .rParen)
    return ty
  | .ident => named
  | _ => failGrammar .invalidFactor

/-- The operators of one precedence behind a first operand of type `ty` at `loc`. All operands of
    an operator are integers, and so is its result. -/
def operatorsOver (operator : Kind → Bool) (operand : Analysis Ty) (loc : Loc) (ty : Ty) :
    Analysis Ty :=
  repeatWhile operator ty fun ty => do
    check (ty.requireInt loc)
    let _ ← scan
    expecting .int operand
    return .int

/-- `factor {(*|/) factor}` -/
def termOver (factor : Analysis Ty) : Analysis Ty := do
  let loc ← here
  let first ← factor
  let ty ← operatorsOver Kind.isMultiplicative factor loc first
  if (← peek).followsTerm then return ty else failGrammar .invalidTerm

def sign : Analysis Bool := do
  if (← peek).isAdditive then
    let _ ← scan
    return true
  else return false

/-- `[+|-] term {(+|-) term}` -/
def sumOver (term : Analysis Ty) : Analysis Ty := do
  let signed ← sign
  let loc ← here
  let first ← term
  check (if signed then first.requireInt loc else .ok ())
  let ty ← operatorsOver Kind.isAdditive term loc first
  if (← peek).followsExpression then return ty else failGrammar .invalidExpression

def expressionOver (inner : Analysis Ty) : Analysis Ty :=
  sumOver (termOver (factorOver (namedValueOver inner) inner))

def expression : Analysis Ty := nesting expressionOver

def selectors (ty : Ty) : Analysis Ty := selectorsOver expression ty

def reference : Analysis Ty := referenceOver expression

def arguments (routine : ObjectId) (callLoc : Loc) : Analysis Unit :=
  argumentsOver expression routine callLoc

/-- `expression relation expression`, over basic types of one kind. -/
def conditionOver (value : Analysis Ty) : Analysis Unit := do
  let loc ← here
  let left ← value
  check (left.requireBasic loc)
  if (← peek).isRelational then
    let _ ← scan
    let loc ← here
    let right ← value
    check (right.requireBasic loc)
    check (left.requireSame right loc)
  else failSemantic .invalidComparator

def condition : Analysis Unit := conditionOver expression

end Analysis

end Kpl
