import Kpl.Analysis.Statement

namespace Kpl

namespace Analysis

def unsignedConstant : Analysis Constant := do
  match ← peek with
  | .number =>
    let number ← scan
    match number.value with
    | some value => return .int value
    | none => throw (namedError .invalidConstant number)
  | .ident =>
    let name ← scan
    let id ← check ((← table).resolveConstant name.lexeme name.loc)
    match (← table).meaning? id with
    | some (.const (.int value)) => return .int value
    | _ => throw (namedError .invalidIntConstant name)
  | _ => failSemantic .invalidConstant

def constant : Analysis Constant := do
  match ← peek with
  | .symbol .plus =>
    let _ ← scan
    unsignedConstant
  | .symbol .minus =>
    let minus ← scan
    let value ← unsignedConstant
    match value.negate? with
    | some negated => return negated
    | none => throw (semanticError .invalidConstant minus.loc)
  | .char =>
    let char ← scan
    match char.char? with
    | some value => return .char value
    | none => throw (namedError .invalidConstant char)
  | _ => unsignedConstant

def arraySize? (number : Token) : Option UInt32 :=
  match number.value with
  | some value => if 0 < value.toInt then some (.ofNat value.toInt.toNat) else none
  | none => none

/-- `integer`, `char`, `array[size] of type`, or the name of a type. -/
def typeOver (inner : Analysis Ty) : Analysis Ty := do
  match ← peek with
  | .keyword .integer =>
    let _ ← scan
    return .int
  | .keyword .char =>
    let _ ← scan
    return .char
  | .keyword .array =>
    let _ ← scan
    let _ ← eat (.symbol .lSelector)
    let number ← eat .number
    let _ ← eat (.symbol .rSelector)
    let _ ← eat (.keyword .of)
    let element ← inner
    match arraySize? number with
    | some size => return .array size element
    | none => throw (namedError .invalidArraySize number)
  | .ident =>
    let name ← scan
    let id ← check ((← table).resolveType name.lexeme name.loc)
    match (← table).meaning? id with
    | some (.type actual) => return actual
    | _ => throw (namedError .invalidType name)
  | _ => failGrammar .invalidType

def type : Analysis Ty := recursively (failGrammar .invalidType) typeOver

def basicType : Analysis Ty := do
  match ← peek with
  | .keyword .integer =>
    let _ ← scan
    return .int
  | .keyword .char =>
    let _ ← scan
    return .char
  | _ => failSemantic .invalidBasicType

def freshName : Analysis Token := do
  let name ← eat .ident
  check ((← table).requireFresh name.lexeme name.loc)
  return name

/-- One declaration of a section: `name separator meaning ;`. -/
def sectionEntry (separator : Symbol) (meaning : Analysis Meaning) : Analysis Unit := do
  let name ← freshName
  let _ ← eat (.symbol separator)
  let meaning ← meaning
  let _ ← declare ⟨name.lexeme, some name.loc, meaning⟩
  let _ ← eat (.symbol .semicolon)

def declarationSection (keyword : Keyword) (separator : Symbol) (meaning : Analysis Meaning) :
    Analysis Unit := do
  let _ ← eat (.keyword keyword)
  sectionEntry separator meaning
  repeatWhile (· = .ident) () fun _ => sectionEntry separator meaning

def constSection : Analysis Unit := declarationSection .const .eq (.const <$> constant)

def typeSection : Analysis Unit := declarationSection .type .eq (.type <$> type)

def varSection : Analysis Unit := declarationSection .var .colon (.var <$> type)

def paramMode : Analysis PassMode := do
  match ← peek with
  | .ident => return .value
  | .keyword .var =>
    let _ ← scan
    return .reference
  | _ => failGrammar .invalidParameter

/-- `[var] name : type` -/
def param : Analysis Unit := do
  let mode ← paramMode
  let name ← freshName
  let _ ← eat (.symbol .colon)
  let ty ← basicType
  let object ← onTable ((← table).createParam name.lexeme mode ty name.loc)
  let _ ← declare object

/-- `[( [param {; param}] )]` -/
def params : Analysis Unit := do
  if (← peek) = .symbol .lParen then
    let _ ← scan
    if (← peek) = .symbol .rParen then
      let _ ← scan
    else
      param
      repeatWhile (· = .symbol .semicolon) () fun _ => do
        let _ ← scan
        param
      let _ ← eat (.symbol .rParen)
  else return ()

def declareRoutine (create : Table → Object × Table) : Analysis ObjectId := do
  let (object, grown) := create (← table)
  modify fun s => { s with table := grown }
  declare object

/-- `function name params : type ; block ;`, behind which the scope around it is current
    again. -/
def functionOver (block : Analysis Unit) : Analysis Unit := do
  let _ ← eat (.keyword .function)
  let name ← freshName
  let id ← declareRoutine (·.createFunction name.lexeme name.loc)
  enterOwned id
  params
  let _ ← eat (.symbol .colon)
  let returns ← basicType
  modify fun s => { s with table := s.table.setReturns id returns }
  let _ ← eat (.symbol .semicolon)
  block
  let _ ← eat (.symbol .semicolon)
  exitScope

/-- `procedure name params ; block ;` -/
def procedureOver (block : Analysis Unit) : Analysis Unit := do
  let _ ← eat (.keyword .procedure)
  let name ← freshName
  let id ← declareRoutine (·.createProcedure name.lexeme name.loc)
  enterOwned id
  params
  let _ ← eat (.symbol .semicolon)
  block
  let _ ← eat (.symbol .semicolon)
  exitScope

end Analysis

def Kind.opensDeclaration : Kind → Bool
  | .keyword .const | .keyword .type | .keyword .var | .keyword .function
  | .keyword .procedure => true
  | _ => false

namespace Analysis

def declarationOver (block : Analysis Unit) : Analysis Unit := do
  match ← peek with
  | .keyword .const => constSection
  | .keyword .type => typeSection
  | .keyword .var => varSection
  | .keyword .function => functionOver block
  | .keyword .procedure => procedureOver block
  | _ => return ()

/-- `{declaration} begin statements end` -/
def blockOver (statement inner : Analysis Unit) : Analysis Unit := do
  repeatWhile Kind.opensDeclaration () fun _ => declarationOver inner
  groupOver statement

def blockOf (statement : Analysis Unit) : Analysis Unit :=
  recursively (failMissing (.keyword .begin_)) (blockOver statement)

def block : Analysis Unit := blockOf statement

def functionDeclaration : Analysis Unit := functionOver block

def procedureDeclaration : Analysis Unit := procedureOver block

/-- `program name ; block .` and the end of the input; the program is the result. -/
def programOver (block : Analysis Unit) : Analysis ObjectId := do
  let _ ← eat (.keyword .program)
  let name ← eat .ident
  let (id, grown) := (← table).createProgram name.lexeme name.loc
  modify fun s => { s with table := grown }
  enterOwned id
  let _ ← eat (.symbol .semicolon)
  block
  let _ ← eat (.symbol .period)
  exitScope
  let _ ← eat .eof
  return id

def program : Analysis ObjectId := programOver block

end Analysis

end Kpl
