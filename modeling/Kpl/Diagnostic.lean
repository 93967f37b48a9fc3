import Kpl.Location
import Kpl.Token.Kind
import Kpl.Ty

namespace Kpl

inductive LexicalError.Cause where
  | invalidSymbol
  | identTooLong (max : Nat)
  | invalidChar
  | unclosedComment
  | numberTooLarge
deriving DecidableEq, Repr

structure LexicalError where
  cause : LexicalError.Cause
  loc : Loc
deriving DecidableEq, Repr

def LexicalError.Cause.text : LexicalError.Cause → String
  | invalidSymbol => "invalid symbol"
  | identTooLong max => "identifier longer than " ++ toString max ++ " characters"
  | invalidChar => "invalid character constant"
  | unclosedComment => "end of comment expected"
  | numberTooLarge => "number out of range"

def LexicalError.message (e : LexicalError) : String :=
  "lex error at " ++ e.loc.text ++ ": " ++ e.cause.text

inductive GrammarError.Cause where
  | missingToken (expected found : Kind)
  | invalidStatement
  | invalidFactor
  | invalidType
  | invalidParameter
  | invalidArguments
  | invalidExpression
  | invalidTerm
  | nestingTooDeep (limit : Nat)
deriving DecidableEq, Repr

structure GrammarError where
  cause : GrammarError.Cause
  loc : Loc
deriving DecidableEq, Repr

def GrammarError.Cause.text : GrammarError.Cause → String
  | missingToken expected found => "expected " ++ expected.text ++ ", found " ++ found.text
  | invalidStatement => "invalid statement"
  | invalidFactor => "invalid factor"
  | invalidType => "invalid type"
  | invalidParameter => "invalid parameter"
  | invalidArguments => "invalid arguments"
  | invalidExpression => "invalid expression"
  | invalidTerm => "invalid term"
  | nestingTooDeep limit => "nesting deeper than " ++ toString limit ++ " levels"

def GrammarError.message (e : GrammarError) : String :=
  "syntax error at " ++ e.loc.text ++ ": " ++ e.cause.text

inductive SemanticError.Cause where
  | undeclaredIdent
  | undeclaredConstant
  | undeclaredType
  | undeclaredVariable
  | undeclaredProcedure
  | duplicateIdent
  | invalidConstant
  | invalidIntConstant
  | invalidType
  | invalidVariable
  | invalidProcedure
  | invalidLValue
  | invalidFactor
  | invalidBasicType
  | invalidComparator
  | invalidArraySize
  | notAnArray
  | typeInconsistency (expected found : Ty)
  | arityMismatch (expected found : Nat)
deriving DecidableEq, Repr

/-- A semantic error; `name` is the spelling it is about, when there is one. -/
structure SemanticError where
  cause : SemanticError.Cause
  name : Option String
  loc : Loc
deriving DecidableEq, Repr

def SemanticError.Cause.text : SemanticError.Cause → String
  | undeclaredIdent => "undeclared identifier"
  | undeclaredConstant => "undeclared constant"
  | undeclaredType => "undeclared type"
  | undeclaredVariable => "undeclared variable"
  | undeclaredProcedure => "undeclared procedure"
  | duplicateIdent => "duplicate identifier"
  | invalidConstant => "invalid constant"
  | invalidIntConstant => "an integer constant is required"
  | invalidType => "invalid type"
  | invalidVariable => "invalid variable"
  | invalidProcedure => "invalid procedure"
  | invalidLValue => "invalid lvalue"
  | invalidFactor => "identifier is not a value"
  | invalidBasicType => "a basic type (integer or char) is required"
  | invalidComparator => "a comparison operator is required"
  | invalidArraySize => "array size must be positive"
  | notAnArray => "indexed value is not an array"
  | typeInconsistency expected found =>
    "type inconsistency: expected " ++ expected.text ++ ", found " ++ found.text
  | arityMismatch expected found =>
    "inconsistent count: expected " ++ toString expected ++ ", found " ++ toString found

def SemanticError.message (e : SemanticError) : String :=
  let text := match e.name with
    | some name => e.cause.text ++ " '" ++ name ++ "'"
    | none => e.cause.text
  "semantic error at " ++ e.loc.text ++ ": " ++ text

/-- A use of the symbol table that its scope discipline forbids. -/
inductive ScopeMisuse where
  | noCurrentScope
  | noEnclosingRoutine
deriving DecidableEq, Repr

def ScopeMisuse.message : ScopeMisuse → String
  | noCurrentScope => "symbol table: no current scope"
  | noEnclosingRoutine => "symbol table: current scope is not owned by a routine"

inductive CompileError where
  | lexical (e : LexicalError)
  | grammar (e : GrammarError)
  | semantic (e : SemanticError)
  | internal (e : ScopeMisuse)
deriving DecidableEq, Repr

namespace CompileError

def message : CompileError → String
  | lexical e => e.message
  | grammar e => e.message
  | semantic e => e.message
  | internal e => e.message

def code : CompileError → String
  | lexical _ => "kpl::lex"
  | grammar _ => "kpl::syntax"
  | semantic _ => "kpl::sema"
  | internal _ => "kpl::symtab"

def loc? : CompileError → Option Loc
  | lexical e => some e.loc
  | grammar e => some e.loc
  | semantic e => some e.loc
  | internal _ => none

def label? : CompileError → Option (Span × String)
  | lexical e => some (e.loc.span, e.cause.text)
  | grammar e => some (e.loc.span, e.cause.text)
  | semantic e => some (e.loc.span, e.cause.text)
  | internal _ => none

end CompileError

end Kpl
