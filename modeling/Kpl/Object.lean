import Kpl.Location
import Kpl.Ty

namespace Kpl

structure ObjectId where
  index : Nat
deriving DecidableEq, Repr

structure ScopeId where
  index : Nat
deriving DecidableEq, Repr

inductive PassMode where
  | value
  | reference
deriving DecidableEq, Repr

/-- What a declared name stands for. Programs and routines introduce a scope of their own;
    a function's return type is unset until its header has been read. -/
inductive Meaning where
  | program (scope : ScopeId)
  | const (value : Constant)
  | type (actual : Ty)
  | var (ty : Ty)
  | function (params : List ObjectId) (returns : Option Ty) (scope : ScopeId)
  | procedure (params : List ObjectId) (scope : ScopeId)
  | param (mode : PassMode) (ty : Ty) (routine : ObjectId)
deriving DecidableEq, Repr

namespace Meaning

def className : Meaning → String
  | program .. => "Program"
  | const .. => "Const"
  | type .. => "Type"
  | var .. => "Var"
  | function .. => "Function"
  | procedure .. => "Procedure"
  | param .. => "Param"

def ownedScope? : Meaning → Option ScopeId
  | program scope | function _ _ scope | procedure _ scope => some scope
  | _ => none

def params : Meaning → List ObjectId
  | function params _ _ | procedure params _ => params
  | _ => []

def storage? : Meaning → Option Ty
  | var ty | param _ ty _ => some ty
  | _ => none

def isRoutine : Meaning → Bool
  | function .. | procedure .. => true
  | _ => false

def addParam (id : ObjectId) : Meaning → Meaning
  | function params returns scope => function (params ++ [id]) returns scope
  | procedure params scope => procedure (params ++ [id]) scope
  | other => other

def setReturns (ty : Ty) : Meaning → Meaning
  | function params _ scope => function params (some ty) scope
  | other => other

end Meaning

/-- A declared name; builtins have no place. -/
structure Object where
  name : String
  loc : Option Loc
  meaning : Meaning
deriving DecidableEq, Repr

end Kpl
