import Kpl.Table.Basic

namespace Kpl

namespace Table

def findIn (t : Table) (scope : ScopeId) (name : String) : Option ObjectId :=
  (t.objectsIn scope).find? fun id => t.name? id = some name

def findBuiltin (t : Table) (name : String) : Option ObjectId :=
  t.builtins.find? fun id => t.name? id = some name

/-- The nearest object of that name from a scope outward. A scope is younger than the one around
    it, so the search goes down in number. -/
def findFrom (t : Table) (scope : ScopeId) (name : String) : Option ObjectId :=
  match t.findIn scope name with
  | some id => some id
  | none =>
    match t.scope? scope >>= (·.outer) with
    | some outer => if outer.index < scope.index then t.findFrom outer name else none
    | none => none
  termination_by scope.index

def lookup (t : Table) (name : String) : Option ObjectId :=
  match t.current >>= (t.findFrom · name) with
  | some id => some id
  | none => t.findBuiltin name

def lookupInCurrent (t : Table) (name : String) : Option ObjectId :=
  t.current >>= (t.findIn · name)

/-- A name about to be declared must be new in the current scope; outer declarations and builtins
    may be hidden. -/
def requireFresh (t : Table) (name : String) (loc : Loc) : Except SemanticError Unit :=
  match t.lookupInCurrent name with
  | some _ => .error ⟨.duplicateIdent, some name, loc⟩
  | none => .ok ()

def resolve (t : Table) (name : String) (loc : Loc) : Except SemanticError ObjectId :=
  match t.lookup name with
  | some id => .ok id
  | none => .error ⟨.undeclaredIdent, some name, loc⟩

def resolveAs (t : Table) (undeclared wrongClass : SemanticError.Cause) (accepts : Meaning → Bool)
    (name : String) (loc : Loc) : Except SemanticError ObjectId :=
  match t.lookup name with
  | some id =>
    if ((t.meaning? id).map accepts).getD false then .ok id
    else .error ⟨wrongClass, some name, loc⟩
  | none => .error ⟨undeclared, some name, loc⟩

def resolveConstant (t : Table) : String → Loc → Except SemanticError ObjectId :=
  t.resolveAs .undeclaredConstant .invalidConstant fun | .const _ => true | _ => false

def resolveType (t : Table) : String → Loc → Except SemanticError ObjectId :=
  t.resolveAs .undeclaredType .invalidType fun | .type _ => true | _ => false

/-- A variable; parameters do not count. -/
def resolveVariable (t : Table) : String → Loc → Except SemanticError ObjectId :=
  t.resolveAs .undeclaredVariable .invalidVariable fun | .var _ => true | _ => false

def resolveProcedure (t : Table) : String → Loc → Except SemanticError ObjectId :=
  t.resolveAs .undeclaredProcedure .invalidProcedure fun | .procedure .. => true | _ => false

/-- The target of an assignment: a variable, a parameter, or the function whose body is being
    read, which stands for its result. -/
def resolveTarget (t : Table) (name : String) (loc : Loc) : Except SemanticError ObjectId := do
  let id ← t.resolve name loc
  match t.meaning? id with
  | some (.var _) | some (.param ..) => .ok id
  | some (.function ..) =>
    if t.currentOwner? = some id then .ok id else .error ⟨.invalidLValue, some name, loc⟩
  | _ => .error ⟨.invalidLValue, some name, loc⟩

end Table

namespace Ty

def requireBasic (ty : Ty) (loc : Loc) : Except SemanticError Unit :=
  if ty.isBasic then .ok () else .error ⟨.invalidBasicType, none, loc⟩

def requireSame (expected found : Ty) (loc : Loc) : Except SemanticError Unit :=
  if expected.same found then .ok ()
  else .error ⟨.typeInconsistency expected.duplicate found.duplicate, none, loc⟩

def requireInt (ty : Ty) (loc : Loc) : Except SemanticError Unit := requireSame .int ty loc

def requireArray (ty : Ty) (loc : Loc) : Except SemanticError Ty :=
  match ty.element? with
  | some element => .ok element
  | none => .error ⟨.notAnArray, none, loc⟩

end Ty

end Kpl
