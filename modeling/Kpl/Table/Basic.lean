import Kpl.Diagnostic
import Kpl.Object

namespace Kpl

/-- A scope: the program or routine that introduced it, the scope around it, and the objects
    declared in it, in order. -/
structure Scope where
  owner : Option ObjectId
  outer : Option ScopeId
  objects : List ObjectId
deriving DecidableEq, Repr

structure Table where
  objects : Array Object
  scopes : Array Scope
  current : Option ScopeId
  builtins : List ObjectId
  program : Option ObjectId

namespace Table

def empty : Table := ⟨#[], #[], none, [], none⟩

def object? (t : Table) (id : ObjectId) : Option Object := t.objects[id.index]?

def meaning? (t : Table) (id : ObjectId) : Option Meaning := (t.object? id).map (·.meaning)

def name? (t : Table) (id : ObjectId) : Option String := (t.object? id).map (·.name)

def scope? (t : Table) (id : ScopeId) : Option Scope := t.scopes[id.index]?

def objectsIn (t : Table) (id : ScopeId) : List ObjectId :=
  ((t.scope? id).map (·.objects)).getD []

def owner? (t : Table) (id : ScopeId) : Option ObjectId := t.scope? id >>= (·.owner)

def ownerName? (t : Table) (id : ScopeId) : Option String := t.owner? id >>= t.name?

def currentOwner? (t : Table) : Option ObjectId := t.current >>= t.owner?

def params (t : Table) (id : ObjectId) : List ObjectId :=
  ((t.meaning? id).map (·.params)).getD []

def nextObject (t : Table) : ObjectId := ⟨t.objects.size⟩

def nextScope (t : Table) : ScopeId := ⟨t.scopes.size⟩

def addScope (t : Table) (scope : Scope) : Table := { t with scopes := t.scopes.push scope }

/-- Stores an object without listing it in any scope. -/
def addObject (t : Table) (object : Object) : Table :=
  { t with objects := t.objects.push object }

def modifyMeaning (t : Table) (id : ObjectId) (f : Meaning → Meaning) : Table :=
  { t with objects := t.objects.modify id.index fun o => { o with meaning := f o.meaning } }

def modifyScope (t : Table) (id : ScopeId) (f : Scope → Scope) : Table :=
  { t with scopes := t.scopes.modify id.index f }

def setOwner (t : Table) (scope : ScopeId) (owner : ObjectId) : Table :=
  t.modifyScope scope fun s => { s with owner := some owner }

def createScope (t : Table) (owner : Option ObjectId) (outer : Option ScopeId) :
    ScopeId × Table :=
  (t.nextScope, t.addScope ⟨owner, outer, []⟩)

/-- A new program and its scope, which nothing surrounds. The program is declared nowhere. -/
def createProgram (t : Table) (name : String) (loc : Loc) : ObjectId × Table :=
  let (scope, t) := t.createScope none none
  let id := t.nextObject
  let t := (t.addObject ⟨name, some loc, .program scope⟩).setOwner scope id
  (id, { t with program := some id })

/-- A function to be declared, and its scope inside the current one. The scope gets its owner
    when the function is declared. -/
def createFunction (t : Table) (name : String) (loc : Loc) : Object × Table :=
  let (scope, t) := t.createScope none t.current
  (⟨name, some loc, .function [] none scope⟩, t)

def createProcedure (t : Table) (name : String) (loc : Loc) : Object × Table :=
  let (scope, t) := t.createScope none t.current
  (⟨name, some loc, .procedure [] scope⟩, t)

def createParam (t : Table) (name : String) (mode : PassMode) (ty : Ty) (loc : Loc) :
    Except ScopeMisuse Object :=
  match t.currentOwner? with
  | some routine =>
    if ((t.meaning? routine).map (·.isRoutine)).getD false then
      .ok ⟨name, some loc, .param mode ty routine⟩
    else .error .noEnclosingRoutine
  | none => .error .noEnclosingRoutine

/-- Lists an object in a scope. A parameter also joins its routine's parameters, and a routine
    becomes the owner of its scope. -/
def declareIn (t : Table) (scope : ScopeId) (object : Object) : ObjectId × Table :=
  let id := t.nextObject
  let t := (t.addObject object).modifyScope scope fun s => { s with objects := s.objects ++ [id] }
  let t := match object.meaning with
    | .param _ _ routine => t.modifyMeaning routine (·.addParam id)
    | _ => t
  let t := match object.meaning.ownedScope? with
    | some owned => t.setOwner owned id
    | none => t
  (id, t)

/-- Lists an object in the current scope, whether or not its name is fresh there. -/
def declare (t : Table) (object : Object) : Except ScopeMisuse (ObjectId × Table) :=
  match t.current with
  | some scope => .ok (t.declareIn scope object)
  | none => .error .noCurrentScope

/-- Records the return type of a function; other objects stay as they are. -/
def setReturns (t : Table) (id : ObjectId) (ty : Ty) : Table := t.modifyMeaning id (·.setReturns ty)

def enter (t : Table) (scope : ScopeId) : Table := { t with current := some scope }

def exit (t : Table) : Except ScopeMisuse Table :=
  match t.current with
  | some scope => .ok { t with current := t.scope? scope >>= (·.outer) }
  | none => .error .noCurrentScope

def addBuiltin (t : Table) (name : String) (meaning : ScopeId → Meaning)
    (params : List (String × Ty)) : Table :=
  let (scope, t) := t.createScope none none
  let id := t.nextObject
  let t := (t.addObject ⟨name, none, meaning scope⟩).setOwner scope id
  let t := params.foldl
    (fun t (name, ty) => (t.declareIn scope ⟨name, none, .param .value ty id⟩).2) t
  { t with builtins := t.builtins ++ [id] }

/-- The table of a fresh compilation: the five builtin routines, and no current scope. -/
def initial : Table :=
  empty
    |>.addBuiltin "READC" (.function [] (some .char)) []
    |>.addBuiltin "READI" (.function [] (some .int)) []
    |>.addBuiltin "WRITEI" (.procedure []) [("i", .int)]
    |>.addBuiltin "WRITEC" (.procedure []) [("ch", .char)]
    |>.addBuiltin "WRITELN" (.procedure []) []

end Table

end Kpl
