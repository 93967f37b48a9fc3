import Kpl.Table.Basic

namespace Kpl

structure Param where
  name : String
  loc : Loc
  mode : PassMode
  ty : Ty
deriving DecidableEq, Repr

/-- What stands between the name of a routine and its block. The return type of a function is
    unset while the header is being read. -/
inductive Header where
  | function (params : List Param) (returns : Option Ty)
  | procedure (params : List Param)
deriving DecidableEq, Repr

namespace Header

def params : Header → List Param
  | function params _ | procedure params => params

def names (header : Header) : List String := header.params.map (·.name)

def signature (header : Header) : List (PassMode × Ty) := header.params.map fun p => (p.mode, p.ty)

def addParam (param : Param) : Header → Header
  | function params returns => function (params ++ [param]) returns
  | procedure params => procedure (params ++ [param])

def setReturns (ty : Ty) : Header → Header
  | function params _ => function params (some ty)
  | procedure params => procedure params

def Complete : Header → Prop
  | function _ returns => returns.isSome
  | procedure _ => True

def meaning (params : List ObjectId) (scope : ScopeId) : Header → Meaning
  | function _ returns => .function params returns scope
  | procedure _ => .procedure params scope

@[simp] theorem params_addParam (param : Param) (header : Header) :
    (header.addParam param).params = header.params ++ [param] := by
  cases header <;> rfl

@[simp] theorem params_setReturns (ty : Ty) (header : Header) :
    (header.setReturns ty).params = header.params := by
  cases header <;> rfl

@[simp] theorem names_addParam (param : Param) (header : Header) :
    (header.addParam param).names = header.names ++ [param.name] := by
  simp [names]

@[simp] theorem meaning_params (params : List ObjectId) (scope : ScopeId) (header : Header) :
    (header.meaning params scope).params = params := by
  cases header <;> rfl

@[simp] theorem meaning_ownedScope (params : List ObjectId) (scope : ScopeId) (header : Header) :
    (header.meaning params scope).ownedScope? = some scope := by
  cases header <;> rfl

@[simp] theorem meaning_isRoutine (params : List ObjectId) (scope : ScopeId) (header : Header) :
    (header.meaning params scope).isRoutine = true := by
  cases header <;> rfl

theorem meaning_addParam (params : List ObjectId) (scope : ScopeId) (header : Header)
    (param : Param) (id : ObjectId) :
    (header.meaning params scope).addParam id =
      (header.addParam param).meaning (params ++ [id]) scope := by
  cases header <;> rfl

theorem meaning_setReturns (params : List ObjectId) (scope : ScopeId) (header : Header) (ty : Ty) :
    (header.meaning params scope).setReturns ty = (header.setReturns ty).meaning params scope := by
  cases header <;> rfl

end Header

inductive Plain where
  | const (value : Constant)
  | type (actual : Ty)
  | var (ty : Ty)
deriving DecidableEq, Repr

def Plain.meaning : Plain → Meaning
  | const value => .const value
  | type actual => .type actual
  | var ty => .var ty

/-- The contents of a scope: a declaration and then the others. -/
inductive Contents where
  | nil
  | plain (name : String) (loc : Loc) (what : Plain) (rest : Contents)
  | routine (name : String) (loc : Loc) (header : Header) (inside rest : Contents)
deriving DecidableEq, Repr

namespace Contents

def append : Contents → Contents → Contents
  | nil, other => other
  | plain name loc what rest, other => plain name loc what (rest.append other)
  | routine name loc header inside rest, other =>
    routine name loc header inside (rest.append other)

instance : Append Contents := ⟨append⟩

@[simp] theorem nil_append (other : Contents) : nil ++ other = other := rfl

@[simp] theorem plain_append (name : String) (loc : Loc) (what : Plain) (rest other : Contents) :
    plain name loc what rest ++ other = plain name loc what (rest ++ other) := rfl

@[simp] theorem routine_append (name : String) (loc : Loc) (header : Header)
    (inside rest other : Contents) :
    routine name loc header inside rest ++ other = routine name loc header inside (rest ++ other) :=
  rfl

@[simp] theorem append_nil (contents : Contents) : contents ++ nil = contents := by
  induction contents with
  | nil => rfl
  | plain name loc what rest ih => rw [plain_append, ih]
  | routine name loc header inside rest _ ih => rw [routine_append, ih]

theorem append_assoc (a b c : Contents) : a ++ b ++ c = a ++ (b ++ c) := by
  induction a with
  | nil => rfl
  | plain name loc what rest ih => simp only [plain_append, ih]
  | routine name loc header inside rest _ ih => simp only [routine_append, ih]

def names : Contents → List String
  | nil => []
  | plain name _ _ rest => name :: rest.names
  | routine name _ _ _ rest => name :: rest.names

/-- Every scope of the tree declares a name at most once; the outermost one already has the names
    `used`. -/
def Fresh (used : List String) : Contents → Prop
  | nil => True
  | plain name _ _ rest => name ∉ used ∧ rest.Fresh (used ++ [name])
  | routine name _ header inside rest =>
    name ∉ used ∧ header.names.Nodup ∧ inside.Fresh header.names ∧ rest.Fresh (used ++ [name])

def Complete : Contents → Prop
  | nil => True
  | plain _ _ _ rest => rest.Complete
  | routine _ _ header _ rest => header.Complete ∧ rest.Complete

theorem fresh_append (used : List String) (a b : Contents) :
    (a ++ b).Fresh used ↔ a.Fresh used ∧ b.Fresh (used ++ a.names) := by
  induction a generalizing used with
  | nil => simp [Fresh, names]
  | plain name loc what rest ih =>
    simp only [plain_append, Fresh, names, ih, List.append_assoc, List.singleton_append, and_assoc]
  | routine name loc header inside rest _ ih =>
    simp only [routine_append, Fresh, names, ih, List.append_assoc, List.singleton_append,
      and_assoc]

theorem complete_append (a b : Contents) : (a ++ b).Complete ↔ a.Complete ∧ b.Complete := by
  induction a with
  | nil => simp [Complete]
  | plain name loc what rest ih => simp only [plain_append, Complete, ih]
  | routine name loc header inside rest _ ih =>
    simp only [routine_append, Complete, ih, and_assoc]

end Contents

structure Root where
  name : String
  loc : Loc
  contents : Contents
deriving DecidableEq, Repr

end Kpl
