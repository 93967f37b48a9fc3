import Kpl.Table.Basic

namespace Kpl

namespace Table

/-- The objects from `id` down, in order, each with its depth below the start. `levels` bounds
    how far down the walk goes. -/
def walk (t : Table) : (levels depth : Nat) → ObjectId → List (Nat × ObjectId)
  | 0, _, _ => []
  | levels + 1, depth, id =>
    match t.meaning? id >>= (·.ownedScope?) with
    | some scope => (depth, id) :: (t.objectsIn scope).flatMap (t.walk levels (depth + 1))
    | none => [(depth, id)]

/-- An object and everything below it. On the way down every scope is a new one, so their number
    bounds the depth. -/
def outline (t : Table) (id : ObjectId) : List (Nat × ObjectId) :=
  t.walk (t.scopes.size + 1) 0 id

def preorder (t : Table) (id : ObjectId) : List ObjectId := (t.outline id).map (·.2)

end Table

def Object.listing (o : Object) : String :=
  o.meaning.className ++ " " ++ match o.meaning with
    | .program _ | .procedure .. => o.name
    | .const value => o.name ++ " = " ++ value.text
    | .type actual => o.name ++ " = " ++ actual.text
    | .var ty => o.name ++ " : " ++ ty.text
    | .function _ (some ty) _ => o.name ++ " : " ++ ty.text
    | .function _ none _ => o.name
    | .param .value ty _ => o.name ++ " : " ++ ty.text
    | .param .reference ty _ => "VAR " ++ o.name ++ " : " ++ ty.text

namespace Table

def indentStep : Nat := 4

def blanks (n : Nat) : String := .ofList (.replicate n ' ')

def renderObject (t : Table) (id : ObjectId) (indent : Nat) : String :=
  .join <| (t.outline id).map fun (depth, id) =>
    match t.object? id with
    | some o => blanks (indent + indentStep * depth) ++ o.listing ++ "\n"
    | none => ""

def render (t : Table) : String :=
  match t.program with
  | some id => t.renderObject id 0
  | none => ""

end Table

end Kpl
