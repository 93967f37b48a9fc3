namespace Kpl

namespace Path

/-- The steps between the slashes of a path, empty ones included. -/
def steps (path : List Char) : List (List Char) :=
  path.foldr
    (fun c steps =>
      match c, steps with
      | '/', steps => [] :: steps
      | c, step :: steps => (c :: step) :: steps
      | c, [] => [[c]])
    [[]]

def leads (step : List Char) : Bool := step ≠ [] ∧ step ≠ ['.']

/-- Steps that lead nowhere are dropped from the end; `steps` is reversed. -/
def dropIdle (steps : List (List Char)) : List (List Char) := steps.dropWhile fun s => !leads s

def joinSteps (steps : List (List Char)) : List Char := ['/'].intercalate steps

/-- The directory part of a path, without a slash at its end unless it is the root; empty when
    the path has only one step. -/
def directory (path : List Char) : List Char :=
  match steps path with
  | [] :: body@(_ :: _) =>
    match dropIdle body.reverse with
    | [] => []
    | _ :: above => '/' :: joinSteps (dropIdle above).reverse
  | ['.'] :: body =>
    match dropIdle body.reverse with
    | [] => []
    | _ :: above => joinSteps (['.'] :: (dropIdle above).reverse)
  | body => joinSteps (dropIdle (dropIdle body.reverse).tail).reverse

/-- The file `name` beside the file `path`; a path without a directory part is in `.`. -/
def sibling (path name : String) : String :=
  match directory path.toList with
  | [] => "./" ++ name
  | ['/'] => "/" ++ name
  | dir => .ofList dir ++ "/" ++ name

def shown (path : String) : String := path.map fun c => if c = '\\' then '/' else c

end Path

end Kpl
