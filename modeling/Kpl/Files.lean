import Kpl.Path

namespace Kpl

inductive ReadError where
  | system (description : String) (code : Nat)
  | notText
deriving DecidableEq, Repr

namespace ReadError

def notFound : ReadError := system "No such file or directory" 2

def notDirectory : ReadError := system "Not a directory" 20

def isDirectory : ReadError := system "Is a directory" 21

def nameTooLong : ReadError := system "File name too long" 36

def message : ReadError → String
  | system description code => description ++ " (os error " ++ toString code ++ ")"
  | notText => "stream did not contain valid UTF-8"

end ReadError

structure Files (m : Type → Type) where
  isFile : String → m Bool
  bytes : String → m (Except ReadError ByteArray)

def Files.text [Monad m] (files : Files m) (path : String) : m (Except ReadError String) := do
  match ← files.bytes path with
  | .error e => return .error e
  | .ok bytes =>
    match String.fromUTF8? bytes with
    | some text => return .ok text
    | none => return .error .notText

/-- Files and directories below a working directory. Each has its steps from there; a directory
    has no content. The directories on the way to an entry exist too. -/
structure FileTree where
  entries : List (List (List Char) × Option ByteArray)

namespace FileTree

inductive Node where
  | file (bytes : ByteArray)
  | directory

def ofEntries (entries : List (String × Option ByteArray)) : FileTree :=
  ⟨entries.map fun (path, content) => ((Path.steps path.toList).filter Path.leads, content)⟩

def node? (t : FileTree) (place : List (List Char)) : Option Node :=
  match t.entries.lookup place with
  | some (some bytes) => some (.file bytes)
  | some none => some .directory
  | none =>
    if place = [] ∨ t.entries.any (fun (steps, _) => place.isPrefixOf steps) then some .directory
    else none

def maxName : Nat := 255

/-- Where a walk stands: in the tree, or so many directories above it, where nothing is known to
    exist. -/
inductive Place where
  | inside (steps : List (List Char))
  | above (levels : Nat)

def Place.step (step : List Char) : Place → Except ReadError Place
  | place =>
    if !Path.leads step then .ok place
    else if maxName < (String.ofList step).utf8ByteSize then .error .nameTooLong
    else match place with
      | .inside steps =>
        if step = ['.', '.'] then
          .ok (if steps = [] then .above 1 else .inside steps.dropLast)
        else .ok (.inside (steps ++ [step]))
      | .above levels => if step = ['.', '.'] then .ok (.above (levels + 1)) else .error .notFound

def nodeAt (t : FileTree) : Place → Except ReadError Node
  | .inside steps =>
    match t.node? steps with
    | some node => .ok node
    | none => .error .notFound
  | .above _ => .ok .directory

/-- Follows the steps of a path. Every step, an idle one too, needs a directory to start from. -/
def walk (t : FileTree) (place : Place) : List (List Char) → Except ReadError Node
  | [] => t.nodeAt place
  | step :: steps => do
    match ← t.nodeAt place with
    | .file _ => .error .notDirectory
    | .directory => t.walk (← place.step step) steps

def find (t : FileTree) (path : String) : Except ReadError Node :=
  match Path.steps path.toList with
  | [] :: _ => .error .notFound
  | steps => t.walk (.inside []) steps

def files (t : FileTree) : Files Id where
  isFile path :=
    match t.find path with
    | .ok (.file _) => true
    | _ => false
  bytes path :=
    match t.find path with
    | .ok (.file bytes) => .ok bytes
    | .ok .directory => .error .isDirectory
    | .error e => .error e

end FileTree

end Kpl
