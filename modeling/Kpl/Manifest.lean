import Kpl.Compile
import Kpl.Files
import Kpl.Toml.Document

namespace Kpl

structure Manifest where
  path : Option String
  maxIdentLen : Option Nat
  maxDepth : Option Nat
deriving DecidableEq, Repr

inductive ManifestError where
  | unreadable (path : String)
  | malformed (path : String)
  | notPositive (path key : String)
deriving DecidableEq, Repr

namespace ManifestError

def message (e : ManifestError) : String :=
  "manifest error: " ++ match e with
    | unreadable path => "failed to read " ++ path
    | malformed path => "failed to parse " ++ path
    | notPositive path key => path ++ ": [compiler] " ++ key ++ " must be positive"

def code (_ : ManifestError) : String := "kpl::manifest"

end ManifestError

namespace Manifest

def fileName : String := "kpl.toml"

def empty : Manifest := ⟨none, none, none⟩

def apply (m : Manifest) (limits : Limits) : Limits :=
  ⟨m.maxIdentLen.getD limits.maxIdentLen, m.maxDepth.getD limits.maxDepth⟩

structure Settings where
  maxIdentLen : Option Nat
  maxDepth : Option Nat

def setting? : Toml.Value → Option Nat
  | .integer value => if 0 ≤ value then some value.toNat else none
  | _ => none

def once (present : Option Nat) (value : Toml.Value) : Option (Option Nat) :=
  match present with
  | none => (setting? value).map some
  | some _ => none

def Settings.add (s : Settings) : String × Toml.Value → Option Settings
  | (key, value) =>
    if key = "max_ident_len" ∨ key = "max-ident-len" then
      (once s.maxIdentLen value).map fun v => { s with maxIdentLen := v }
    else if key = "max_depth" ∨ key = "max-depth" then
      (once s.maxDepth value).map fun v => { s with maxDepth := v }
    else none

/-- A list gives the settings by position. -/
def Settings.ofList? : List Toml.Value → Option Settings
  | [] => some ⟨none, none⟩
  | [a] => (setting? a).map fun a => ⟨some a, none⟩
  | a :: b :: _ => do return ⟨some (← setting? a), some (← setting? b)⟩

def Settings.ofValue? : Toml.Value → Option Settings
  | .table _ entries => entries.foldlM add ⟨none, none⟩
  | .array items => ofList? items
  | _ => none

def Settings.ofDocument? : Toml.Entries → Option Settings
  | [] => some ⟨none, none⟩
  | [(key, value)] => if key = "compiler" then ofValue? value else none
  | _ => none

def parse (path text : String) : Except ManifestError Manifest :=
  match Toml.parse? text >>= Settings.ofDocument? with
  | none => .error (.malformed path)
  | some s =>
    if s.maxIdentLen = some 0 then .error (.notPositive path "max_ident_len")
    else if s.maxDepth = some 0 then .error (.notPositive path "max_depth")
    else .ok ⟨some path, s.maxIdentLen, s.maxDepth⟩

section

variable {m : Type → Type} [Monad m]

def load (files : Files m) (path : String) : m (Except ManifestError Manifest) := do
  match ← files.text path with
  | .ok text => return parse path text
  | .error _ => return .error (.unreadable path)

def find (files : Files m) (source : String) : m (Option String) := do
  let path := Path.sibling source fileName
  if ← files.isFile path then return some path else return none

/-- The manifest for a source file: the file that is asked for, else the one beside the
    source. -/
def resolve (files : Files m) (source : String) (config : Option String) :
    m (Except ManifestError Manifest) := do
  match config with
  | some path => load files path
  | none =>
    match ← find files source with
    | some path => load files path
    | none => return .ok empty

end

end Manifest

end Kpl
