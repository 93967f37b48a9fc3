import Kpl.Toml.Scalar

namespace Kpl

namespace Toml

open Reader

def isBareKeyChar (c : Char) : Bool := c.isAlphanum || c = '_' || c = '-'

def keyStep : Reader String := do
  let text ← lineString <|> do
    let first ← satisfy isBareKeyChar
    return first :: (← takeWhile isBareKeyChar)
  return .ofList text

/-- How deep a document may go: the levels of arrays and inline tables inside each other, and the
    steps of a key. -/
def maxLevels : Nat := 79

/-- A key with its dots. It comes apart into the steps before the last one, and the last. -/
def key : Reader (List String × String) := do
  let steps ← separated (char '.') (do white; let step ← keyStep; white; return step)
  if maxLevels < steps.length then failure
  match steps.getLast? with
  | some last => return (steps.dropLast, last)
  | none => failure

def gap : Reader Unit := do
  let _ ← many ((do let _ ← satisfy isWhite) <|> newline <|> comment)

/-- `[value, value]` over any number of lines; a comma may follow the last value. -/
def arrayOver (value : Reader Value) : Reader Value := do
  char '['
  let items ← option (separated (char ',') (do gap; let v ← value; gap; return v))
  if items.isSome then let _ ← option (char ',')
  gap
  char ']'
  return .array (items.getD [])

def pairOver (value : Reader Value) : Reader ((List String × String) × Value) := do
  let key ← key
  char '='
  white
  return (key, ← value)

/-- `{ key = value, key = value }` on one line, which closes the table. -/
def inlineTableOver (value : Reader Value) : Reader Value := do
  char '{'
  white
  let pairs ← option (separated (char ',') (do let p ← pairOver value; white; return p))
  white
  char '}'
  let add (entries : Entries) : (List String × String) × Value → Option Entries
    | ((path, key), value) => entries.setDotted key value path
  let entries ← ((pairs.getD []).foldlM add [] : Option Entries)
  return .table .inline entries

def valueAt : Nat → Reader Value
  | 0 => scalar
  | levels + 1 => arrayOver (valueAt levels) <|> inlineTableOver (valueAt levels) <|> scalar

def value : Reader Value := valueAt maxLevels

inductive Line where
  | blank
  | pair (path : List String) (key : String) (value : Value)
  | header (path : List String) (key : String)
  | element (path : List String) (key : String)

def elementHeader : Reader Line := do
  word "[["
  let (path, key) ← key
  word "]]"
  return .element path key

def header : Reader Line := do
  char '['
  let (path, key) ← key
  char ']'
  return .header path key

def pair : Reader Line := do
  let ((path, key), value) ← pairOver value
  return .pair path key value

def line : Reader Line := do
  white
  let content ← elementHeader <|> header <|> pair <|> pure .blank
  white
  let _ ← option comment
  return content

structure Draft where
  root : Entries
  path : List String

def Draft.add (d : Draft) : Line → Option Draft
  | .blank => some d
  | .pair path key value =>
    (d.root.below (·.setDotted key value path) d.path).map fun root => { d with root }
  | .header path key =>
    (d.root.openTable path key).map fun root => ⟨root, path ++ [key]⟩
  | .element path key =>
    (d.root.openElement path key).map fun root => ⟨root, path ++ [key]⟩

/-- All lines of a document, which may open with a byte order mark. -/
def lines : Reader (List Line) := do
  let _ ← option (char '\ufeff')
  let lines ← separated newline line
  finish
  return lines

def parse? (text : String) : Option Entries := do
  let (lines, _) ← lines text.toList
  let draft ← lines.foldlM Draft.add ⟨[], []⟩
  return draft.root

end Toml

end Kpl
