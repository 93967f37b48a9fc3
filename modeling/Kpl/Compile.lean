import Kpl.Analysis.Declaration
import Kpl.Table.Outline
import Kpl.Token.Lexer

namespace Kpl

/-- The bounds of a compilation: the longest name, and the deepest nesting of statements and
    expressions. -/
structure Limits where
  maxIdentLen : Nat
  maxDepth : Nat
deriving DecidableEq, Repr

def Limits.standard : Limits := ⟨15, 64⟩

structure Compiled where
  table : Table
  program : ObjectId

namespace Compiled

def name (c : Compiled) : String := (c.table.name? c.program).getD ""

def topLevel (c : Compiled) : List ObjectId :=
  match c.table.meaning? c.program >>= (·.ownedScope?) with
  | some scope => c.table.objectsIn scope
  | none => []

def render (c : Compiled) : String := c.table.render

end Compiled

/-- Compiles what a stream yields, and tells what happened on the way, first things first. -/
def compileJournal (input : TokenStream) (maxDepth : Nat) :
    Except CompileError Compiled × List Event :=
  match Analysis.start input .initial maxDepth with
  | .error e => (.error e, [.pulled input.next.1])
  | .ok s =>
    let (result, t) := Analysis.program s
    (result.map fun id => ⟨t.table, id⟩, t.journal.reverse)

def compileTokens (input : TokenStream) (maxDepth : Nat) : Except CompileError Compiled :=
  (compileJournal input maxDepth).1

def compile (limits : Limits) (source : String) : Except CompileError Compiled :=
  compileTokens (.ofSource limits.maxIdentLen source) limits.maxDepth

end Kpl
