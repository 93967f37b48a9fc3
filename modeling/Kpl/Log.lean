import Kpl.Compile
import Kpl.Manifest
import Kpl.Text.Quoted

namespace Kpl

namespace Log

inductive Level where
  | info
  | debug
  | trace
deriving DecidableEq, Repr

namespace Level

def name : Level → String
  | info => "INFO"
  | debug => "DEBUG"
  | trace => "TRACE"

def verbosity : Level → Nat
  | info => 1
  | debug => 2
  | trace => 3

end Level

structure Line where
  level : Level
  text : String
deriving DecidableEq, Repr

def Line.render (line : Line) : String := line.level.name ++ " " ++ line.text

def shown (verbosity : Nat) (lines : List Line) : List String :=
  (lines.filter fun line => line.level.verbosity ≤ verbosity).map Line.render

def configuration (limits : Limits) (manifest : Option String) : Line :=
  ⟨.debug, "compiler configuration cfg=CompileConfig \x7b max_ident_len: " ++
    toString limits.maxIdentLen ++ ", max_depth: " ++ toString limits.maxDepth ++
    " \x7d manifest=" ++ Text.optional manifest⟩

def token (t : Token) : Line :=
  ⟨.trace, "token kind=" ++ Text.quoted t.kind.tag ++ " lexeme=" ++ t.lexeme ++
    " line=" ++ toString t.loc.line ++ " column=" ++ toString t.loc.column⟩

def item : Item → Option Line
  | .ok t => some (token t)
  | .error _ => none

def scopeChange (verb : String) (scope : ScopeId) (owner : Option String) : Line :=
  ⟨.debug, verb ++ " scope scope=" ++ toString scope.index ++ " owner=" ++ Text.optional owner⟩

def event : Event → Option Line
  | .pulled i => item i
  | .entered scope owner => some (scopeChange "enter" scope owner)
  | .exited scope owner => some (scopeChange "exit" scope owner)
  | .declared name className scope =>
    some ⟨.debug, "declare name=" ++ name ++ " class=" ++ className ++
      " scope=" ++ toString scope.index⟩

def outcome : Except CompileError Compiled → Line
  | .ok c => ⟨.info, "compilation succeeded program=" ++ c.name⟩
  | .error e => ⟨.info, "compilation failed error=" ++ e.message⟩

end Log

end Kpl
