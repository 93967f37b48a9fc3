import Kpl.Analysis.Declaration

namespace Kpl

namespace Analysis

def runPrograms : (runs : Nat) → State → List (Except CompileError ObjectId) × State
  | 0, s => ([], s)
  | runs + 1, s =>
    let (outcome, s) := program s
    let (outcomes, s) := runPrograms runs s
    (outcome :: outcomes, s)

/-- One part of a session: a new analysis of a stream, run `runs` times on the given table. If
    the analysis cannot start, that is the only outcome, and the table stays as it is. -/
def session (input : TokenStream) (maxDepth runs : Nat) (table : Table) :
    List (Except CompileError ObjectId) × Table :=
  match start input table maxDepth with
  | .error e => ([.error e], table)
  | .ok s =>
    let (outcomes, s) := runPrograms runs s
    (outcomes, s.table)

end Analysis

end Kpl
