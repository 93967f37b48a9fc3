import Kpl.Table.Resolve
import Kpl.Token.Basic

/-!
The single pass that reads a program and checks it. An analysis sees the stream through one token
of lookahead, writes declarations into the symbol table, and stops at the first error; its state
survives the error. This module holds the state, the steps that consume tokens, and the three ways
in which analyses repeat themselves: loops, recursion on shorter input, and bounded nesting.
-/

namespace Kpl

inductive Event where
  | pulled (item : Item)
  | entered (scope : ScopeId) (owner : Option String)
  | exited (scope : ScopeId) (owner : Option String)
  | declared (name className : String) (scope : ScopeId)

/-- The state of an analysis. Pulled tokens go through `lookahead`; `journal` lists the events so
    far, the latest first. -/
structure Analysis.State where
  lookahead : Token
  input : TokenStream
  table : Table
  maxDepth : Nat
  depth : Nat
  journal : List Event

abbrev Analysis := ExceptT CompileError (StateM Analysis.State)

namespace Analysis

def State.remaining (s : State) : Nat :=
  s.input.items.length + if s.lookahead.kind = .eof then 0 else 1

/-- The state before an analysis of a stream. Its first token is already pulled, so a lexical
    error at the front shows at once. -/
def start (input : TokenStream) (table : Table) (maxDepth : Nat) : Except CompileError State :=
  match input.next with
  | (.ok t, rest) => .ok ⟨t, rest, table, maxDepth, 0, [.pulled (.ok t)]⟩
  | (.error e, _) => .error (.lexical e)

def grammarError (cause : GrammarError.Cause) (loc : Loc) : CompileError := .grammar ⟨cause, loc⟩

def semanticError (cause : SemanticError.Cause) (loc : Loc) : CompileError :=
  .semantic ⟨cause, none, loc⟩

def namedError (cause : SemanticError.Cause) (t : Token) : CompileError :=
  .semantic ⟨cause, some t.lexeme, t.loc⟩

def failGrammar (cause : GrammarError.Cause) : Analysis α := do
  throw (grammarError cause (← get).lookahead.loc)

def failSemantic (cause : SemanticError.Cause) : Analysis α := do
  throw (semanticError cause (← get).lookahead.loc)

def failMissing (expected : Kind) : Analysis α := do
  failGrammar (.missingToken expected (← get).lookahead.kind)

def check : Except SemanticError α → Analysis α
  | .ok a => pure a
  | .error e => throw (.semantic e)

def onTable : Except ScopeMisuse α → Analysis α
  | .ok a => pure a
  | .error e => throw (.internal e)

def peek : Analysis Kind := return (← get).lookahead.kind

def here : Analysis Loc := return (← get).lookahead.loc

def table : Analysis Table := return (← get).table

def note (event : Event) : Analysis Unit :=
  modify fun s => { s with journal := event :: s.journal }

/-- Consumes the lookahead. The token behind it is pulled first, so an error there wins and leaves
    the lookahead in place. -/
def scan : Analysis Token := do
  let s ← get
  let (item, input) := s.input.next
  set { s with input, journal := .pulled item :: s.journal }
  match item with
  | .ok t =>
    modify fun s => { s with lookahead := t }
    return s.lookahead
  | .error e => throw (.lexical e)

def eat (kind : Kind) : Analysis Token := do
  if (← peek) = kind then scan else failMissing kind

/-- Runs an analysis whose result must have type `ty`; the first token of its input is to blame
    if it has not. -/
def expecting (ty : Ty) (p : Analysis Ty) : Analysis Unit := do
  let loc ← here
  let found ← p
  check (ty.requireSame found loc)

/-- Repeats `step` while the lookahead is of a certain kind. A step that consumes nothing ends
    the loop. -/
def repeatWhile (more : Kind → Bool) (b : β) (step : β → Analysis β) : Analysis β := fun s =>
  if more s.lookahead.kind then
    match step b s with
    | (.ok c, t) => if t.remaining < s.remaining then repeatWhile more c step t else (.ok c, t)
    | (.error e, t) => (.error e, t)
  else (.ok b, s)
  termination_by s => s.remaining

theorem repeatWhile_apply (more : Kind → Bool) (b : β) (step : β → Analysis β) (s : State) :
    repeatWhile more b step s =
      if more s.lookahead.kind then
        match step b s with
        | (.ok c, t) => if t.remaining < s.remaining then repeatWhile more c step t else (.ok c, t)
        | (.error e, t) => (.error e, t)
      else (.ok b, s) := by
  rw [repeatWhile]
  rfl

/-- Ties the recursive knot of `body`, which may call itself once it has consumed input. A call
    before that ends in `stalled`. -/
def recursively (stalled : Analysis α) (body : Analysis α → Analysis α) : Analysis α := fun s =>
  body (fun t => if t.remaining < s.remaining then recursively stalled body t else stalled t) s
  termination_by s => s.remaining

theorem recursively_apply (stalled : Analysis α) (body : Analysis α → Analysis α) (s : State) :
    recursively stalled body s =
      body (fun t => if t.remaining < s.remaining then recursively stalled body t else stalled t)
        s := by
  rw [recursively]

def tooDeep : Analysis α := do
  failGrammar (.nestingTooDeep (← get).maxDepth)

/-- Runs an analysis one level deeper, unless that is too deep. The depth is restored also when
    the analysis fails. -/
def nested (p : Analysis α) : Analysis α := fun s =>
  if s.depth < s.maxDepth then
    let (result, t) := p { s with depth := s.depth + 1 }
    (result, { t with depth := t.depth - 1 })
  else tooDeep s

def nestedAt (body : Analysis α → Analysis α) : Nat → Analysis α
  | 0 => tooDeep
  | levels + 1 => nested (body (nestedAt body levels))

def nesting (body : Analysis α → Analysis α) : Analysis α := fun s =>
  nestedAt body (s.maxDepth - s.depth) s

def enterScope (scope : ScopeId) : Analysis Unit := do
  note (.entered scope ((← table).ownerName? scope))
  modify fun s => { s with table := s.table.enter scope }

def exitScope : Analysis Unit := do
  let t ← table
  let left ← onTable t.exit
  if let some scope := t.current then note (.exited scope (t.ownerName? scope))
  modify fun s => { s with table := left }

def declare (object : Object) : Analysis ObjectId := do
  let t ← table
  let (id, grown) ← onTable (t.declare object)
  if let some scope := t.current then
    note (.declared object.name object.meaning.className scope)
  modify fun s => { s with table := grown }
  return id

def enterOwned (id : ObjectId) : Analysis Unit := do
  match (← table).meaning? id >>= (·.ownedScope?) with
  | some scope => enterScope scope
  | none => throw (.internal .noEnclosingRoutine)

end Analysis

end Kpl
