import Kpl.Proofs.Frame.Closed
import Kpl.Proofs.Mirror.Same
import Kpl.Proofs.Termination.Declaring

namespace Kpl

namespace Analysis

variable {α β : Type}

namespace Mirror

/-- A run next to itself, with a property of the table that failures keep as well. -/
def keeping (kept : Table → Prop) : Mirror :=
  { same kept fun _ => False with
    failed := fun s t => s = t ∧ kept s.table
    failing := id }

section Keeping

variable {kept : Table → Prop}

theorem keeping_refl {A : α → α → Prop} (refl : ∀ a, A a a) {p : Analysis α}
    (keeps : ∀ s, kept s.table → kept (p s).2.table) : (keeping kept).Mirrors A p p := by
  intro s _ state
  obtain ⟨rfl, holds⟩ := state
  have after := keeps s holds
  cases run : p s with
  | mk r t =>
    rw [run] at after
    cases r with
    | ok a => exact .ok (refl a) ⟨rfl, after⟩
    | error e => exact .error rfl ⟨rfl, after⟩

theorem Mirrors.keeps {A : α → β → Prop} {p : Analysis α} {q : Analysis β}
    (h : (keeping kept).Mirrors A p q) {s : State} (holds : kept s.table) :
    kept (p s).2.table := by
  have both : (keeping kept).Agree A (p s) (q s) := h ⟨rfl, holds⟩
  generalize p s = r at both
  generalize q s = r' at both
  cases both with
  | ok _ state => exact state.2
  | error _ failed => exact failed.2
  | excused none => exact none.elim

theorem keeping_scan : (keeping kept).Mirrors Eq scan scan := by
  apply keeping_refl fun _ => rfl
  intro s holds
  rw [scan_apply]
  split
  · exact holds
  · exact holds

theorem keeping_reading : (keeping kept).Reading :=
  { @same_reading kept fun _ => False with
    scan := fun state _ => keeping_scan state
    left := fun h => ⟨h.1 ▸ rfl, h.2⟩
    meaning := by
      intro s t i j state both
      obtain ⟨rfl, _⟩ := state
      cases both
      exact rel_refl (Alike.refl fun _ => rfl) _ }

end Keeping

theorem closed_declare {object : Object} {s : State} (closed : s.table.Closed)
    (known : ∀ x, object.meaning.ownedScope? = some x → x.index < s.table.scopes.size) :
    (declare object s).2.table.Closed := by
  cases here : s.table.current with
  | none =>
    rw [declare_nowhere object here]
    exact closed
  | some scope =>
    rw [declare_apply object here]
    exact closed.declareIn scope known

theorem closed_declareRoutine {create : Table → Object × Table} {s : State}
    (closed : s.table.Closed)
    (owned : (create s.table).1.meaning.ownedScope? = some s.table.nextScope)
    (grown : (create s.table).2 = s.table.addScope ⟨none, s.table.current, []⟩) :
    (declareRoutine create s).2.table.Closed := by
  rw [declareRoutine, bind_of_ok (table_apply s)]
  dsimp only
  rw [bind_of_ok (modify_apply _ _)]
  apply closed_declare
  · dsimp only
    rw [grown]
    exact closed.addScope fun _ here => closed.current here
  · intro x owns
    obtain rfl := Option.some.inj (owned.symm.trans owns)
    dsimp only
    rw [grown, Table.addScope_scopes_size]
    exact Nat.lt_succ_self _

theorem closed_enterOwned {id : ObjectId} {s : State} (closed : s.table.Closed) :
    (enterOwned id s).2.table.Closed := by
  cases owned : s.table.meaning? id >>= (·.ownedScope?) with
  | none =>
    rw [enterOwned, bind_of_ok (table_apply s), owned]
    exact closed
  | some scope =>
    obtain ⟨m, meant, owns⟩ := Option.bind_eq_some_iff.mp owned
    obtain ⟨o, found, rfl⟩ := Option.map_eq_some_iff.mp meant
    rw [enterOwned_apply owned, enterScope_apply]
    refine closed.moved ?_
    rintro x ⟨⟩
    exact closed.owned found owns

theorem closed_exitScope {s : State} (closed : s.table.Closed) :
    (exitScope s).2.table.Closed := by
  cases here : s.table.current with
  | none =>
    rw [exitScope_nowhere here]
    exact closed
  | some scope =>
    rw [exitScope_apply here]
    exact closed.moved fun _ around => closed.outer_lt around

theorem keeping_declaring : (keeping Table.Closed).Declaring where
  toReading := keeping_reading
  fresh state both _ := by
    obtain ⟨rfl, _⟩ := state
    cases both
    rfl
  declare {a b x y} both _ entry := by
    cases both
    cases entry.eq fun _ _ same => same
    refine keeping_refl (fun _ => rfl) fun s closed => closed_declare closed ?_
    cases entry <;> nofun
  function both _ := by
    cases both
    exact keeping_refl (fun _ => rfl) fun _ closed => closed_declareRoutine closed rfl rfl
  procedure both _ := by
    cases both
    exact keeping_refl (fun _ => rfl) fun _ closed => closed_declareRoutine closed rfl rfl
  setReturns _ state both := by
    obtain ⟨rfl, closed⟩ := state
    cases both
    exact ⟨rfl, closed.setReturns _ _⟩
  enterOwned both := by
    cases both
    exact keeping_refl (fun _ => trivial) fun _ => closed_enterOwned
  exitScope := keeping_refl (fun _ => trivial) fun _ => closed_exitScope
  misuse _ := rfl

theorem keeping_program : (keeping Table.Closed).Mirrors Eq program program := by
  have h := keeping_declaring
  intro s t state
  refine h.programOver (keeping Table.Closed).failing (keeping Table.Closed).failing
    (fun state _ => keeping_scan state) (h.blockOf h.statement) h.toTokens ?_ state
  -- between the creation of a program and its scope the table is closed already
  intro a b s t both _ start
  obtain ⟨rfl, closed⟩ := start
  cases both
  exact ⟨rfl, h.enterOwned rfl ⟨rfl, closed.withProgram _ _⟩⟩

end Mirror

inductive Reader : {α : Type} → Analysis α → Prop where
  | statements : Reader statements
  | statement : Reader statement
  | assignment : Reader assignment
  | target : Reader target
  | call : Reader callStatement
  | group : Reader (groupOver statement)
  | branch : Reader (ifOver expression statement)
  | whileLoop : Reader (whileOver expression statement)
  | forLoop : Reader (forOver expression statement)
  | condition : Reader condition
  | expression : Reader expression
  | term : Reader (termOver (factorOver (namedValueOver expression) expression))
  | factor : Reader (factorOver (namedValueOver expression) expression)
  | namedValue : Reader (namedValueOver expression)
  | selectors (ty : Ty) : Reader (selectors ty)
  | arguments (routine : ObjectId) (loc : Loc) : Reader (arguments routine loc)
  | argument (mode : PassMode) (ty : Ty) : Reader (argumentOver expression mode ty)
  | reference : Reader reference
  | constant : Reader constant
  | unsignedConstant : Reader unsignedConstant
  | type : Reader type
  | basicType : Reader basicType

inductive Procedure : {α : Type} → Analysis α → Prop where
  | reader {α : Type} {p : Analysis α} : Reader p → Procedure p
  | constSection : Procedure constSection
  | typeSection : Procedure typeSection
  | varSection : Procedure varSection
  | param : Procedure param
  | params : Procedure params
  | functionDeclaration : Procedure functionDeclaration
  | procedureDeclaration : Procedure procedureDeclaration
  | block : Procedure block
  | program : Procedure program

theorem Reader.mirrors {p : Analysis α} (reader : Reader p) (kept : Table → Prop) :
    ∃ A, (Mirror.keeping kept).Mirrors A p p := by
  have h := @Mirror.keeping_reading kept
  cases reader with
  | statements => exact ⟨_, h.statementsOver h.statement⟩
  | statement => exact ⟨_, h.statement⟩
  | assignment => exact ⟨_, h.assignment⟩
  | target => exact ⟨_, h.targetOver h.expression⟩
  | call => exact ⟨_, h.callStatementOver h.expression⟩
  | group => exact ⟨_, h.groupOver h.statement⟩
  | branch => exact ⟨_, h.ifOver h.expression h.statement⟩
  | whileLoop => exact ⟨_, h.whileOver h.expression h.statement⟩
  | forLoop => exact ⟨_, h.forOver h.expression h.statement⟩
  | condition => exact ⟨_, h.conditionOver h.expression⟩
  | expression => exact ⟨_, h.expression⟩
  | term => exact ⟨_, h.termOver (h.factorOver h.expression (h.namedValueOver h.expression))⟩
  | factor => exact ⟨_, h.factorOver h.expression (h.namedValueOver h.expression)⟩
  | namedValue => exact ⟨_, h.namedValueOver h.expression⟩
  | selectors ty => exact ⟨_, h.selectorsOver h.expression ty⟩
  | arguments routine loc => exact ⟨_, h.argumentsOver h.expression rfl rfl⟩
  | argument mode ty => exact ⟨_, h.argumentOver h.expression mode ty⟩
  | reference => exact ⟨_, h.referenceOver h.expression⟩
  | constant => exact ⟨_, h.constant⟩
  | unsignedConstant => exact ⟨_, h.unsignedConstant⟩
  | type => exact ⟨_, h.type⟩
  | basicType => exact ⟨_, h.basicType⟩

theorem Reader.table_eq {p : Analysis α} (reader : Reader p) (s : State) :
    (p s).2.table = s.table := by
  obtain ⟨A, both⟩ := reader.mirrors (· = s.table)
  exact both.keeps rfl

theorem Procedure.closed {p : Analysis α} (procedure : Procedure p) {s : State}
    (closed : s.table.Closed) : (p s).2.table.Closed := by
  have h := Mirror.keeping_declaring
  have blocks := h.blockOf h.statement
  cases procedure with
  | reader reader =>
    rw [reader.table_eq]
    exact closed
  | constSection => exact h.constSection.keeps closed
  | typeSection => exact h.typeSection.keeps closed
  | varSection => exact h.varSection.keeps closed
  | param => exact h.param.keeps closed
  | params => exact h.params.keeps closed
  | functionDeclaration => exact (h.functionOver blocks).keeps closed
  | procedureDeclaration => exact (h.procedureOver blocks).keeps closed
  | block => exact blocks.keeps closed
  | program => exact Mirror.keeping_program.keeps closed

theorem Progress.onward {m : Nat} {s : State} {r : Except CompileError α × State}
    (h : Progress s m r) : s.Onward r.2 := by
  cases h with
  | ok onward => exact onward
  | error onward => exact onward

theorem Coincide.onward {m : Nat} {p : Analysis α} (h : ∀ n l, Coincide n l anyKind m p p)
    (s : State) : s.Onward (p s).2 :=
  (progress h trivial).onward

theorem Reader.onward {p : Analysis α} (reader : Reader p) (s : State) : s.Onward (p s).2 := by
  have value (n l : Nat) := Coincide.expression (n := n) (l := l)
  have inner (n l : Nat) := Coincide.statement (n := n) (l := l)
  have named (n l : Nat) : Coincide n l anyKind 1 (namedValueOver Analysis.expression)
      (namedValueOver Analysis.expression) := .namedValueOver (value n l)
  cases reader with
  | statements => exact Coincide.onward (fun n l => .statementsOver (inner n l)) s
  | statement => exact Coincide.onward inner s
  | assignment => exact Coincide.onward (fun _ _ => .assignment) s
  | target => exact Coincide.onward (fun n l => .targetOver (value n l)) s
  | call => exact Coincide.onward (fun n l => .callStatementOver (value n l)) s
  | group => exact Coincide.onward (fun n l => .groupOver (inner n l)) s
  | branch => exact Coincide.onward (fun n l => .ifOver (value n l) (inner n l)) s
  | whileLoop => exact Coincide.onward (fun n l => .whileOver (value n l) (inner n l)) s
  | forLoop => exact Coincide.onward (fun n l => .forOver (value n l) (inner n l)) s
  | condition => exact Coincide.onward (fun n l => .conditionOver (value n l)) s
  | expression => exact Coincide.onward value s
  | term => exact Coincide.onward (fun n l => .termOver (.factorOver (value n l) (named n l))) s
  | factor => exact Coincide.onward (fun n l => .factorOver (value n l) (named n l)) s
  | namedValue => exact Coincide.onward named s
  | selectors ty => exact Coincide.onward (fun n l => .selectorsOver (value n l) ty) s
  | arguments routine loc =>
    exact Coincide.onward (fun n l => .argumentsOver (value n l) routine loc) s
  | argument mode ty => exact Coincide.onward (fun n l => .argumentOver (value n l) mode ty) s
  | reference => exact Coincide.onward (fun n l => .referenceOver (value n l)) s
  | constant => exact Coincide.onward (fun _ _ => .constant) s
  | unsignedConstant => exact Coincide.onward (fun _ _ => .unsignedConstant) s
  | type => exact Coincide.onward (fun _ _ => .type) s
  | basicType => exact Coincide.onward (fun _ _ => .basicType) s

theorem Procedure.onward {p : Analysis α} (procedure : Procedure p) (s : State) :
    s.Onward (p s).2 := by
  have blocks (n l : Nat) := Coincide.block (n := n) (l := l)
  cases procedure with
  | reader reader => exact reader.onward s
  | constSection => exact Coincide.onward (fun _ _ => .constSection) s
  | typeSection => exact Coincide.onward (fun _ _ => .typeSection) s
  | varSection => exact Coincide.onward (fun _ _ => .varSection) s
  | param => exact Coincide.onward (fun _ _ => .param) s
  | params => exact Coincide.onward (fun _ _ => .params) s
  | functionDeclaration => exact Coincide.onward (fun n l => (Coincide.functionOver (blocks n l)).below) s
  | procedureDeclaration => exact Coincide.onward (fun n l => (Coincide.procedureOver (blocks n l)).below) s
  | block => exact Coincide.onward blocks s
  | program => exact Coincide.onward (fun n l => .programOver (blocks n l)) s

end Analysis

end Kpl
