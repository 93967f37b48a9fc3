import Kpl.Compile
import Kpl.Proofs.Mirror.Declaring
import Kpl.Proofs.Mirror.Pairing

namespace Kpl

open Analysis

theorem compileTokens_of_token {S : TokenStream} {t : Token} (found : S.item 0 = .ok t)
    (maxDepth : Nat) :
    compileTokens S maxDepth =
      (program (.first t (S.behind 1) .initial maxDepth)).1.map fun id =>
        ⟨(program (.first t (S.behind 1) .initial maxDepth)).2.table, id⟩ := by
  rw [compileTokens, compileJournal, start_of_token found]
  rfl

theorem compileTokens_of_error {S : TokenStream} {e : LexicalError} (found : S.item 0 = .error e)
    (maxDepth : Nat) : compileTokens S maxDepth = .error (.lexical e) := by
  rw [compileTokens, compileJournal, start_of_error found]

namespace Pairing

variable (p : Pairing)

inductive Errors : CompileError → CompileError → Prop where
  | lexical {k : Nat} {e f : LexicalError} : p.first.Clear k → p.first.item k = .error e →
    p.second.item k = .error f → Errors (.lexical e) (.lexical f)
  | grammar (cause : GrammarError.Cause) {l l' : Loc} : p.Places l l' →
    Errors (grammarError cause l) (grammarError cause l')
  | semantic (cause : SemanticError.Cause) {l l' : Loc} : p.Places l l' →
    Errors (semanticError cause l) (semanticError cause l')
  | named (cause : SemanticError.Cause) {a b : Token} : p.Tokens a b →
    Errors (namedError cause a) (namedError cause b)
  | internal (e : ScopeMisuse) : Errors (.internal e) (.internal e)

structure States (tables : Table → Table → Prop) (s t : State) : Prop where
  place : ∃ k, p.first.At k s.lookahead s.input ∧ p.second.At k t.lookahead t.input
  maxDepth : s.maxDepth = t.maxDepth
  depth : s.depth = t.depth
  table : tables s.table t.table

/-- States behind programs; it does not matter any more where they stand. -/
structure Ends (s t : State) : Prop where
  table : p.Tables s.table t.table
  read : p.first.Complete

/-- What belongs together in two runs over the pair, as long as the tables are related so. -/
def mirror (tables : Table → Table → Prop) : Mirror where
  state := p.States tables
  failed _ _ := True
  token := p.Tokens
  loc := p.Places
  object := p.Objects
  owner := p.User
  error := p.Errors
  excused _ := False
  failing _ := trivial
  owned := .inl

variable {p}

namespace Tokens

variable {a b : Token} (h : p.Tokens a b)

include h

theorem like : Item.Like p.rename (.ok a) (.ok b) := by
  obtain ⟨k, _, found, found'⟩ := h
  exact found ▸ found' ▸ p.items k

theorem kind : a.kind = b.kind := by
  cases h.like
  assumption

theorem value : a.value = b.value := by
  cases h.like
  assumption

theorem name (ident : a.kind = .ident) : b.lexeme = p.rename a.lexeme := by
  cases h.like with
  | token _ _ name _ => exact name ident

theorem char : a.char? = b.char? := by
  unfold Token.char?
  cases h.like with
  | token kind _ _ char =>
    rw [← kind]
    split
    · rw [char ‹_›]
    · rfl

theorem place : p.Places a.loc b.loc := ⟨a, b, h, rfl, rfl⟩

end Tokens

theorem token_of_at {k : Nat} {a b : Token} {S T : TokenStream} (here : p.first.At k a S)
    (here' : p.second.At k b T) : p.Tokens a b :=
  ⟨k, here.inside, here.lookahead, here'.lookahead⟩

theorem scan_agree {tables : Table → Table → Prop} {related : State → State → Prop} {s t : State}
    (state : p.States tables s t)
    (next : ∀ {k : Nat} {a b : Token}, p.first.At k s.lookahead s.input →
      p.second.At k t.lookahead t.input → p.first.item (k + 1) = .ok a →
      p.second.item (k + 1) = .ok b →
      related { s.pulled with lookahead := a } { t.pulled with lookahead := b }) :
    ((p.mirror tables).withState related fun _ => trivial).Agree p.Tokens (scan s) (scan t) := by
  obtain ⟨k, here, here'⟩ := state.place
  have both := p.items (k + 1)
  generalize found : p.first.item (k + 1) = x at both
  generalize found' : p.second.item (k + 1) = y at both
  cases both with
  | error _ =>
    rw [scan_at_error here found, scan_at_error here' found']
    exact .error (.lexical (here.inside.clear.succ here.lookahead) found found') trivial
  | token =>
    rw [scan_at here found, scan_at here' found']
    exact .ok (token_of_at here here') (next here here' found found')

theorem tokens (tables : Table → Table → Prop) : (p.mirror tables).Tokens where
  lookahead state := by
    obtain ⟨k, here, here'⟩ := state.place
    exact token_of_at here here'
  remaining state state' := by
    obtain ⟨_, here, here'⟩ := state.place
    obtain ⟨_, there, there'⟩ := state'.place
    exact (remaining_lt here there).trans (remaining_lt here' there').symm
  scan state real := scan_agree state fun here here' found found' =>
    ⟨⟨_, at_pulled here real found,
      at_pulled here' ((token_of_at here here').kind ▸ real) found'⟩,
      state.maxDepth, state.depth, state.table⟩
  kind := Tokens.kind
  value := Tokens.value
  char := Tokens.char
  place := Tokens.place
  grammar cause place := .grammar cause place
  semantic cause place := .semantic cause place
  named cause token := .named cause token
  depth state := state.depth
  bound := .inl fun _ _ state => state.maxDepth
  leveled _ state := ⟨state.place, state.maxDepth, rfl, state.table⟩
  left _ := trivial

theorem alike_of_meanings {x y : Meaning} (h : p.Meanings x y) :
    (p.mirror p.Tables).Alike x y := by
  have users {ids ids' : List ObjectId} (both : List.Forall₂ p.User ids ids') :
      List.Forall₂ p.Objects ids ids' := both.imp fun _ _ => .inl
  cases h with
  | program => exact .program _ _
  | const value => exact .const value
  | type actual => exact .type actual
  | var ty => exact .var ty
  | function returns params => exact .function returns _ _ (users params)
  | procedure params => exact .procedure _ _ (users params)
  | param mode ty routine => exact .param mode ty (.inl routine)

theorem alike_of_builtin {id : ObjectId} {x : Meaning}
    (found : Table.initial.meaning? id = some x) : (p.mirror p.Tables).Alike x x := by
  have old (i : Nat) (known : i < Table.initial.objects.size) : p.Objects ⟨i⟩ ⟨i⟩ :=
    .inr ⟨rfl, known⟩
  have known := Table.initial_object_lt found
  obtain ⟨i⟩ := id
  match i, known with
  | 0, _ | 1, _ =>
    cases found
    exact .function _ _ _ .nil
  | 2, _ =>
    cases found
    exact .procedure _ _ (.cons (old 3 (by decide)) .nil)
  | 3, _ =>
    cases found
    exact .param _ _ (old 2 (by decide))
  | 4, _ =>
    cases found
    exact .procedure _ _ (.cons (old 5 (by decide)) .nil)
  | 5, _ =>
    cases found
    exact .param _ _ (old 4 (by decide))
  | 6, _ =>
    cases found
    exact .procedure _ _ .nil

theorem reading : (p.mirror p.Tables).Reading where
  toTokens := tokens p.Tables
  lookup state token ident := token.name ident ▸ state.table.lookup _
  meaning {s t i j} state both := by
    rcases both with user | ⟨rfl, old⟩
    · exact rel_map (state.table.object user) fun _ _ entry => alike_of_meanings entry.meaning
    · have same : s.table.meaning? i = Table.initial.meaning? i :=
        congrArg _ (state.table.base.object old)
      have same' : t.table.meaning? i = Table.initial.meaning? i :=
        congrArg _ (state.table.base'.object old)
      rw [same, same']
      cases found : Table.initial.meaning? i with
      | none => exact .none
      | some x => exact .some (alike_of_builtin found)
  currentOwner state := state.table.currentOwner
  unique := Objects.unique

theorem entry_meanings {x y : Meaning} (h : (p.mirror p.Tables).Entry x y) : p.Meanings x y := by
  cases h with
  | const value => exact .const value
  | type actual => exact .type actual
  | var ty => exact .var ty
  | param mode ty routine => exact .param mode ty routine

theorem declare_mirrors {o o' : Object} (both : p.Entries o o') :
    (p.mirror p.Tables).Mirrors p.User (declare o) (declare o') := by
  intro s t state
  have current := state.table.current
  generalize here : s.table.current = x at current
  generalize here' : t.table.current = y at current
  cases current with
  | none =>
    rw [declare_nowhere o here, declare_nowhere o' here']
    exact .error (.internal _) trivial
  | some scope =>
    rw [declare_apply o here, declare_apply o' here']
    exact .ok state.table.nextObject
      ⟨state.place, state.maxDepth, state.depth, state.table.declareIn scope both⟩

theorem enterOwned_mirrors {i j : ObjectId} (user : p.User i j) {s t : State}
    (state : p.States p.Stores s t) (program : Option.Rel p.User s.table.program t.table.program) :
    (p.mirror p.Tables).Agree (fun _ _ => True) (enterOwned i s) (enterOwned j t) := by
  have owned := rel_bind (state.table.meaning user) fun _ _ both => both.ownedScope
  unfold enterOwned
  rw [bind_of_ok (table_apply s), bind_of_ok (table_apply t)]
  generalize s.table.meaning? i >>= (·.ownedScope?) = x at owned
  generalize t.table.meaning? j >>= (·.ownedScope?) = y at owned
  cases owned with
  | none => exact .error (.internal _) trivial
  | some scope =>
    exact .ok trivial ⟨state.place, state.maxDepth, state.depth, state.table.moved _ _ _ _, .some scope,
      program⟩

theorem exitScope_mirrors :
    (p.mirror p.Tables).Mirrors (fun _ _ => True) exitScope exitScope := by
  intro s t state
  have current := state.table.current
  generalize here : s.table.current = x at current
  generalize here' : t.table.current = y at current
  cases current with
  | none =>
    rw [exitScope_nowhere here, exitScope_nowhere here']
    exact .error (.internal _) trivial
  | some scope =>
    rw [exitScope_apply here, exitScope_apply here']
    exact .ok trivial ⟨state.place, state.maxDepth, state.depth, state.table.moved _ _ _ _,
      state.table.outer scope, state.table.program⟩

theorem declareRoutine_mirrors {a b : Token} (token : p.Tokens a b) (ident : a.kind = .ident)
    {meaning : ScopeId → Meaning}
    (routine : ∀ x y, p.UserScope x y → p.Meanings (meaning x) (meaning y)) :
    (p.mirror p.Tables).Mirrors p.User
      (declareRoutine fun t => let (scope, t) := t.createScope none t.current
        (⟨a.lexeme, some a.loc, meaning scope⟩, t))
      (declareRoutine fun t => let (scope, t) := t.createScope none t.current
        (⟨b.lexeme, some b.loc, meaning scope⟩, t)) := by
  intro s t state
  unfold declareRoutine
  rw [bind_of_ok (table_apply s), bind_of_ok (table_apply t)]
  have entry : p.Entries ⟨a.lexeme, some a.loc, meaning s.table.nextScope⟩
      ⟨b.lexeme, some b.loc, meaning t.table.nextScope⟩ :=
    ⟨token.name ident, .some token.place, routine _ _ state.table.nextScope⟩
  exact declare_mirrors entry ⟨state.place, state.maxDepth, state.depth,
    state.table.addScope ⟨.none, state.table.current, .nil⟩, state.table.current,
    state.table.program⟩

theorem declaring : (p.mirror p.Tables).Declaring where
  toReading := reading
  fresh state token ident := by
    rw [token.name ident]
    exact rel_isSome (state.table.lookupInCurrent _)
  declare token ident entry :=
    (declare_mirrors ⟨token.name ident, .some token.place, entry_meanings entry⟩).mono fun _ _ => .inl
  function token ident := declareRoutine_mirrors token ident fun _ _ => .function none .nil
  procedure token ident := declareRoutine_mirrors token ident fun _ _ => .procedure .nil
  setReturns _ state user := ⟨state.place, state.maxDepth, state.depth,
    state.table.setReturns user _, state.table.current, state.table.program⟩
  enterOwned user _ _ state := enterOwned_mirrors user
    ⟨state.place, state.maxDepth, state.depth, state.table.toStores⟩ state.table.program
  exitScope := exitScope_mirrors
  misuse := .internal

theorem program_agree {s t : State} (start : p.States p.Stores s t) :
    ((p.mirror p.Tables).withState p.Ends fun _ => trivial).Agree p.User (program s) (program t) := by
  have opening {s t : State} (_ : p.States p.Stores s t) : True := trivial
  refine declaring.programOver opening (fun _ => trivial) ?_ (declaring.blockOf reading.statement)
    (tokens p.Stores) ?_ start
  · -- what is pulled behind the end need not belong together, only the tables still do
    intro s t state eof
    exact scan_agree state fun here _ _ _ =>
      ⟨state.table, _, _, here.inside, here.lookahead, eof⟩
  · intro a b s t token ident start
    have next := start.table.nextObject
    refine ⟨next, enterOwned_mirrors next ⟨start.place, start.maxDepth, start.depth, ?_⟩ (.some next)⟩
    exact start.table.withProgram token (token.name ident)

theorem Stores.start {t : Table} (extends_ : t.Extends .initial)
    (objects : t.objects.size = Table.initial.objects.size + p.objects)
    (scopes : t.scopes.size = Table.initial.scopes.size + p.scopes) : p.Stores .initial t where
  base := .refl _
  base' := extends_
  objects := objects
  scopes := scopes
  object user := by
    have ⟨later, number⟩ := user
    rw [Table.object?_eq_none later, Table.object?_eq_none (by omega)]
    exact .none
  scope user := by
    have ⟨later, number⟩ := user
    rw [Table.scope?_eq_none later, Table.scope?_eq_none (by omega)]
    exact .none

variable (p) in
inductive Outcomes : Except CompileError Compiled → Except CompileError Compiled → Prop where
  | ok {c d : Compiled} : p.Tables c.table d.table → p.User c.program d.program →
    p.first.Complete → Outcomes (.ok c) (.ok d)
  | error {e f : CompileError} : p.Errors e f → Outcomes (.error e) (.error f)

theorem compileTokens_outcomes (objects : p.objects = 0) (scopes : p.scopes = 0)
    (maxDepth : Nat) :
    p.Outcomes (compileTokens p.first maxDepth) (compileTokens p.second maxDepth) := by
  have both := p.items 0
  generalize found : p.first.item 0 = x at both
  generalize found' : p.second.item 0 = y at both
  cases both with
  | error _ =>
    rw [compileTokens_of_error found, compileTokens_of_error found']
    exact .error (.lexical .zero found found')
  | @token a b =>
    have tables : p.Stores .initial .initial :=
      .start (.refl _) (by rw [objects, Nat.add_zero]) (by rw [scopes, Nat.add_zero])
    have run := program_agree
      (s := .first a (p.first.behind 1) .initial maxDepth)
      (t := .first b (p.second.behind 1) .initial maxDepth)
      ⟨⟨0, at_start found, at_start found'⟩, rfl, rfl, tables⟩
    rw [compileTokens_of_token found, compileTokens_of_token found']
    generalize program _ = r at run
    generalize program _ = r' at run
    cases run with
    | ok user ends => exact .ok ends.table user ends.read
    | error errors => exact .error errors
    | excused excused => cases excused

end Pairing

end Kpl
